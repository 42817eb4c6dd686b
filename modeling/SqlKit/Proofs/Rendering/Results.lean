import SqlKit.Proofs.Rendering.KeptTokens
import SqlKit.Proofs.Syntax.Parameters
import SqlKit.Syntax.View

/-!
# Results that are read back alone

An expression that was read as a result of a query is read again from its own row, wherever that
stands (`Expr.Rereadable.shown`), and if it is nothing but a term, so is the term
(`Term.Rereadable.shown`). For this the run of the query is followed to the run of the reader of
expressions inside of it.
-/

namespace SqlKit

/-- The results of a body, if it does not state rows of values. -/
def Body.results : Body → List ResultColumn
  | .select _ columns _ _ _ _ => columns
  | .values _ => []

/-- The results of the first body. -/
def Bodies.results : Bodies → List ResultColumn
  | .single body => body.results
  | .compound left _ _ => left.results

/-- The results of the first body of a query. -/
def Select.results (q : Select) : List ResultColumn := q.bodies.results

/-- An expression that was read as a result of a query whose own text shows all that it is. -/
def Expr.Rereadable (e : Expr) : Prop :=
  ∃ options text q asName, .select q ∈ (parse options text).statements ∧ q.PlainIn text ∧
    .expr e asName ∈ q.results

/-- A term that was read so, with nothing else in the expression. -/
def Term.Rereadable (t : Term) : Prop := t.toExpr.Rereadable

/-- The nodes of a result are nodes of the query. -/
theorem Select.mem_nodes {q : Select} {e : Expr} {asName : Option String}
    (h : .expr e asName ∈ q.results) {n : Node} (hn : n ∈ e.nodes) : n ∈ q.nodes := by
  have hBody : ∀ b : Body, .expr e asName ∈ b.results → n ∈ b.nodes := by
    intro b hb
    cases b with
    | values rows => cases hb
    | select distinct columns source condition groupBy having =>
      rw [Body.nodes, ResultColumn.nodesAll_eq]
      exact List.mem_append_left _ (List.mem_flatMap.mpr ⟨_, hb, hn⟩)
  have hBodies : ∀ b : Bodies, .expr e asName ∈ b.results → n ∈ b.nodes := by
    intro b hb
    induction b using Bodies.results.induct with
    | case1 body => exact hBody body hb
    | case2 left operator right ih => exact List.mem_append_left _ (ih hb)
  obtain ⟨recursive, tables, bodies, orderBy, limit, span⟩ := q
  exact List.mem_append_right _ (List.mem_append_left _ (hBodies bodies h))

namespace Grammar

open Parse

variable {α β γ : Type} {rules : Rules} {s : State}

/-! ## What a run goes through -/

/-- A reader comes to this result without an error, from a state that moves lead to. -/
def Parse.Reaches (m : Parse α) (s : State) (x : α) : Prop :=
  ∃ s₁ s₂, Moves s s₁ ∧ m.run s₁ = (x, s₂) ∧ s₂.error = none

theorem Parse.Reaches.behind {m : Parse α} {s' : State} {x : α} (h : m.Reaches s' x)
    (hMoves : Moves s s') : m.Reaches s x := by
  obtain ⟨s₁, s₂, hMoves', hRun, hError⟩ := h
  exact ⟨s₁, s₂, hMoves.trans hMoves', hRun, hError⟩

theorem after_reaches (m : Parse α) (s : State) : After m s fun x _ => m.Reaches s x :=
  fun hError => ⟨s, _, .refl s, rfl, hError⟩

/-- What holds of every item of a chain wherever it is read. -/
theorem After.chain_all {accept : Token → Option β} {item : β → Parse α} {P : α → Prop}
    (h : ∀ b s', Moves s s' → After (item b) s' fun x _ => P x) :
    After (Parse.chain accept item) s fun xs _ => ∀ x ∈ xs, P x := by
  intro hError
  simp only [Parse.chain] at hError ⊢
  fun_induction chainFrom accept item s with
  | case1 s => simp
  | case2 s => simp
  | case3 s t rest hTokens b hAccept after more ih =>
    have hTake := (Move.take hTokens).moves
    have hMoves : Moves s after.2 := hTake.trans ((item b).moves (s.take t rest))
    refine List.forall_mem_cons.mpr ⟨h b _ hTake ?_, ?_⟩
    · exact error_none_of_moves (moves_chainFrom accept item after.2) hError
    · exact ih (fun b s' hMoves' => h b s' (hMoves.trans hMoves')) hError

theorem After.separated_all {m : Parse α} {P : α → Prop}
    (h : ∀ s', Moves s s' → After m s' fun x _ => P x) :
    After (Parse.separated m) s fun xs _ => ∀ x ∈ xs, P x := by
  refine (h s (.refl s)).bind fun x s₁ hx hMoves => ?_
  have hRest : After (Parse.chainOf .comma m) s₁ fun xs _ => ∀ x ∈ xs, P x :=
    After.chain_all fun _ s' hMoves' => h s' (hMoves.trans hMoves')
  exact hRest.bind fun xs s₂ hxs _ => .pure (List.forall_mem_cons.mpr ⟨hx, hxs⟩)

/-- What is known of the first of two readers. -/
theorem After.fst {m : Parse α} {m' : Parse β} {P : α → Prop} (h : After m s fun x _ => P x) :
    After (both m m') s fun x _ => P x.1 :=
  h.bind fun _ _ hx _ => After.behind fun _ _ _ => .pure hx

/-! ## Results of queries -/

/-- The expression of a result was read as one. -/
def ReadAt (rules : Rules) (s : State) (c : ResultColumn) : Prop :=
  ∀ e asName, c = .expr e asName → (Grammar.expr rules).Reaches s e

theorem after_column (s : State) : After (resultColumn rules) s fun c _ => ReadAt rules s c := by
  rw [resultColumn_eq]
  refine After.eatIte (fun t rest hTokens hKind => .pure ?_) fun _ => ?_
  · intro e asName hColumn
    cases hColumn
  refine After.tableStar (f := columnBehind rules) (fun t u v rest hTokens => ?_) ?_
  · intro _ e asName hColumn
    cases hColumn
  · refine After.map (After.imp (After.fst (after_reaches (Grammar.expr rules) s)) ?_)
    intro x s' hx e asName hColumn
    exact (ResultColumn.expr.inj hColumn).1 ▸ hx

theorem after_clauses (s : State) :
    After (clauses rules) s fun x _ => ∀ c ∈ x.1.1.1.1, ReadAt rules s c :=
  After.fst (After.fst (After.fst (After.fst (After.separated_all fun s' hMoves =>
    (after_column s').imp fun _ _ hc e asName hColumn => (hc e asName hColumn).behind hMoves))))

theorem after_body (s : State) :
    After (body rules) s fun b _ => ∀ c ∈ b.results, ReadAt rules s c := by
  have hBehind : ∀ d s₁, Moves s s₁ → After (Clauses.body d <$> clauses rules) s₁ fun b _ =>
      ∀ c ∈ b.results, ReadAt rules s c := fun d s₁ hMoves =>
    After.map ((after_clauses s₁).imp fun x _ hx c hc e asName hColumn =>
      (hx c hc e asName hColumn).behind hMoves)
  rw [body_eq]
  refine After.eatIte (fun t rest hTokens hKind _ c hc => ?_) fun _ => ?_
  · cases hc
  refine After.expectKeyword fun t rest hTokens hKind => ?_
  refine After.behind fun d s₁ hMoves => ?_
  exact hBehind d s₁ ((Move.take hTokens).moves.trans hMoves)

theorem after_bodies (s : State) :
    After (bodies rules) s fun b _ => ∀ c ∈ b.results, ReadAt rules s c := by
  refine (after_body s).bind fun b s₁ hb _ => ?_
  refine After.behind fun rest _ _ => .pure ?_
  exact List.foldlRecOn (motive := fun b : Bodies => ∀ c ∈ b.results, ReadAt rules s c) rest _ hb
    fun _ hLeft _ _ => hLeft

/-- The expressions among the results of a query were read as expressions. -/
theorem after_select (s : State) :
    After (Grammar.select rules) s fun q _ => ∀ c ∈ q.results, ReadAt rules s c := by
  rw [select_eq]
  refine After.spanned ?_
  refine After.behind fun c s₁ hMoves => ?_
  refine After.behind fun tables s₂ hMoves' => ?_
  refine After.map (After.imp (After.fst (After.fst (after_bodies s₂))) ?_)
  intro x _ hx span c hc e asName hColumn
  exact (hx c hc e asName hColumn).behind (hMoves.trans hMoves')

/-! ## Expressions that are terms -/

/-- What is known of the first part of a layer, where nothing stands behind it. -/
theorem After.layer_single {first : Parse γ} {accept : Token → Option β} {item : β → Parse α}
    {δ : Type} {start : γ → δ} {make : δ → α → δ} {R : γ → Prop} (h : After first s fun x _ => R x)
    (hStart : Function.Injective start) (hMake : ∀ a y x, make a y ≠ start x) :
    After (do
      let x ← first
      let xs ← Parse.chain accept item
      return xs.foldl make (start x)) s fun a _ => ∀ x, a = start x → R x := by
  refine h.bind fun x s₁ hx _ => ?_
  refine After.behind fun xs _ _ => ?_
  refine .pure fun y hSame => ?_
  rcases List.eq_nil_or_concat xs with rfl | ⟨before, last, rfl⟩
  · exact hStart hSame ▸ hx
  · rw [List.concat_eq_append, List.foldl_append] at hSame
    exact absurd hSame (hMake _ _ _)

theorem after_operand_term (s : State) : After (operand rules) s fun o _ =>
    ∀ t : Term, o = t.toOperand → (Grammar.term rules).Reaches s t := by
  have hProduct : After (product rules) s fun p _ => ∀ t, p = .single t →
      (Grammar.term rules).Reaches s t :=
    (after_reaches (Grammar.term rules) s).layer_single (fun _ _ h => Product.single.inj h)
      fun _ _ _ h => nomatch h
  have hSum : After (sum rules) s fun x _ => ∀ p, x = .single p → ∀ t, p = .single t →
      (Grammar.term rules).Reaches s t :=
    hProduct.layer_single (fun _ _ h => Sum.single.inj h) fun _ _ _ h => nomatch h
  have hOperand : After (operand rules) s fun o _ => ∀ x, o = .single x → ∀ p, x = .single p →
      ∀ t, p = .single t → (Grammar.term rules).Reaches s t :=
    hSum.layer_single (fun _ _ h => Operand.single.inj h) fun _ _ _ h => nomatch h
  exact hOperand.imp fun _ _ h t ht => h _ ht _ rfl _ rfl

/-- A condition that is only an operand is the operand that was read, without a test. -/
theorem after_condition_operand {R : Operand → Prop} (h : After (operand rules) s fun o _ => R o) :
    After (condition rules) s fun c _ => ∀ o, c = .operand o → R o := by
  have hPlain : After (plainCondition rules) s fun c _ => ∀ o, c = .operand o → R o := by
    refine After.eatIte (fun t rest hTokens hKind => ?_) fun _ => ?_
    · refine After.expect fun u rest' _ _ => After.behind
        fun q s₁ _ => After.expect fun v rest'' _ _ => .pure fun o hSame => ?_
      cases hSame
    · refine h.bind fun left s₁ hLeft _ => ?_
      rw [test_eq]
      intro _ o hSame
      have hOperand : ∀ t : Test, t.of left = .operand o → left = o := by
        intro t ht
        cases t with
        | nothing => exact Condition.operand.inj ht
        | oneOf negated members => cases members <;> cases ht
        | like negated pattern => obtain ⟨pattern, - | escape⟩ := pattern <;> cases ht
        | _ => cases ht
      exact hOperand _ hSame ▸ hLeft
  refine (idle_chain s).bind fun negations s₁ hIdle _ => ?_
  cases negations with
  | nil => exact (hIdle rfl ▸ hPlain).bind fun c _ hc _ => .pure hc
  | cons negation negations =>
    refine After.behind fun c _ _ => ?_
    exact .pure fun o hSame => nomatch hSame

/-- An expression that is only a term was read as the term. -/
theorem after_expr_term (s : State) : After (Grammar.expr rules) s fun e _ =>
    ∀ t : Term, e = t.toExpr → (Grammar.term rules).Reaches s t := by
  have hConjunction : After (conjunction rules) s fun c _ => ∀ x, c = .single x → ∀ o,
      x = .operand o → ∀ t : Term, o = t.toOperand → (Grammar.term rules).Reaches s t :=
    (after_condition_operand (after_operand_term s)).layer_single
      (fun _ _ h => Conjunction.single.inj h) fun _ _ _ h => nomatch h
  have hExpr : After (Grammar.expr rules) s fun e _ => ∀ c, e = .single c → ∀ x, c = .single x →
      ∀ o, x = .operand o → ∀ t : Term, o = t.toOperand → (Grammar.term rules).Reaches s t :=
    hConjunction.layer_single (fun _ _ h => Expr.single.inj h) fun _ _ _ h => nomatch h
  exact hExpr.imp fun _ _ h t ht => h _ ht _ rfl _ rfl _ rfl

end Grammar

open Grammar

/-! ## Results in other places -/

/-- The run in which a result of a query was read. -/
theorem Expr.Rereadable.exists_run {e : Expr} (h : e.Rereadable) :
    (∀ n ∈ e.nodes, n.Plain) ∧ ∃ n s s', Room n 0 s ∧ (Grammar.expr (.upTo n)).run s = (e, s') ∧
      s'.error = none := by
  obtain ⟨options, text, q, asName, hQuery, hPlain, hResult⟩ := h
  obtain ⟨seg, hSegment, b, hStatement, hError⟩ := mem_statements hQuery
  obtain ⟨-, s₁, hRun, -, -, hNone⟩ :=
    Segment.read_select (segments_whole hSegment) hStatement hError
  have hRoom : Room (seg.tokens.length + 1) 0 (seg.start b) := by
    refine ⟨Nat.le_succ _, fun t ht => ?_, segments_isEnd hSegment⟩
    have hText := segments_mem hSegment ht
    obtain ⟨hFirst, hLast⟩ := Segment.covers_select hSegment hStatement hError ht
    exact bare_tokensOf hText (hPlain.names t hText hFirst hLast)
  obtain ⟨s₂, s₃, hMoves, hRead, hDone⟩ :=
    (after_select _).result hRun hNone _ hResult e asName rfl
  exact ⟨fun n hn => hPlain.nodes n (Select.mem_nodes hResult hn), _, s₂, s₃,
    hRoom.moves hMoves, hRead, hDone⟩

/-- A result of a query is read again from its own row. -/
theorem Expr.Rereadable.shown {e : Expr} (h : e.Rereadable) :
    Shown 0 .expr Grammar.expr 7 (fun _ => True) e e.row := by
  obtain ⟨hNodes, n, s, s', hRoom, hRun, hError⟩ := h.exists_run
  obtain ⟨⟨gs, hShown⟩, -⟩ := ((known n).disjunction s hRoom).result hRun hError hNodes
  obtain rfl : e.row = gs := hShown.row
  exact hShown.imp fun _ _ => trivial

/-- A term that is a result of a query is read again from its own row. -/
theorem Term.Rereadable.shown {t : Term} (h : t.Rereadable) :
    Shown 0 .term Grammar.term 1 (fun _ => True) t t.row := by
  obtain ⟨hNodes, n, s, s', hRoom, hRun, hError⟩ := h.exists_run
  obtain ⟨s₁, s₂, hMoves, hTerm, hDone⟩ := (after_expr_term s).result hRun hError t rfl
  obtain ⟨⟨gs, hShown⟩, -⟩ := ((known n).term s₁ (hRoom.moves hMoves)).result hTerm hDone hNodes
  obtain rfl : t.row = gs := hShown.row
  exact hShown.imp fun _ _ => trivial

/-- Looks for a result among the queries of a text. -/
theorem exists_rereadable {p : Expr → Bool} {text : String}
    (h : (parse .standard text).statements.any (fun
      | .select q => decide (q.PlainIn text) && q.results.any fun
        | .expr e _ => p e
        | _ => false
      | _ => false) = true) : ∃ e : Expr, e.Rereadable ∧ p e = true := by
  obtain ⟨x, hx, hQuery⟩ := List.any_eq_true.mp h
  cases x with
  | select q =>
    obtain ⟨hPlain, hResults⟩ := Bool.and_eq_true_iff.mp hQuery
    obtain ⟨c, hc, hExpr⟩ := List.any_eq_true.mp hResults
    cases c with
    | expr e asName => exact ⟨e, ⟨_, text, q, asName, hx, of_decide_eq_true hPlain, hc⟩, hExpr⟩
    | _ => cases hExpr
  | _ => cases hQuery

end SqlKit
