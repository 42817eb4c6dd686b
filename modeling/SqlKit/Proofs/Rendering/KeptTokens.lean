import SqlKit.Proofs.Rendering.KeptExpressions
import SqlKit.Proofs.Rendering.RoundTrip

/-!
# Accepted expressions keep every token

The text of a query that is one expression behind `SELECT` has the tokens of the expression, and no
others, behind its first one: the readers of what else a query may have took none
(`Parse.Idle`). With `keeps` this gives `kinds_sql`.
-/

namespace SqlKit

/-- The query for the value of one expression. -/
def Select.ofExpr (e : Expr) (span : Span) : Select :=
  ⟨false, [], .single (.select false [.expr e none] none none [] none), [], .none, span⟩

namespace Grammar

open Parse

variable {α β γ : Type} {rules : Rules} {s : State}

/-! ## Readers that took nothing -/

/-- A reader that comes to this result without an error has left the state as it was. -/
def Parse.Idle (m : Parse α) (x : α) : Prop := ∀ s, After m s fun y s' => y = x → s' = s

theorem idle_chain {accept : Token → Option β} {item : β → Parse α} :
    (chain accept item).Idle [] := by
  intro s _ hNil
  simp only [chain] at hNil ⊢
  fun_induction chainFrom accept item s with
  | case1 s => rfl
  | case2 s => rfl
  | case3 s t rest hTokens b hAccept after more ih => cases hNil

theorem idle_after {word : Keyword} {m : Parse α} : (after word m).Idle none := by
  intro s
  refine After.eatIte (fun t rest hTokens hKind => ?_) fun _ => .pure fun _ => rfl
  intro _ hNone
  cases hNone

theorem idle_listed {word word' : Keyword} {m : Parse α} : (Parse.listed word word' m).Idle [] := by
  intro s
  refine After.eatIte (fun t rest hTokens hKind => ?_) fun _ => .pure fun _ => rfl
  refine After.expectKeyword fun u rest' hTokens' hKind' _ hNil => ?_
  cases hNil

theorem idle_asName : asName?.Idle none := by
  intro s
  refine After.eatIte (fun t rest hTokens hKind _ hNone => ?_) fun _ => ?_
  · cases hNone
  · intro _ hNone
    cases hTokens : s.tokens with
    | nil => rw [run_take?_nil hTokens]
    | cons t rest =>
      cases hAccept : identifierOf? t with
      | none => rw [run_take?_none hTokens hAccept]
      | some m =>
        rw [run_take?_some hTokens hAccept] at hNone
        cases hNone

theorem idle_limit : (limit rules).Idle .none := by
  intro s
  refine After.eatIte (fun t rest hTokens hKind => ?_) fun _ => .pure fun _ => rfl
  refine After.behind fun x s₁ _ => ?_
  refine After.eatIte (fun _ _ _ _ _ hNone => ?_) fun _ => ?_
  · cases hNone
  · refine After.eatIte (fun _ _ _ _ _ hNone => ?_) fun _ => .pure fun hNone => ?_
    · cases hNone
    · cases hNone

/-- What is known of a reader in front of one that took nothing. -/
theorem After.both_fst {m : Parse α} {m' : Parse β} {y : β} {P : α → State → Prop}
    (h : After m s P) (hIdle : m'.Idle y) :
    After (both m m') s fun x s' => x.2 = y → P x.1 s' := by
  refine h.bind fun x s₁ hx hMoves => ?_
  refine After.bind (hIdle s₁) fun y' s₂ hy _ => .pure fun hSame => ?_
  rw [hy hSame]
  exact hx

/-- What is known of the only item of a list. -/
theorem After.separated_single {m : Parse α} {P : α → State → Prop} (h : After m s P) :
    After (Parse.separated m) s fun xs s' => ∀ x, xs = [x] → P x s' := by
  refine h.bind fun x s₁ hx hMoves => ?_
  refine After.bind (idle_chain s₁) fun xs s₂ hxs _ => .pure fun y hSingle => ?_
  obtain ⟨rfl, hNil⟩ := List.cons.inj hSingle
  rw [hxs hNil]
  exact hx

/-! ## The expression of a query -/

/-- An expression is all that was read. -/
def ReadsOnly (rules : Rules) (s : State) (e : Expr) (s' : State) : Prop :=
  (Grammar.expr rules).run s = (e, s')

theorem only_column (s : State) : After (resultColumn rules) s fun c s' =>
    ∀ e, c = .expr e none → ReadsOnly rules s e s' := by
  rw [resultColumn_eq]
  refine After.eatIte (fun t rest hTokens hKind => .pure fun e hColumn => ?_) fun _ => ?_
  · cases hColumn
  refine After.tableStar (f := columnBehind rules) (fun t u v rest hTokens => ?_) ?_
  · intro _ e hColumn
    cases hColumn
  · have hExpr : After (Grammar.expr rules) s (ReadsOnly rules s) := fun _ => rfl
    refine After.map (After.imp (hExpr.both_fst idle_asName) fun x s' hx e hColumn => ?_)
    obtain ⟨hValue, hNone⟩ := ResultColumn.expr.inj hColumn
    exact hValue ▸ hx hNone

theorem only_clauses (s : State) : After (clauses rules) s fun x s' =>
    ∀ e, x = (((([.expr e none], none), none), []), none) → ReadsOnly rules s e s' := by
  have hColumns := (@only_column rules s).separated_single
  refine After.imp ((((hColumns.both_fst idle_after).both_fst idle_after).both_fst
    idle_listed).both_fst idle_after) ?_
  rintro _ s' hx e rfl
  exact hx rfl rfl rfl rfl _ rfl e rfl

/-- A body for the value of an expression is the expression behind `SELECT`. -/
theorem only_body (s : State) : After (body rules) s fun b s' =>
    ∀ e, b = .select false [.expr e none] none none [] none → ∃ t rest, s.tokens = t :: rest ∧
      ((∀ u ∈ rest.head?, u.kind ≠ .keyword .ALL) →
        ReadsOnly rules (s.take t rest) e s') := by
  rw [body_eq]
  refine After.eatIte (fun t rest hTokens hKind _ e hBody => ?_) fun _ => ?_
  · cases hBody
  refine After.expectKeyword fun t rest hTokens hKind => ?_
  rw [distinct_eq, bind_assoc]
  refine After.eat (fun u more hTokens' hKind' _ e hBody => ?_) fun _ => ?_
  · cases hBody
  simp only [Bool.false_eq_true, ↓reduceIte, bind_assoc, pure_bind]
  refine After.eat (fun u more hTokens' hKind' _ e hBody => ?_) fun _ => ?_
  · exact ⟨t, rest, hTokens, fun hAll => absurd hKind' (hAll u (congrArg List.head? hTokens'))⟩
  · refine After.map (After.imp (only_clauses (s.take t rest)) fun x s' hx e hBody => ?_)
    obtain ⟨⟨⟨⟨columns, source⟩, condition⟩, groupBy⟩, having⟩ := x
    obtain ⟨-, rfl, rfl, rfl, rfl, rfl⟩ := Body.select.inj hBody
    exact ⟨t, rest, hTokens, fun _ => hx e rfl⟩

/-- A query without set operators is one body. -/
theorem foldl_compound {first b : Body} {entries : List (SetOperator × Body)}
    (h : entries.foldl (fun left entry => .compound left entry.1 entry.2) (Bodies.single first) =
      .single b) : first = b ∧ entries = [] := by
  rcases List.eq_nil_or_concat entries with rfl | ⟨before, last, rfl⟩
  · exact ⟨Bodies.single.inj h, rfl⟩
  · rw [List.concat_eq_append, List.foldl_append] at h
    cases h

theorem only_bodies {P : Body → State → Prop} (h : After (body rules) s P) :
    After (bodies rules) s fun x s' => ∀ b, x = .single b → P b s' := by
  refine h.bind fun first s₁ hFirst _ => ?_
  refine After.bind (idle_chain s₁) fun entries s₂ hEntries _ => .pure fun b hSingle => ?_
  obtain ⟨rfl, hNil⟩ := foldl_compound hSingle
  rw [hEntries hNil]
  exact hFirst

/-- A query for the value of an expression is the expression behind `SELECT`. -/
theorem only_select (s : State) : After (Grammar.select rules) s fun q s' =>
    ∀ e span, q = .ofExpr e span → ∃ t rest, s.tokens = t :: rest ∧
      ((∀ u ∈ rest.head?, u.kind ≠ .keyword .ALL) →
        ReadsOnly rules (s.take t rest) e s') := by
  rw [select_eq]
  refine After.spanned (After.eat (f := fun c => withTables rules c >>= selectBehind rules)
    (fun t rest hTokens hKind => ?_) fun _ => ?_)
  · have hTables : After (withTables rules true) (s.take t rest) fun x _ => x.2 ≠ [] := by
      refine After.behind fun c s₁ _ => ?_
      exact fun _ => List.cons_ne_nil _ _
    refine hTables.bind fun tables s₁ hSome _ => ?_
    intro _ span e span' hQuery
    exact absurd (Select.mk.inj hQuery).2.1 hSome
  · have hBodies := only_bodies (@only_body rules s)
    have hBare :
      withTables rules false >>= selectBehind rules = selectBehind rules (false, []) := rfl
    refine After.of_eq hBare (After.map ?_)
    refine After.imp ((hBodies.both_fst idle_listed).both_fst idle_limit) ?_
    rintro ⟨⟨x, orderBy⟩, limit⟩ s' hx span e span' hQuery
    obtain ⟨-, -, hSingle, hOrder, hLimit, -⟩ := Select.mk.inj hQuery
    exact hx hLimit hOrder _ hSingle e rfl

end Grammar

open Grammar

/-- The reading of a segment that is one expression behind `SELECT`. -/
theorem Segment.read_expr {seg : Segment} {b : Bindings} {e : Expr} {span : Span}
    (hWhole : seg.Whole) (hAll : ∀ u ∈ seg.rest.head?, u.kind ≠ .keyword .ALL)
    (hStatement : (seg.read b).1.statement = .select (.ofExpr e span))
    (hError : (seg.read b).1.error = none) :
    ∃ s', (Grammar.expr (.upTo (seg.rest.length + 2))).run ((seg.start b).take seg.first seg.rest) =
      (e, s') ∧ s'.tokens = [] ∧ s'.error = none := by
  obtain ⟨-, s', hRun, -, hEnd, hNone⟩ := Segment.read_select hWhole hStatement hError
  obtain ⟨_, _, hStart, hReads⟩ := (only_select _).result hRun hNone e span rfl
  obtain ⟨rfl, rfl⟩ := List.cons.inj hStart
  exact ⟨s', hReads hAll, hEnd, hNone⟩

/-! ## The tokens of an expression -/

/-- The tokens of one expression, none of which is a quoted name. An `ALL` in front would belong to
the query around the expression. -/
structure ExprTokens (ts : List Token) : Prop extends PlainTokens ts where
  names : ∀ t ∈ ts, t.isQuotedName = false
  semicolon : ∀ t ∈ ts, isSemicolon t = false
  all : ∀ u ∈ ts.head?, u.kind ≠ .keyword .ALL

theorem exprTokens_iff {ts : List Token} : ExprTokens ts ↔
    (∀ t ∈ ts, isQueryStart t.kind = false ∧ isFloat t.kind = false ∧ t.isQuotedName = false ∧
      isSemicolon t = false) ∧
    (ts.IsChain fun t u => ¬ (t.kind = .symbol .minus ∧ u.kind = .symbol .minus)) ∧
    ∀ u ∈ ts.head?, u.kind ≠ .keyword .ALL := by
  constructor
  · exact fun h => ⟨fun t ht => ⟨h.query t ht, h.float t ht, h.names t ht, h.semicolon t ht⟩,
      h.minus, h.all⟩
  · rintro ⟨hEach, hMinus, hAll⟩
    exact ⟨⟨fun t ht => (hEach t ht).1, fun t ht => (hEach t ht).2.1, hMinus⟩,
      fun t ht => (hEach t ht).2.2.1, fun t ht => (hEach t ht).2.2.2, hAll⟩

instance (ts : List Token) : Decidable (ExprTokens ts) := decidable_of_iff' _ exprTokens_iff

/-- The tokens of a legal row that is written as a text. -/
theorem Script.Legal.kinds_tokensOf {gs : Script} (h : gs.Legal) {text : String}
    (hText : Script.chars gs = text.toList) : (tokensOf text).map Token.kind = Script.kinds gs := by
  have hSpells := h.spells .start
  rw [hText] at hSpells
  exact hSpells.kinds_eq.symm

/-- **An accepted expression keeps every token.** The text of an expression that was read behind
`SELECT` has the tokens that the expression was read from, with `AND` for `&&` and the signs of
numbers folded. -/
theorem kinds_sql {options : ParseOptions} {text : String} {t : Token} {ts : List Token} {e : Expr}
    {span : Span} (hTokens : tokensOf text = t :: ts) (hSelect : t.kind = .keyword .SELECT)
    (hExpr : ExprTokens ts)
    (hStatement : .select (.ofExpr e span) ∈ (parse options text).statements) :
    (tokensOf e.sql).map Token.kind = writtenKinds (ts.map Token.kind) := by
  obtain ⟨seg, hSegment, b, hRead, hError⟩ := mem_statements hStatement
  have hSemicolon : ∀ u ∈ tokensOf text, isSemicolon u = false := by
    rw [hTokens]
    refine List.forall_mem_cons.mpr ⟨?_, hExpr.semicolon⟩
    rw [Bool.eq_false_iff, Ne, isSemicolon_iff, hSelect]
    simp
  have hWhole := segments_whole hSegment
  rw [segments_single hTokens hSemicolon] at hSegment
  obtain rfl := List.mem_singleton.mp hSegment
  obtain ⟨s', hRun, hEnd, hNone⟩ := Segment.read_expr hWhole hExpr.all hRead hError
  have hFair : Fair (ts.length + 2) 2
      ((Segment.start ⟨t, ts, .endOfInput (endOf text)⟩ b).take t ts) := by
    refine ⟨⟨le_rfl, fun u hu => ?_, Or.inr rfl⟩, hExpr.toPlainTokens⟩
    exact bare_tokensOf (hTokens ▸ List.mem_cons_of_mem t hu) (hExpr.names u hu)
  have hKept := ((keeps _).disjunction _ hFair).result hRun hNone
  have hShown := ((known _).disjunction _ hFair.toRoom).result hRun hNone
  obtain ⟨hOkay, us, hTaken, hScan⟩ := hKept
  obtain ⟨⟨gs, hRow⟩, -⟩ := hShown hOkay
  obtain rfl : ts = us := by
    rw [← List.append_nil us, ← hEnd]
    exact hTaken
  have hText : Script.chars gs = e.sql.toList := hRow.row ▸ e.chars_row
  rw [hRow.legal.kinds_tokensOf hText, ← hRow.row, writtenKinds, hScan]
  exact (List.append_nil _).symm

/-- Whether a statement is a query for the value of one expression. -/
def Statement.isOfExpr : Statement → Bool
  | .select ⟨false, [], .single (.select false [.expr _ none] none none [] none), [], .none, _⟩ =>
    true
  | _ => false

theorem Statement.exists_ofExpr {x : Statement} (h : x.isOfExpr = true) :
    ∃ e span, x = .select (.ofExpr e span) := by
  unfold isOfExpr at h
  split at h
  · exact ⟨_, _, rfl⟩
  · cases h

/-- Looks for an expression behind `SELECT`. -/
theorem exists_exprTokens {text : String}
    (h : (match tokensOf text with
      | [] => false
      | t :: ts => decide (t.kind = .keyword .SELECT) && decide (ExprTokens ts) &&
        (parse .standard text).statements.any Statement.isOfExpr) = true) :
    ∃ t ts e span, tokensOf text = t :: ts ∧ t.kind = .keyword .SELECT ∧ ExprTokens ts ∧
      .select (.ofExpr e span) ∈ (parse .standard text).statements := by
  split at h
  · cases h
  · next t ts hTokens =>
    simp only [Bool.and_eq_true, decide_eq_true_eq] at h
    obtain ⟨⟨hSelect, hExpr⟩, hStatement⟩ := h
    obtain ⟨x, hx, hOf⟩ := List.any_eq_true.mp hStatement
    obtain ⟨e, span, rfl⟩ := Statement.exists_ofExpr hOf
    exact ⟨t, ts, e, span, hTokens, hSelect, hExpr, hx⟩

/-- An expression with signs, a conjunction and a negated predicate. -/
def sampleExpr : String := "SELECT x - + -1 && NOT y NOT IN (?2, -f(DISTINCT @p:INT))"

theorem sampleExpr_tokens :
    ∃ t ts e span, tokensOf sampleExpr = t :: ts ∧ t.kind = .keyword .SELECT ∧ ExprTokens ts ∧
      .select (.ofExpr e span) ∈ (parse .standard sampleExpr).statements :=
  exists_exprTokens (by decide +kernel)

theorem kinds_sql_sampleExpr : ∃ t ts e span, tokensOf sampleExpr = t :: ts ∧ ExprTokens ts ∧
    .select (.ofExpr e span) ∈ (parse .standard sampleExpr).statements ∧
    (tokensOf e.sql).map Token.kind = writtenKinds (ts.map Token.kind) := by
  obtain ⟨t, ts, e, span, hTokens, hSelect, hExpr, hStatement⟩ := sampleExpr_tokens
  exact ⟨t, ts, e, span, hTokens, hExpr, hStatement,
    kinds_sql hTokens hSelect hExpr hStatement⟩

end SqlKit
