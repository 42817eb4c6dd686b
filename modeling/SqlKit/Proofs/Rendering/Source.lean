import SqlKit.Proofs.Rendering.Names

/-!
# Sources are read back

The sources of a query and the joins between them.
-/

namespace SqlKit.Grammar

open Parse

variable {n k : Nat} {s : State}

/-! ## Join operators -/

/-- A join operator that the grammar has. -/
structure IsJoin (o : JoinOperator) : Prop where
  comma : o.kind = .comma → o = .ofComma
  outer : o.outer = true → o.kind = .left ∨ o.kind = .right ∨ o.kind = .full

/-- The kinds of joins that have a word of their own. -/
def joinWord? : JoinKind → Option Keyword
  | .left => some .LEFT
  | .right => some .RIGHT
  | .full => some .FULL
  | .inner => some .INNER
  | .cross => some .CROSS
  | .comma | .plain => none

theorem joinKind?_of_word {t : Token} {kind : JoinKind} {word : Keyword}
    (h : joinWord? kind = some word) (hKind : t.kind = .keyword word) :
    joinKind? t = some kind := by
  unfold joinKind?
  rw [hKind]
  cases kind <;> cases h <;> rfl

theorem word_of_joinKind? {t : Token} {kind : JoinKind} (h : joinKind? t = some kind) :
    ∃ word, joinWord? kind = some word ∧ t.kind = .keyword word := by
  unfold joinKind? at h
  split at h
  case h_6 => cases h
  all_goals
    obtain rfl := Option.some.inj h
    exact ⟨_, rfl, ‹_›⟩

theorem row_of_word {kind : JoinKind} {word : Keyword} (h : joinWord? kind = some word) :
    kind.row = [.keyword word, .blank] := by
  cases kind <;> cases h <;> rfl

section Operator

variable {α : Type} {m : Rules → JoinOperator → Parse α} {gs : Script} {ms : List ParamMark}
  {level : Nat} {Q : α → Prop} {natural : Bool} {kind : JoinKind} {outer : Bool}

/-- What is read of a join operator behind its kind and `OUTER`. -/
def joinEnd (natural : Bool) (kind : JoinKind) (outer : Bool) : Parse JoinOperator := do
  expectKeyword .JOIN
  return ⟨natural, kind, outer⟩

theorem Reads.joinEnd
    (h : Reads (k + 1) (fun rules => m rules ⟨natural, kind, outer⟩) gs ms level Q) :
    Reads k (fun rules => joinEnd natural kind outer >>= m rules) (.keyword .JOIN :: gs) ms level
      Q := by
  simp only [Grammar.joinEnd, bind_assoc, pure_bind]
  exact Reads.expectKeyword h

theorem joinAfterKind_outer (h : kind = .left ∨ kind = .right ∨ kind = .full) :
    joinAfterKind natural kind = eatKeyword .OUTER >>= Grammar.joinEnd natural kind := by
  rcases h with rfl | rfl | rfl <;> rfl

theorem joinAfterKind_inner (h : ¬ (kind = .left ∨ kind = .right ∨ kind = .full)) :
    joinAfterKind natural kind = Grammar.joinEnd natural kind false := by
  cases kind <;> first | rfl | simp at h

theorem Reads.joinAfterKind (hOuter : outer = true → kind = .left ∨ kind = .right ∨ kind = .full)
    (h : Reads (k + 1) (fun rules => m rules ⟨natural, kind, outer⟩) gs ms level Q) :
    Reads k (fun rules => joinAfterKind natural kind >>= m rules)
      (optionalWord outer .OUTER ++ .keyword .JOIN :: gs) ms level Q := by
  by_cases hKind : kind = .left ∨ kind = .right ∨ kind = .full
  · simp only [joinAfterKind_outer hKind, bind_assoc]
    cases outer with
    | true => exact Reads.eat rfl (Reads.blank (Reads.joinEnd (h.mono (Nat.le_succ _) le_rfl)))
    | false => exact Reads.eatNone (fun _ _ hNext => nomatch hNext) (Reads.joinEnd h)
  · simp only [joinAfterKind_inner hKind]
    cases outer with
    | true => exact absurd (hOuter rfl) hKind
    | false => exact Reads.joinEnd h

theorem joinStart?_of_word {t : Token} {word : Keyword} (h : joinWord? kind = some word)
    (hKind : t.kind = .keyword word) : joinStart? t = some (.kind kind) := by
  have hWord := joinKind?_of_word h hKind
  unfold joinStart?
  rw [hKind]
  cases kind <;> cases h <;> simp [hWord]

/-- A join with the word of its kind, or with none. -/
theorem joinWord?_cases (hComma : kind ≠ .comma) :
    kind = .plain ∨ ∃ word, joinWord? kind = some word := by
  cases kind <;> simp [joinWord?] at hComma ⊢

theorem row_join (hComma : kind ≠ .comma) (gs : Script) :
    JoinOperator.row ⟨natural, kind, outer⟩ ++ gs = .blank :: (optionalWord natural .NATURAL ++
      (kind.row ++ (optionalWord outer .OUTER ++ .keyword .JOIN :: gs))) := by
  simp [JoinOperator.row, hComma]

theorem outer_plain (ho : IsJoin ⟨natural, .plain, outer⟩) : outer = false := by
  cases outer with
  | false => rfl
  | true => rcases ho.outer rfl with h | h | h <;> cases h

theorem Reads.naturalJoin (ho : IsJoin ⟨natural, kind, outer⟩) (hComma : kind ≠ .comma)
    (h : Reads (k + 1) (fun rules => m rules ⟨true, kind, outer⟩) gs ms level Q) :
    Reads k (fun rules => joinOperator .natural >>= m rules)
      (kind.row ++ (optionalWord outer .OUTER ++ .keyword .JOIN :: gs)) ms level Q := by
  simp only [joinOperator, bind_assoc]
  rcases joinWord?_cases hComma with rfl | ⟨word, hWord⟩
  · obtain rfl := outer_plain ho
    refine Reads.takeNone
      (m := fun rules o => Grammar.joinAfterKind true (o.getD .plain) >>= m rules)
      (fun more _ t ht => ?_) (Reads.joinAfterKind ho.outer h)
    unfold joinKind?
    rw [ht]
    rfl
  · rw [row_of_word hWord]
    refine Reads.take
      (m := fun rules o => Grammar.joinAfterKind true (o.getD .plain) >>= m rules) rfl
      (fun t ht _ => joinKind?_of_word hWord ht) (Reads.blank ?_)
    exact Reads.joinAfterKind ho.outer (h.mono (Nat.le_succ _) le_rfl)

/-- A join operator is read back, with what stands behind it. -/
theorem Reads.join {o : JoinOperator} (ho : IsJoin o)
    (h : Reads (k + 1) (fun rules => m rules o) gs ms level Q) :
    Reads k (fun rules => entry joinStart? fun start => joinOperator start >>= m rules)
      (o.row ++ gs) ms level fun x => ∃ a, x = some a ∧ Q a := by
  obtain ⟨natural, kind, outer⟩ := o
  have hSome : ∀ {j} {o : JoinOperator}, Reads j (fun rules => m rules o) gs ms level Q →
      Reads j (fun rules => some <$> m rules o) gs ms level fun x => ∃ a, x = some a ∧ Q a :=
    fun hm => hm.map fun a ha => ⟨a, rfl, ha⟩
  by_cases hComma : kind = .comma
  · obtain ⟨rfl, rfl, rfl⟩ : natural = false ∧ kind = .comma ∧ outer = false := by
      simpa [JoinOperator.ofComma] using ho.comma hComma
    exact Reads.take (b := .comma) rfl (fun t ht _ => by unfold joinStart?; rw [ht]) (hSome h)
  rw [row_join hComma]
  refine Reads.blank ?_
  cases natural with
  | true =>
    refine Reads.take (b := .natural) rfl (fun t ht _ => by unfold joinStart?; rw [ht]) ?_
    simp only [map_bind]
    exact Reads.blank (Reads.naturalJoin ho hComma (hSome (h.mono (Nat.le_succ _) le_rfl)))
  | false =>
    rcases joinWord?_cases hComma with rfl | ⟨word, hWord⟩
    · obtain rfl := outer_plain ho
      exact Reads.take (b := .join) rfl (fun t ht _ => by unfold joinStart?; rw [ht]) (hSome h)
    · rw [row_of_word hWord]
      refine Reads.take rfl (fun t ht _ => joinStart?_of_word hWord ht) ?_
      simp only [joinOperator, map_bind]
      exact Reads.blank (Reads.joinAfterKind ho.outer (hSome (h.mono (Nat.le_succ _) le_rfl)))

end Operator

/-- The operators that are read are those of the grammar. -/
theorem After.joinOperator {t : Token} {start : JoinStart} (h : joinStart? t = some start) :
    After (joinOperator start) s fun o s' => IsJoin o ∧ s'.scope = s.scope := by
  have hAfterKind : ∀ natural kind (s' : State), kind ≠ .comma → s'.scope = s.scope →
      After (joinAfterKind natural kind) s' fun o s'' => IsJoin o ∧ s''.scope = s.scope := by
    intro natural kind s' hComma hScope
    by_cases hKind : kind = .left ∨ kind = .right ∨ kind = .full
    · rw [joinAfterKind_outer hKind]
      have hEnd : ∀ outer (s' : State), s'.scope = s.scope →
          After (joinEnd natural kind outer) s' fun o s'' => IsJoin o ∧ s''.scope = s.scope :=
        fun outer s' hScope => After.expectKeyword fun _ _ _ _ =>
          .pure ⟨⟨fun h => absurd h hComma, fun _ => hKind⟩, hScope⟩
      exact After.eat (fun _ _ _ _ => hEnd true _ hScope) fun _ => hEnd false _ hScope
    · rw [joinAfterKind_inner hKind]
      exact After.expectKeyword fun _ _ _ _ => .pure ⟨⟨fun h => absurd h hComma, nofun⟩, hScope⟩
  have hComma : ∀ {u : Token} {kind}, joinKind? u = some kind → kind ≠ .comma := by
    rintro u kind hKind rfl
    obtain ⟨word, hWord, -⟩ := word_of_joinKind? hKind
    cases hWord
  cases start with
  | comma => exact .pure ⟨⟨fun _ => rfl, nofun⟩, rfl⟩
  | join => exact .pure ⟨⟨nofun, nofun⟩, rfl⟩
  | natural =>
    refine After.take (fun u rest kind _ hKind => ?_) fun _ => ?_
    · exact hAfterKind true kind _ (hComma hKind) rfl
    · exact hAfterKind true .plain _ (by simp) rfl
  | kind kind =>
    refine hAfterKind false kind s ?_ rfl
    unfold joinStart? at h
    split at h
    case h_4 =>
      obtain ⟨kind', hKind, hSame⟩ := Option.map_eq_some_iff.mp h
      obtain rfl := JoinStart.kind.inj hSame
      exact hComma hKind
    all_goals cases h

/-! ## Constraints -/

def Print.joinConstraint : Print JoinConstraint := ⟨JoinConstraint.row, JoinConstraint.nodes⟩

theorem tail_on {x : Expr} {gs : Script} {P : List TokenKind → Prop}
    (h : Shown (k + 1) .expr Grammar.expr 7 P x gs) :
    Tail k .joinConstraint joinConstraint 9 10 (.on x)
      (.blank :: .keyword .ON :: .blank :: gs) where
  row := by rw [← h.row]; rfl
  legal := by simpa using h.legal
  leads := stops_blank (stops_cons rfl le_rfl)
  reads := by
    have hReads := h.reads.mono le_rfl (by decide : 7 ≤ 10)
    refine Reads.blank (Reads.eatThen rfl (hReads.blank.bindEnd fun y hy => Reads.pure ?_))
    exact congrArg JoinConstraint.on hy
  detached := Script.detached_cons rfl

theorem tail_using {columns : List String} {gs : Script}
    (h : Shown (k + 1) .columnList (fun _ => columnList) 0 (fun ks => first ks = .symbol .leftParen)
      columns gs) :
    Tail k .joinConstraint joinConstraint 9 10 (.using columns)
      (.blank :: .keyword .USING :: .blank :: gs) where
  row := by rw [← h.row]; rfl
  legal := by simpa using h.legal
  leads := stops_blank (stops_cons rfl le_rfl)
  reads := by
    have hReads := h.reads.mono le_rfl (Nat.zero_le 10)
    rw [marks_columnList] at hReads
    refine Reads.blank (Reads.eatElse (fun _ _ hKind => nomatch hKind) (Reads.eatThen rfl ?_))
    refine hReads.blank.bindEnd fun y hy => Reads.pure ?_
    exact congrArg JoinConstraint.using hy
  detached := Script.detached_cons rfl

theorem tail_noConstraint : Tail k .joinConstraint joinConstraint 9 10 .none [] where
  row := rfl
  legal := Script.legal_nil
  leads := stops_nil (by decide)
  reads := by
    refine Reads.eatElse (leads_ne (by decide)) ?_
    exact Reads.eatElse (leads_ne (by decide)) (Reads.pure rfl)
  detached := Script.detached_nil

/-- The condition of a join is written as it is read. -/
theorem Known.joinConstraint (h : Known n) :
    FaithfulTail n k .joinConstraint joinConstraint 9 10 := by
  intro s hs
  refine After.eatIte (fun t rest hTokens _ => ?_) fun _ => ?_
  · refine After.bind (h.disjunction _ (hs.take hTokens)) fun x s' hx _ => .pure ?_
    exact hx.made (f := JoinConstraint.on) rfl rfl fun gs hgs => ⟨_, tail_on hgs⟩
  refine After.eatIte (fun t rest hTokens _ => ?_) fun _ => .pure fun _ => ?_
  · refine (After.columnList (hs.take hTokens)).bind ?_
    rintro columns s' ⟨-, hScope, gs, hShown⟩ -
    exact .pure fun _ => ⟨⟨_, tail_using hShown⟩, hScope.symm⟩
  · exact ⟨⟨_, tail_noConstraint⟩, .refl _⟩

/-! ## Sources -/

def Print.source : Print Source := ⟨Source.row, Source.nodes⟩

theorem shown_table {q : QualifiedName} {asName : Option String} (hq : IsQualified q)
    (h : Tail (k + 1) .asName (fun _ => asName?) 7 8 asName (asNameRow asName)) :
    Shown k .source source 8 (fun ks => first ks = wordKind (leadingName q)) (.table q asName)
      (q.row ++ asNameRow asName) where
  row := rfl
  legal := legal_qualifiedName hq h.legal h.detached
  leads more _ := by
    rw [List.append_assoc]
    exact first_qualifiedName q _
  reads := by
    have hParen : wordKind (leadingName q) ≠ .symbol .leftParen := by
      unfold wordKind
      split <;> simp
    refine Reads.eatElse (fun more _ => ?_) (Reads.qualifiedName hq (h.leads.imp ?_) ?_)
    · rw [List.append_assoc]
      exact fun hKind => hParen ((first_qualifiedName q _).symm.trans hKind)
    · intro ks hks hKind
      rw [hKind] at hks
      exact absurd hks (by decide)
    · refine h.reads.bindEnd fun o ho => Reads.pure ?_
      have hName : Option.map id asName = Option.map id o := ho
      simp_all [Like, Erasable.erase, Source.erase, Erasure.spans]

/-- What is read between parentheses, a query or a clause. -/
def sourceBetween (rules : Rules) (query : Bool) : Parse Source :=
  if query = true then do
    let query ← closed rules.select
    return .subquery query (← asName?)
  else .nested <$> closed rules.joinClause

theorem parenthesizedSource_eq : parenthesizedSource = fun rules =>
    (Parse.look fun s => isQueryStart s.current.kind) >>= sourceBetween rules := by
  funext rules
  refine bind_congr fun query => ?_
  cases query <;> rfl

theorem shown_querySource {query : Select} {asName : Option String} {gs hs : Script}
    {P : List TokenKind → Prop}
    (h : Shown (k + 1) Print.select.closed (fun rules => closed rules.select) 0 P query gs)
    (hQuery : ∀ ks, P ks → isQueryStart (first ks) = true)
    (h' : Tail (k + 1) .asName (fun _ => asName?) 7 8 asName hs) :
    Shown k .source source 8 (fun ks => first ks = .symbol .leftParen) (.subquery query asName)
      (.symbol .leftParen :: (gs ++ hs)) where
  row := by
    have hName : asNameRow asName = hs := h'.row
    rw [← h.row, ← hName]
    simp [Print.source, Source.row, Print.closed, Print.select]
  legal := (Script.legal_leftParen _).mpr (h.legal.append h'.legal h'.detached)
  leads _ _ := rfl
  reads := by
    have hStops : Stops 0 8 hs := fun _ _ => Nat.zero_le _
    refine Reads.eatThen rfl ?_
    simp only [parenthesizedSource_eq]
    refine Reads.lookKind (f := isQueryStart) (m := sourceBetween) true ?_ ?_
    · exact (h.leads.append hStops).imp hQuery
    · refine h.reads.bindLast hStops fun y hy => h'.reads.bindEnd fun o ho => Reads.pure ?_
      have hName : Option.map id asName = Option.map id o := ho
      simp_all [Like, Erasable.erase, Source.erase, Erasure.spans]

theorem shown_nestedSource {clause : JoinClause} {gs : Script} {P : List TokenKind → Prop}
    (h : Shown (k + 1) Print.joinClause.closed (fun rules => closed rules.joinClause) 0 P clause gs)
    (hQuery : ∀ ks, P ks → isQueryStart (first ks) = false) :
    Shown k .source source 8 (fun ks => first ks = .symbol .leftParen) (.nested clause)
      (.symbol .leftParen :: gs) where
  row := by rw [← h.row]; rfl
  legal := (Script.legal_leftParen _).mpr h.legal
  leads _ _ := rfl
  reads := by
    refine Reads.eatThen rfl ?_
    simp only [parenthesizedSource_eq]
    refine Reads.lookKind (f := isQueryStart) (m := sourceBetween) false ?_ ?_
    · exact (h.leads.mono (Nat.zero_le 8)).imp hQuery
    · exact (h.reads.mono le_rfl (Nat.zero_le 8)).map fun y hy => congrArg Source.nested hy

/-- A source is written as it is read. -/
theorem Known.source (h : Known n) : Faithful n k .source source 8 Starts := by
  intro s hs
  refine After.eatIte (fun t rest hTokens hKind => ?_) fun _ => ?_
  · have hTaken := (hs.take hTokens).mono (Nat.succ_le_succ (Nat.zero_le k))
    have hStart : Starts s = fun ks => first ks = .symbol .leftParen := by
      funext ks
      rw [Starts, State.current_cons hTokens, hKind]
    refine After.of_eq (congrFun parenthesizedSource_eq _) (After.look ?_)
    rw [hStart]
    cases hQuery : isQueryStart (s.take t rest).current.kind with
    | true =>
      refine After.bind (h.select.closed le_rfl _ hTaken) fun query s₁ hInner hMoves => ?_
      have hRoom := (hs.take hTokens).moves hMoves
      refine (faithful_asName s₁ hRoom).bind fun asName s₂ hName _ => .pure fun hOkay => ?_
      obtain ⟨⟨gs, hShown⟩, hFollows⟩ := hInner hOkay
      obtain ⟨⟨hs', hTail⟩, hFollows'⟩ := hName nofun
      refine ⟨⟨_, shown_querySource (hShown.mono (by omega) le_rfl) (fun ks hks => ?_) hTail⟩, ?_⟩
      · rw [hks, hQuery]
      · exact (show Follows s.scope (Print.select.marks query) s₁.scope from hFollows).trans_eq
          hFollows'
    | false =>
      refine After.imp (After.made (h.joinClause.closed (by decide) _ hTaken)) ?_
      rintro _ s₁ ⟨clause, rfl, hInner⟩
      refine hInner.made (f := Source.nested) rfl rfl fun gs hgs => ?_
      refine ⟨_, shown_nestedSource (hgs.mono (by omega) le_rfl) fun ks hks => ?_⟩
      rw [hks, hQuery]
  · refine After.qualifiedName hs fun q s₁ hq hScope hs₁ hKind => ?_
    refine (faithful_asName s₁ hs₁).bind fun asName s₂ hName _ => .pure fun _ => ?_
    obtain ⟨⟨gs, hTail⟩, hFollows⟩ := hName nofun
    obtain rfl := hTail.row
    refine ⟨⟨_, (shown_table hq hTail).imp fun ks hks => hks.trans hKind.symm⟩, ?_⟩
    exact hScope ▸ hFollows

/-! ## Joined sources -/

/-- A joined source with its operator in front of it. -/
def Print.joined : Print JoinedSource where
  row j := j.operator.row ++ (.blank :: (j.source.row ++ j.constraint.row))
  nodes j := j.source.nodes ++ j.constraint.nodes

/-- What is read of a joined source behind its operator. -/
def joinedBehind (rules : Rules) (operator : JoinOperator) : Parse JoinedSource :=
  (fun x => ⟨operator, x.1, x.2⟩) <$> both (source rules) (joinConstraint rules)

theorem detached_join {o : JoinOperator} (gs : Script) : Script.Detached (o.row ++ gs) := by
  unfold JoinOperator.row
  split <;> exact Script.detached_cons rfl

theorem legal_join (o : JoinOperator) {gs : Script} (h : Script.Legal gs) :
    Script.Legal (o.row ++ .blank :: gs) := by
  refine (Script.legal_append_blank _ _).mpr ⟨?_, h⟩
  obtain ⟨natural, kind, outer⟩ := o
  cases kind <;> cases natural <;> cases outer <;>
    simp [JoinOperator.row, JoinKind.row, optionalWord]

theorem stops_join {o : JoinOperator} (ho : IsJoin o) (gs : Script) :
    Stops 10 10 (o.row ++ gs) := by
  obtain ⟨natural, kind, outer⟩ := o
  by_cases hComma : kind = .comma
  · subst hComma
    exact stops_cons rfl le_rfl
  rw [row_join hComma]
  refine stops_blank ?_
  cases natural with
  | true => exact stops_cons rfl le_rfl
  | false =>
    rcases joinWord?_cases hComma with rfl | ⟨word, hWord⟩
    · obtain rfl := outer_plain ho
      exact stops_cons rfl le_rfl
    · rw [row_of_word hWord]
      refine stops_cons rfl ?_
      cases kind <;> cases hWord <;> decide

theorem joinedSource_eq : joinedSource = fun rules start =>
    joinOperator start >>= joinedBehind rules := rfl

theorem tail_joined {j : JoinedSource} (ho : IsJoin j.operator) {gs : Script}
    {P : List TokenKind → Prop}
    (h : Shown (k + 1) (Print.source.pair .joinConstraint)
      (fun rules => both (source rules) (joinConstraint rules)) 10 P (j.source, j.constraint) gs) :
    Tail k Print.joined.option (fun rules => entry joinStart? (joinedSource rules)) 10 10 (some j)
      (j.operator.row ++ .blank :: gs) where
  row := by rw [← h.row]; rfl
  legal := legal_join j.operator h.legal
  leads := stops_join ho _
  reads := by
    rw [joinedSource_eq]
    have hBehind := h.reads.blank.map (f := fun x => JoinedSource.mk j.operator x.1 x.2)
      (R := Like .spans j) fun x hx => ?_
    · refine (Reads.join (m := joinedBehind) ho hBehind).imp ?_
      rintro _ ⟨a, rfl, ha⟩
      exact Like.some ha
    · obtain ⟨hSource, hConstraint⟩ := Prod.mk.inj hx
      exact congrArg₂ (JoinedSource.mk j.operator) hSource hConstraint
  detached := detached_join _

/-- A joined source is written as it is read. -/
theorem Known.joinedSource (h : Known n) :
    FaithfulEntry n k .joined joinStart? joinedSource 10 := by
  intro s hs
  refine After.take (fun t rest start hTokens hStart => ?_) fun _ => .pure nofun
  have hTaken := hs.take hTokens
  rw [joinedSource_eq]
  refine After.map (After.bind (After.joinOperator hStart) ?_)
  rintro o s₁ ⟨ho, hScope⟩ hMoves
  have hSource : Faithful n (k + 1) .source Grammar.source 9 Starts :=
    h.source.mono le_rfl (by decide)
  have hPair := hSource.pair h.joinConstraint
  refine After.imp (After.made (hPair _ (hTaken.moves hMoves))) ?_
  rintro _ s₂ ⟨⟨right, constraint⟩, rfl, hInner⟩ x hx
  obtain rfl := Option.some.inj hx
  exact hInner.made (q := Print.joined.option) (f := fun x => some ⟨o, x.1, x.2⟩) hScope rfl
    fun gs hgs => ⟨_, tail_joined (j := ⟨o, right, constraint⟩) ho hgs⟩

theorem joinStart?_none (t : Token) (h : 11 ≤ closes t.kind) : joinStart? t = none := by
  have hKind : joinKind? t = none := by
    unfold joinKind?
    split
    all_goals first | rfl | next hFound => exact absurd h (by rw [hFound]; decide)
  unfold joinStart?
  rw [hKind]
  split
  all_goals first | rfl | next hFound => exact absurd h (by rw [hFound]; decide)

theorem folds_joinClause : Folds Print.source Print.joined Print.joinClause .single
    fun left j => .join left j.operator j.source j.constraint := by
  refine ⟨fun _ => rfl, fun _ => rfl, fun a j => ?_, fun _ _ => rfl,
    fun x y => congrArg JoinClause.single, fun a b x y hab hxy => ?_⟩
  · simp [Print.joinClause, JoinClause.row, Print.joined]
  · simp_all [Like, Erasable.erase, JoinClause.erase, JoinedSource.erase]

/-- Sources with joins between them are written as they are read. -/
theorem Known.clause (h : Known n) : Faithful n k .joinClause Grammar.joinClause 11 Starts := by
  have hChain := h.joinedSource.chain (k := k) (by decide : 10 ≤ 11) joinStart?_none
  exact ((h.source.mono le_rfl (by decide : 8 ≤ 10)).pair hChain).map folds_joinClause.prints

end SqlKit.Grammar
