import SqlKit.Proofs.Rendering.KeptTerms
import SqlKit.Proofs.Rendering.Select

/-!
# Expressions keep their tokens

The layers of an expression above its terms, and the knot: every expression is written with all the
tokens that it was read from (`keeps`).
-/

namespace SqlKit.Grammar

open Parse

variable {n k : Nat} {s s' : State} {t : Token} {rest : List Token}

/-! ## Operands -/

theorem mulOp?_kind {o : MulOp} (h : mulOp? t = some o) : t.kind = .symbol o.symbol := by
  unfold mulOp? at h
  split at h <;> cases h <;> assumption

theorem addOp?_kind {o : AddOp} (h : addOp? t = some o) : t.kind = .symbol o.symbol := by
  unfold addOp? at h
  split at h <;> cases h <;> assumption

theorem Keeps.product (h : Keeps n) : Accounted n k .product product (.before []) := by
  refine h.term.layer mulOperators (fun t o hAccept => ?_) folds_product
  rw [mulOp?_kind hAccept]
  cases o <;> rfl

theorem Keeps.sum (h : Keeps n) : Accounted n k .sum sum (.before []) := by
  refine h.product.layer addOperators (fun t o hAccept => ?_) folds_sum
  rw [addOp?_kind hAccept]
  cases o <;> rfl

theorem Keeps.operand (h : Keeps n) : Accounted n k .operand operand (.before []) := by
  refine h.sum.layer concatOperators (fun t o hAccept => ?_) folds_operand
  rw [kind_of_accept hAccept]
  rfl

/-! ## Tests -/

/-- The place behind the operand of a predicate and its `NOT`. -/
def placeOfPredicate (negated : Bool) : Place := if negated then .before [] else .behind

theorem step_predicate (negated : Bool) {word : Keyword}
    (hWord : isPredicateWord (.keyword word) = true) :
    (placeOfPredicate negated).step (.keyword word) = ([.keyword word], .before []) := by
  cases negated <;> cases word <;> first | rfl | cases hWord

theorem compareOp?_kind {o : CompareOp} (h : compareOp? t = some o) :
    t.kind = .symbol o.symbol := by
  unfold compareOp? at h
  split at h <;> cases h <;> assumption

theorem Keeps.bounds (h : Keeps n) : Accounted n k .bounds bounds (.before []) :=
  h.operand.pair (h.operand.behindWord .AND rfl)

theorem Keeps.pattern (h : Keeps n) : Accounted n k .pattern
    (fun rules => both (Grammar.operand rules) (after .ESCAPE (Grammar.operand rules)))
      (.before []) :=
  h.operand.pair (h.operand.after .ESCAPE rfl)

/-- The members behind `IN` keep their tokens. -/
theorem Keeps.members (h : Keeps n) (hs : Fair n 1 s) :
    AccountedAt .members (members (.upTo n)) (.before []) s := by
  refine After.look ?_
  rw [hs.no_query]
  refine After.look ?_
  cases hEmpty : (s.current.kind == .symbol .rightParen) with
  | true =>
    refine After.expect (f := fun _ => Pure.pure (Members.list [])) fun t rest hTokens hKind => ?_
    refine .pure ⟨fun node hNode => by (cases hNode), ?_⟩
    exact Accounts.cons hTokens hKind rfl (Accounts.refl _ _)
  | false =>
    refine After.bind (After.made (h.separated _ hs)) ?_
    rintro _ s₁ ⟨values, rfl, hOkay, hInner⟩ -
    refine After.expect fun t rest hTokens hKind => .pure ⟨hOkay, ?_⟩
    have hRow : Script.kinds (Print.members.row (.list values)) =
        Script.kinds (Print.expr.commas.row values) ++ [.symbol .rightParen] := by
      simp [Print.members, Glyph.kinds]
    rw [hRow]
    exact hInner.concat hTokens hKind rfl

/-- A test was read behind some kinds, and keeps its tokens. -/
def KeptTest (before : List TokenKind) (p : Place) (test : Test) (s s' : State) : Prop :=
  Print.test.Okay test ∧ ∃ ks, Script.kinds (Print.test.row test) = before ++ ks ∧
    Accounts s s' p .behind ks

/-- What stands behind `IS` keeps its tokens. -/
theorem Keeps.sameness (h : Keeps n) (hs : Fair n k s) :
    After (sameness (.upTo n)) s (KeptTest [.keyword .IS] (.before []) · s ·) := by
  have hBehind : ∀ (negated : Bool) (s₀ : State), Fair n k s₀ →
      Accounts s s₀ (.before []) (.before []) (Script.kinds (optionalWord negated .NOT)) →
      After (samenessBehind (.upTo n) negated) s₀ (KeptTest [.keyword .IS] (.before []) · s ·) := by
    intro negated s₀ hs₀ hNot
    refine After.eatIte (fun t rest hTokens hKind => .pure ?_) fun _ => ?_
    · refine ⟨fun node hNode => by (cases hNode), _, ?_, hNot.concat hTokens hKind rfl⟩
      simp [Print.test, Test.front, Glyph.kinds]
    · refine After.imp (After.made (h.operand _ hs₀)) ?_
      rintro _ s' ⟨right, rfl, hOkay, hRight⟩
      refine ⟨hOkay, _, ?_, hNot.trans hRight⟩
      simp [Print.test, Test.front, Glyph.kinds, Print.operand]
  refine After.eat (f := samenessBehind (.upTo n)) (fun t rest hTokens hKind => ?_) fun _ => ?_
  · refine hBehind true _ ((hs.take hTokens).mono (Nat.le_succ k)) ?_
    exact Accounts.cons hTokens hKind rfl (Accounts.refl _ _)
  · exact hBehind false s hs (Accounts.refl _ _)

/-- A predicate keeps its tokens, if its word is there behind a `NOT`. -/
theorem Keeps.predicate (h : Keeps n) (hs : Fair n k s) (negated : Bool)
    (hWord : negated = true → isPredicateWord s.current.kind = true) :
    After (predicate (.upTo n) negated) s
      (KeptTest (Script.kinds (optionalWord negated .NOT)) (placeOfPredicate negated) · s ·) := by
  have hStep :
    ∀ {word : Keyword} {s' : State} {ks : List TokenKind} {t : Token} {rest : List Token},
      s.tokens = t :: rest → t.kind = .keyword word → isPredicateWord (.keyword word) = true →
      Accounts (s.take t rest) s' (.before []) .behind ks →
      Accounts s s' (placeOfPredicate negated) .behind (.keyword word :: ks) :=
    fun hTokens hKind hWord hRest =>
      Accounts.cons hTokens hKind (step_predicate negated hWord) hRest
  refine After.eatIte (fun t rest hTokens hKind => ?_) fun hBetween => ?_
  · refine After.imp (After.made (h.bounds _ (hs.take hTokens))) ?_
    rintro _ s' ⟨x, rfl, hOkay, hInner⟩
    refine ⟨hOkay, _, ?_, hStep hTokens hKind rfl hInner⟩
    simp [Print.test, Test.front, Glyph.kinds]
  refine After.eatIte (fun t rest hTokens hKind => ?_) fun hIn => ?_
  · refine After.expect fun u rest' hTokens' hKind' => ?_
    have hTaken := ((hs.take hTokens).take hTokens').mono (by omega : 1 ≤ k + 1 + 1)
    refine After.imp (After.made (h.members hTaken)) ?_
    rintro _ s' ⟨x, rfl, hOkay, hInner⟩
    refine ⟨hOkay, _, ?_, hStep hTokens hKind rfl (Accounts.cons hTokens' hKind' rfl hInner)⟩
    simp [Print.test, Test.front, Glyph.kinds]
  refine After.eatIte (fun t rest hTokens hKind => ?_) fun hLike => ?_
  · refine After.imp (After.made (h.pattern _ (hs.take hTokens))) ?_
    rintro _ s' ⟨x, rfl, hOkay, hInner⟩
    refine ⟨hOkay, _, ?_, hStep hTokens hKind rfl hInner⟩
    simp [Print.test, Test.front, Glyph.kinds]
  refine After.eatIte (fun t rest hTokens hKind => ?_) fun hRegexp => ?_
  · refine After.imp (After.made (h.operand _ (hs.take hTokens))) ?_
    rintro _ s' ⟨x, rfl, hOkay, hInner⟩
    refine ⟨hOkay, _, ?_, hStep hTokens hKind rfl hInner⟩
    simp [Print.test, Test.front, Glyph.kinds, Print.operand]
  · cases negated with
    | false =>
      exact .pure ⟨fun node hNode => by (cases hNode), [], rfl, Accounts.refl _ _⟩
    | true =>
      have hCurrent := hWord rfl
      have hNone : isPredicateWord s.current.kind = false := by
        have hOther : ∀ word, (∀ t rest, s.tokens = t :: rest → t.kind ≠ .keyword word) →
            s.current.kind ≠ .keyword word :=
          fun word hNot => hs.current_ne hNot (by simp) (by simp)
        unfold isPredicateWord
        split
        · next hKind => exact absurd hKind (hOther _ hBetween)
        · next hKind => exact absurd hKind (hOther _ hIn)
        · next hKind => exact absurd hKind (hOther _ hLike)
        · next hKind => exact absurd hKind (hOther _ hRegexp)
        · rfl
      cases hNone.symm.trans hCurrent

/-- A `NOT` is only taken in front of the word of a predicate. -/
theorem After.predicateNot_word {α : Type} {f : Bool → Parse α} {Q : α → State → Prop}
    (hs : Fair n k s)
    (hTrue : ∀ t rest, s.tokens = t :: rest → t.kind = .keyword .NOT →
      isPredicateWord (s.take t rest).current.kind = true → After (f true) (s.take t rest) Q)
    (hFalse : After (f false) s Q) : After (Grammar.predicateNot >>= f) s Q := by
  simp only [predicateNot_eq, bind_assoc]
  refine After.look (After.look ?_)
  unfold takeNot
  split
  · next hSees =>
    obtain ⟨hNot, hNext⟩ := Bool.and_eq_true_iff.mp hSees
    have hKind : s.current.kind = .keyword .NOT := beq_iff_eq.mp hNot
    obtain ⟨t, rest, hTokens, hCurrent⟩ := hs.exists_token (by simp [hKind]) (by simp [hKind])
    refine After.advance (f := fun _ => f true) hTokens (hTrue t rest hTokens (hCurrent ▸ hKind) ?_)
    cases rest with
    | nil => simp [State.kindAt, hTokens, isPredicateWord] at hNext
    | cons u rest => simpa [State.kindAt, hTokens, State.current, State.take] using hNext
  · exact hFalse

/-- What a condition says of its operand keeps its tokens. -/
theorem Keeps.tests (h : Keeps n) : Accounted n k .test tests .behind := by
  intro s hs
  refine After.take (fun t rest o hTokens hAccept => ?_) fun _ => ?_
  · refine After.imp (After.made (h.operand _ (hs.take hTokens))) ?_
    rintro _ s' ⟨right, rfl, hOkay, hRight⟩
    have hRow : Script.kinds (Print.test.row (.comparison o right)) =
        .symbol o.symbol :: Script.kinds (Print.operand.row right) := by
      simp [Print.test, Test.front, Glyph.kinds, Print.operand]
    have hStep : Place.behind.step (.symbol o.symbol) = ([.symbol o.symbol], .before []) := by
      cases o <;> rfl
    rw [hRow]
    exact ⟨hOkay, Accounts.cons hTokens (compareOp?_kind hAccept) hStep hRight⟩
  refine After.eatIte (fun t rest hTokens hKind => ?_) fun _ => ?_
  · refine After.imp (h.sameness (hs.take hTokens)) ?_
    rintro x s' ⟨hOkay, ks, hRow, hRest⟩
    rw [hRow]
    exact ⟨hOkay, Accounts.cons hTokens hKind rfl hRest⟩
  refine After.predicateNot_word hs (fun t rest hTokens hKind hWord => ?_) ?_
  · have hTaken := (hs.take hTokens).mono (Nat.le_succ k)
    refine After.imp (h.predicate hTaken true fun _ => hWord) ?_
    rintro x s' ⟨hOkay, ks, hRow, hRest⟩
    rw [hRow]
    exact ⟨hOkay, Accounts.cons hTokens hKind rfl hRest⟩
  · refine After.imp (h.predicate hs false fun hFalse => by (cases hFalse)) ?_
    rintro x s' ⟨hOkay, ks, hRow, hRest⟩
    rw [hRow]
    exact ⟨hOkay, hRest⟩

/-! ## Conditions -/

/-- A query starts with its first word. -/
theorem After.query_start (rules : Rules) (s : State) :
    After (Grammar.select rules) s fun _ _ => isQueryStart s.current.kind = true := by
  have hWord : ∀ {t rest word}, s.tokens = t :: rest → t.kind = .keyword word →
      isQueryStart (.keyword word) = true → isQueryStart s.current.kind = true := by
    intro t rest word hTokens hKind hStart
    rw [State.current_cons hTokens, hKind, hStart]
  have hBody : After (Grammar.body rules) s fun _ _ => isQueryStart s.current.kind = true := by
    rw [body_eq]
    refine After.eatIte (fun t rest hTokens hKind _ => hWord hTokens hKind rfl) fun _ => ?_
    exact After.expectKeyword fun t rest hTokens hKind _ => hWord hTokens hKind rfl
  have hParts : After (queryParts rules) s fun _ _ => isQueryStart s.current.kind = true := by
    refine After.bind (P := fun _ _ => isQueryStart s.current.kind = true) ?_ fun _ _ h _ _ => h
    refine After.bind (P := fun _ _ => isQueryStart s.current.kind = true) ?_ fun _ _ h _ _ => h
    exact After.bind hBody fun _ _ h _ _ => h
  rw [select_eq]
  refine After.spanned ?_
  refine After.eat (f := fun c => withTables rules c >>= selectBehind rules)
    (fun t rest hTokens hKind _ _ => hWord hTokens hKind rfl) fun _ => ?_
  exact fun hError _ => hParts hError

/-- There is no query in an expression without the words that queries start with. -/
theorem Fair.no_select (hs : Fair n 1 s) : After (Rules.upTo n).select s fun _ _ => False := by
  have hLength := hs.length
  obtain ⟨m, rfl⟩ := Nat.exists_eq_succ_of_ne_zero (by omega : n ≠ 0)
  refine After.imp (After.query_start (.upTo m) s) fun _ _ hStart => ?_
  rw [hs.no_query] at hStart
  cases hStart

theorem Keeps.plainCondition (h : Keeps n) :
    Accounted n k .condition plainCondition (.before []) := by
  have hTested := (h.operand.pair (k := k) h.tests).map prints_condition
  intro s hs
  refine After.eatIte (fun t rest hTokens _ => ?_) fun _ => ?_
  · refine After.expect fun u rest' hTokens' _ => ?_
    have hTaken := ((hs.take hTokens).take hTokens').mono (by omega : 1 ≤ k + 1 + 1)
    exact hTaken.no_select.bind fun _ _ hFalse => hFalse.elim
  · have hRun := hTested s hs
    simp only [test_eq]
    exact hRun

/-- The words in front of a condition that is negated are written as they are read. -/
theorem scan_negations (negations : List Unit) :
    scan (.before []) (negations.map fun _ => .keyword .NOT) =
      (Script.kinds (negateRow negations), .before []) := by
  induction negations with
  | nil => rfl
  | cons _ negations ih =>
    have hStep : (Place.before []).step (.keyword .NOT) = ([.keyword .NOT], .before []) := rfl
    rw [List.map_cons, scan, hStep, ih]
    rfl

theorem Keeps.condition (h : Keeps n) : Accounted n k .condition condition (.before []) := by
  intro s hs
  refine After.bind (After.taken leaders_not hs) ?_
  rintro negations s₁ ⟨-, ts, hTokens, hKinds⟩ hMoves
  refine After.imp (After.made (f := negate negations) (h.plainCondition s₁ (hs.moves hMoves))) ?_
  rintro _ s₂ ⟨x, rfl, hOkay, hInner⟩
  have hLead : Accounts s s₁ (.before []) (.before []) (Script.kinds (negateRow negations)) := by
    refine ⟨ts, hTokens, ?_⟩
    rw [hKinds]
    exact scan_negations negations
  have hNodes : Print.condition.nodes (negate negations x) = x.nodes := nodes_negate
  have hRow : Print.condition.row (negate negations x) = negateRow negations ++ x.row := row_negate
  rw [Print.Okay, hNodes, hRow, Script.kinds_append]
  exact ⟨hOkay, hLead.trans hInner⟩

/-! ## Expressions -/

theorem Keeps.conjunction (h : Keeps n) : Accounted n k .conjunction conjunction (.before []) := by
  refine h.condition.layer andOperators (fun t o hAccept => ?_) folds_conjunction
  unfold andSign? at hAccept
  split at hAccept
  · next hKind => rw [hKind]; rfl
  · next hKind => rw [hKind]; rfl
  · cases hAccept

theorem Keeps.disjunction (h : Keeps n) : Accounted n k .expr Grammar.expr (.before []) := by
  refine h.conjunction.layer orOperators (fun t o hAccept => ?_) folds_expr
  rw [kind_of_accept hAccept]
  rfl

/-- **Every expression keeps its tokens**, at every depth of the grammar. -/
theorem keeps (n : Nat) : Keeps n := by
  induction n with
  | zero =>
    intro s hs
    have hLength := hs.length
    omega
  | succ n ih =>
    intro s hs
    have hRoom : Room n 0 s := ⟨Nat.le_of_succ_le_succ hs.length, hs.bare, hs.terminator⟩
    exact ih.disjunction s ⟨hRoom, hs.plain⟩

end SqlKit.Grammar
