import SqlKit.Proofs.Simulation.Basic

/-!
# Like texts read as expressions

The readers of expressions keep every simulation. Each proof follows the reader: what is taken is
alike on both sides, and so is what is made of it.
-/

namespace SqlKit.Grammar

open Grammar.Similar

variable {e : Erasure} {S : Simulation e}

/-- The readers that the grammar comes back to keep the relation of states. -/
structure Rules.Keep (S : Simulation e) (rules : Rules) : Prop where
  expr : Similar S (Like e) rules.expr rules.expr
  select : Similar S (Like e) rules.select rules.select
  joinClause : Similar S (Like e) rules.joinClause rules.joinClause

/-! ## Lists of like things -/

theorem like_foldl {α β : Type} [Erasable α] [Erasable β] {f : α → β → α} {a b : α}
    {xs ys : List β} (hf : ∀ a b x y, Like e a b → Like e x y → Like e (f a x) (f b y))
    (h : Like e a b) (h' : Like e xs ys) : Like e (xs.foldl f a) (ys.foldl f b) := by
  induction xs generalizing a b ys with
  | nil =>
    cases ys with
    | nil => exact h
    | cons y ys => cases h'
  | cons x xs ih =>
    cases ys with
    | nil => cases h'
    | cons y ys =>
      obtain ⟨hHead, hTail⟩ := List.cons_eq_cons.mp h'
      simp only [List.foldl_cons]
      exact ih (hf _ _ _ _ h hHead) hTail

theorem like_intercalate (S : Simulation e) (separator : String) {xs ys : List String}
    (h : Like e xs ys) : Like e (separator.intercalate xs) (separator.intercalate ys) := by
  induction xs generalizing ys with
  | nil =>
    cases ys with
    | nil => rfl
    | cons y ys => cases h
  | cons x xs ih =>
    cases ys with
    | nil => cases h
    | cons y ys =>
      obtain ⟨hHead, hTail⟩ := List.cons_eq_cons.mp h
      cases xs with
      | nil =>
        cases ys with
        | nil =>
          rw [String.intercalate_singleton, String.intercalate_singleton]
          exact hHead
        | cons _ _ => cases hTail
      | cons x' xs =>
        cases ys with
        | nil => cases hTail
        | cons y' ys =>
          rw [String.intercalate_cons_cons, String.intercalate_cons_cons]
          exact S.append (S.append hHead rfl) (ih hTail)

/-! ## Types -/

theorem byKind_unsigned? : Token.ByKind unsigned? := ⟨fun _ => rfl, fun _ _ => rfl, rfl, rfl⟩

theorem secondWord?_alike (S : Simulation e) {first first' : String} {a b : Token}
    (hFirst : Like e first first') (h : Token.Alike e a b) :
    Option.Rel (Like e) (secondWord? first a) (secondWord? first' b) := by
  unfold secondWord?
  rcases TokenKind.cases_of_form_eq h.kind with ⟨m, n, hm, hn, hNames⟩ | ⟨ha, hb⟩ | hKind
  · have hFolded : m.folded = n.folded := by
      rcases hNames with rfl | ⟨hm, hn, hText⟩
      · rfl
      · simpa [Identifier.folded, hm, hn] using S.lower hText
    rw [hm, hn]
    dsimp only
    rw [S.lower hFirst, hFolded]
    split
    · exact .some h.text
    · exact .none
  · rcases ha with ha | ha <;> rcases hb with hb | hb <;> rw [ha, hb] <;> exact .none
  · rw [hKind, S.lower hFirst]
    split
    · split
      · exact .some h.text
      · exact .none
    · exact .none

theorem secondWord?_of_isEnd {first : String} {a : Token} (h : a.kind.IsEnd) :
    secondWord? first a = none := by
  rcases h with h | h <;> rw [secondWord?, h]

theorem similar_typeArguments {m n : String} (h : Like e m n) :
    Similar S (Like e) (typeArguments m) (typeArguments n) := by
  unfold typeArguments SqlType.ofName
  rw [S.lower h]
  split
  · refine (eat (by simp)).ite ?_ (pure ?_)
    · refine (askFor byKind_unsigned?).bind ?_
      rintro length _ rfl
      refine (eat (by simp)).iteBind (R := Eq)
        ((askFor byKind_unsigned?).map fun _ _ => congrArg some) (pure rfl) ?_
      rintro scale _ rfl
      refine (expect (by simp)).bind fun _ _ _ => pure ?_
      simp_all [Like, Erasable.erase, ColumnType.erase]
    · simp_all [Like, Erasable.erase, ColumnType.erase]
  · refine pure ?_
    simp_all [Like, Erasable.erase, ColumnType.erase]

theorem similar_columnType : Similar S (Like e) columnType columnType := by
  rw [columnType_eq]
  refine (name .type).bind fun first first' hFirst => (take?
    (fun a b h => secondWord?_alike S hFirst h) fun _ => secondWord?_of_isEnd).bind
    fun second second' hSecond => similar_typeArguments ?_
  cases hSecond with
  | none => exact hFirst
  | some hWord => exact S.append (S.append hFirst rfl) hWord

/-! ## Terms -/

theorem similar_startsQuery : Similar S Eq startsQuery startsQuery :=
  look fun hs => TokenKind.form_elim (S.kind hs) (fun _ _ => rfl) rfl rfl fun _ => rfl

theorem similar_literal : Similar S Eq (Parse.take? literalOf?) (Parse.take? literalOf?) :=
  takeKind ⟨fun _ => rfl, fun _ _ => rfl, rfl, rfl⟩

theorem unsigned?_eq_none {t : Token} (h : ∀ n, t.kind ≠ .integer n) : unsigned? t = none := by
  unfold unsigned?
  split
  · next n hKind => exact absurd hKind (h n)
  · rfl

/-- What is behind readers that keep the relation at two states. -/
theorem bind_run {α β γ δ : Type} {R : α → β → Prop} {Q : γ → δ → Prop} {m : Parse α} {n : Parse β}
    {f : α → Parse γ} {g : β → Parse δ} {s t : State}
    (h : R (m.run s).1 (n.run t).1 ∧ S.state (m.run s).2 (n.run t).2)
    (hf : ∀ a b, R a b → Similar S Q (f a) (g b)) :
    Q ((m >>= f).run s).1 ((n >>= g).run t).1 ∧ S.state ((m >>= f).run s).2 ((n >>= g).run t).2 :=
  hf _ _ h.1 h.2

/-- Taking a token that is accepted on both sides for the same reason. -/
theorem take?_of_accept {α : Type} {accept accept' : Token → Option α} {s t : State}
    (h : S.state s t)
    (hAccept : ∀ a as b bs, s.tokens = a :: as → t.tokens = b :: bs → Token.Alike e a b →
      accept a = accept' b)
    (hEnd : ∀ a, a.kind.IsEnd → accept a = none ∧ accept' a = none) :
    ((Parse.take? accept).run s).1 = ((Parse.take? accept').run t).1 ∧
      S.state ((Parse.take? accept).run s).2 ((Parse.take? accept').run t).2 := by
  by_cases hNext : s.current.kind.IsEnd
  · rw [run_take?_end (fun a ha => (hEnd a ha).1) hNext,
      run_take?_end (fun a ha => (hEnd a ha).2) (S.ends h hNext)]
    exact ⟨rfl, h⟩
  · obtain ⟨a, as, b, bs, hs, ht, hAlike, hTake⟩ := S.cons h hNext
    have hSame := hAccept a as b bs hs ht hAlike
    cases hNone : accept a with
    | none =>
      rw [Parse.run_take?_none hs hNone, Parse.run_take?_none ht (hSame ▸ hNone)]
      exact ⟨rfl, h⟩
    | some x =>
      rw [Parse.run_take?_some hs hNone, Parse.run_take?_some ht (hSame ▸ hNone)]
      exact ⟨rfl, hTake⟩

/-- A number that touches a question mark is taken on both sides or on neither. -/
theorem similar_placeholder {s t : State} (h : S.state s t)
    (hKind : s.current.kind = .symbol .question) :
    Like e (placeholder.run s).1 (placeholder.run t).1 ∧
      S.state (placeholder.run s).2 (placeholder.run t).2 := by
  obtain ⟨a, as, b, bs, hs, ht, hAlike, hNext⟩ :=
    S.cons h (by simp [hKind, TokenKind.IsEnd])
  rw [State.current_cons hs] at hKind
  rw [placeholder_eq]
  simp only [Parse.run_bind, Parse.current, Parse.run_look, State.current_cons hs,
    State.current_cons ht]
  rw [Parse.run_advance_cons hs, Parse.run_advance_cons ht]
  unfold placeholderBehind
  refine bind_run (R := Eq) (take?_of_accept hNext ?_ fun c hc => ?_) ?_
  · intro c cs d ds hc hd hAlike'
    by_cases hInteger : ∃ n, c.kind = .integer n
    · obtain ⟨n, hInteger⟩ := hInteger
      have hTouches := S.touches h (hs.trans (congrArg _ hc)) (ht.trans (congrArg _ hd)) hKind
        hInteger
      simp only [hTouches, byKind_unsigned?.congr hAlike'.kind]
    · have hNone := unsigned?_eq_none (not_exists.mp hInteger)
      have hNone' := byKind_unsigned?.congr hAlike'.kind ▸ hNone
      simp only [hNone, hNone', ite_self]
  · simp only [byKind_unsigned?.of_isEnd hc, ite_self, and_self]
  · rintro number _ rfl
    refine nextPlaceholder.bind ?_
    rintro position _ rfl
    exact pure rfl

theorem similar_writtenType : Similar S (Like e) writtenType writtenType :=
  (eat (by simp)).ite ((name .type).bind fun _ _ hFirst => (dottedRest .type).bind fun _ _ hRest =>
    pure (.some (like_intercalate S "." (hFirst.cons hRest)))) (pure rfl)

/-- What is made of the declaration at the start of the tokens, or of a parameter without a type. An
error in place of its name would be noted before. -/
theorem similar_resolve {s t u v : State} {a b : Token} {as bs : List Token} {m n : String}
    {type? type?' : Option String} (h : S.state s t) (hs : s.tokens = a :: as)
    (ht : t.tokens = b :: bs) (hKind : a.kind = .symbol .atSign) (hName : Like e m n)
    (hType : Like e type? type?')
    (hAttempt :
    ∀ T, type? = some T → ∃ x, attemptAt? s.tokens = some x ∧ x.typeName = T ∧ x.name = m)
    (hAttempt' : ∀ T, type?' = some T →
      ∃ x, attemptAt? t.tokens = some x ∧ x.typeName = T ∧ x.name = n)
    (hNamed : u.error = none → ∃ c, as.head? = some c ∧ nameOf? c = some m) (hState : S.state u v) :
    Like e ((resolve a.span m type?).run u).1 ((resolve b.span n type?').run v).1 ∧
      S.state ((resolve a.span m type?).run u).2 ((resolve b.span n type?').run v).2 := by
  have hSpan : Similar S (Like e) (Parse.spanFrom a.span) (Parse.spanFrom b.span) := by
    have := spanFrom h
    rwa [State.current_cons hs, State.current_cons ht] at this
  cases type? with
  | some T =>
    cases type?' with
    | none => cases hType
    | some T' =>
      obtain ⟨x, hx, rfl, rfl⟩ := hAttempt T rfl
      obtain ⟨y, hy, rfl, rfl⟩ := hAttempt' T' rfl
      have hType := Option.some.inj hType
      refine (declare h hx hy hName hType).bind (fun _ _ _ => hSpan.bind fun u v hSpan => pure ?_)
        hState
      simp_all [Like, Erasable.erase, Term.erase, NamedParameter.erase]
  | none =>
    cases type?' with
    | some T' => cases hType
    | none =>
      have hLookup := S.lookup n.toLower hState
      simp only [resolve, Parse.run_bind, Parse.declaredType?, Parse.run_look, S.lower hName]
      cases hx : u.bindings.lookup n.toLower with
      | some T =>
        rw [hx] at hLookup
        cases hy : v.bindings.lookup n.toLower with
        | none => rw [hy] at hLookup; cases hLookup
        | some T' =>
          rw [hy] at hLookup
          have hType := Option.some.inj hLookup
          refine hSpan.bind (fun u v hSpan => pure ?_) hState
          simp_all [Like, Erasable.erase, Term.erase, NamedParameter.erase]
      | none =>
        rw [hx] at hLookup
        cases hy : v.bindings.lookup n.toLower with
        | some T' => rw [hy] at hLookup; cases hLookup
        | none =>
          have hNoted := S.untyped h hs ht hKind hNamed hState hName
          obtain ⟨hPlace, hAfter⟩ := hSpan hNoted
          refine ⟨?_, hAfter⟩
          show Term.parameter ⟨e.name m, e.name "", false, e.span _⟩ =
            Term.parameter ⟨e.name n, e.name "", false, e.span _⟩
          rw [show e.name m = e.name n from hName]
          exact congrArg (fun place => Term.parameter ⟨e.name n, e.name "", false, place⟩) hPlace

theorem similar_namedParameter {s t : State} (h : S.state s t)
    (hKind : s.current.kind = .symbol .atSign) :
    Like e (namedParameter.run s).1 (namedParameter.run t).1 ∧
      S.state (namedParameter.run s).2 (namedParameter.run t).2 := by
  obtain ⟨a, as, b, bs, hs, ht, hAlike, hNext⟩ :=
    S.cons h (by simp [hKind, TokenKind.IsEnd])
  rw [State.current_cons hs] at hKind
  have hKind' : b.kind = .symbol .atSign :=
    ((TokenKind.isFixed_symbol (by simp)).iff hAlike.kind).mp hKind
  rw [namedParameter_eq]
  simp only [Parse.run_bind, Parse.current, Parse.run_look, State.current_cons hs,
    State.current_cons ht]
  rw [Parse.run_advance_cons hs, Parse.run_advance_cons ht, parameterOf_eq, parameterOf_eq]
  obtain ⟨hName, hBehind⟩ := name .parameter hNext
  obtain ⟨hType, hState⟩ := similar_writtenType hBehind
  refine similar_resolve h hs ht hKind hName hType (fun _ => attemptAt?_of_run hs hKind)
    (fun _ => attemptAt?_of_run ht hKind') (fun hNone => ?_) hState
  refine @head?_of_run_name .parameter (s.take a as) ?_
  -- What was noted for the name would still be noted behind the type.
  cases hError : ((Parse.name .parameter).run (s.take a as)).2.error with
  | none => rfl
  | some e =>
    rw [(writtenType.moves _).error_eq hError] at hNone
    cases hNone

section Terms

variable {rules : Rules}

theorem similar_callArguments (h : rules.Keep S) {m n : String} (hName : Like e m n) :
    Similar S (Like e) (callArguments rules m) (callArguments rules n) := by
  refine (eat (by simp)).ite ?_ ((sees (by simp)).ite ?_ ?_)
  · refine (expect (by simp)).bind fun _ _ _ => pure ?_
    simp_all [Like, Erasable.erase, Term.erase]
  · refine (expect (by simp)).bind fun _ _ _ => pure ?_
    simp_all [Like, Erasable.erase, Term.erase, Expr.eraseAll]
  · refine (eatKeyword .DISTINCT).bind ?_
    rintro distinct _ rfl
    refine (separated h.expr).bind fun xs ys hList => (expect (by simp)).bind fun _ _ _ => pure ?_
    simp_all [Like, Erasable.erase, Term.erase]

theorem similar_pathOrCall (h : rules.Keep S) :
    Similar S (Like e) (pathOrCall rules) (pathOrCall rules) := by
  refine (name .identifier).bind fun m n hName => (eat (by simp)).ite
    (similar_callArguments h hName) ((dottedRest .identifier).bind fun xs ys hRest => pure ?_)
  simp_all [Like, Erasable.erase, Term.erase, Path.erase]

theorem similar_branch (h : rules.Keep S) : Similar S (Like e) (branch rules) (branch rules) := by
  refine h.expr.bind fun a b hCondition => (expectKeyword .THEN).bind fun _ _ _ =>
    h.expr.bind fun c d hResult => pure ?_
  simp_all [Like, Erasable.erase, Branch.erase]

theorem similar_caseTerm (h : rules.Keep S) {s t : State} (hs : S.state s t)
    (hNext : ¬ s.current.kind.IsEnd) :
    Like e ((caseTerm rules).run s).1 ((caseTerm rules).run t).1 ∧
      S.state ((caseTerm rules).run s).2 ((caseTerm rules).run t).2 := by
  refine advance_bind ((seesKeyword .WHEN).iteBind (R := Like e) (pure rfl)
    (h.expr.map fun _ _ => Like.some) fun a b hOperand => ?_) hs hNext
  refine (seesKeyword .WHEN).failUnless (fail _) ?_
  refine (chainKind (TokenKind.isFixed_keyword .WHEN) fun _ => similar_branch h).bind
    fun xs ys hBranches => (after h.expr).bind fun c d hOtherwise =>
    (expectKeyword .END).bind fun _ _ _ => pure ?_
  simp_all [Like, Erasable.erase, Term.erase]

theorem similar_castTerm (h : rules.Keep S) {s t : State} (hs : S.state s t)
    (hNext : ¬ s.current.kind.IsEnd) :
    Like e ((castTerm rules).run s).1 ((castTerm rules).run t).1 ∧
      S.state ((castTerm rules).run s).2 ((castTerm rules).run t).2 := by
  refine advance_bind ((expect (by simp)).bind fun _ _ _ => h.expr.bind fun a b hInner =>
    (expectKeyword .AS).bind fun _ _ _ => similar_columnType.bind fun c d hTarget =>
    (expect (by simp)).bind fun _ _ _ => pure ?_) hs hNext
  simp_all [Like, Erasable.erase, Term.erase]

theorem similar_parenthesized (h : rules.Keep S) {s t : State} (hs : S.state s t)
    (hNext : ¬ s.current.kind.IsEnd) :
    Like e ((parenthesized rules).run s).1 ((parenthesized rules).run t).1 ∧
      S.state ((parenthesized rules).run s).2 ((parenthesized rules).run t).2 := by
  refine advance_bind (similar_startsQuery.iteBind (R := Like e)
    (h.select.map fun a b hQuery => ?_) (h.expr.map fun a b hInner => ?_)
    fun _ _ hTerm => (expect (by simp)).bind fun _ _ _ => pure hTerm) hs hNext
  · exact hQuery.subquery
  · exact hInner.paren

theorem similar_namedTerm (h : rules.Keep S) :
    Similar S (Like e) (namedTerm rules) (namedTerm rules) :=
  seesName.ite (similar_pathOrCall h) ((fail _).bind fun _ _ _ => pure rfl)

theorem similar_unsignedTerm (h : rules.Keep S) :
    Similar S (Like e) (unsignedTerm rules) (unsignedTerm rules) := by
  rw [unsignedTerm_eq]
  refine similar_literal.bind ?_
  rintro literal _ rfl
  cases literal with
  | some literal => exact pure rfl
  | none =>
    refine kind_bind fun {s t} hs => ?_
    rw [← TokenKind.form_congr (termOfKind rules) (fun _ _ => rfl) rfl (S.kind hs)]
    unfold termOfKind
    split
    · exact similar_placeholder hs ‹_›
    · exact similar_namedParameter hs ‹_›
    · next hKind => exact similar_parenthesized h hs (by simp [hKind, TokenKind.IsEnd])
    · next hKind => exact similar_caseTerm h hs (by simp [hKind, TokenKind.IsEnd])
    · next hKind => exact similar_castTerm h hs (by simp [hKind, TokenKind.IsEnd])
    · exact similar_namedTerm h hs

theorem like_foldr_applySign {a b : Term} (signs : List Bool) (h : Like e a b) :
    Like e (signs.foldr applySign a) (signs.foldr applySign b) := by
  induction signs with
  | nil => exact h
  | cons negative signs ih => exact like_applySign negative ih

theorem byKind_signOf? : Token.ByKind signOf? := ⟨fun _ => rfl, fun _ _ => rfl, rfl, rfl⟩

theorem similar_term (h : rules.Keep S) : Similar S (Like e) (term rules) (term rules) := by
  refine (chain byKind_signOf? fun _ => pure rfl).bind
    fun signs signs' hSigns => (similar_unsignedTerm h).bind fun a b hTerm => pure ?_
  obtain rfl : signs = signs' := by simpa [Like, Erasable.erase] using hSigns
  exact like_foldr_applySign signs hTerm

/-! ## Operands -/

theorem byKind_mulOp? : Token.ByKind mulOp? := ⟨fun _ => rfl, fun _ _ => rfl, rfl, rfl⟩

theorem byKind_addOp? : Token.ByKind addOp? := ⟨fun _ => rfl, fun _ _ => rfl, rfl, rfl⟩

theorem similar_product (h : rules.Keep S) :
    Similar S (Like e) (product rules) (product rules) := by
  refine (similar_term h).bind fun a b hFirst => (chain byKind_mulOp?
    fun operator => (similar_term h).map fun _ _ hTerm => ?_).bind fun xs ys hRest => pure ?_
  · simp_all [Like, Erasable.erase]
  · refine like_foldl (fun a b x y hLeft hEntry => ?_) ?_ hRest
    · simp_all [Like, Erasable.erase, Product.erase, Prod.map]
    · simp_all [Like, Erasable.erase, Product.erase]

theorem similar_sum (h : rules.Keep S) : Similar S (Like e) (sum rules) (sum rules) := by
  refine (similar_product h).bind fun a b hFirst => (chain byKind_addOp?
    fun operator => (similar_product h).map fun _ _ hTerm => ?_).bind fun xs ys hRest => pure ?_
  · simp_all [Like, Erasable.erase]
  · refine like_foldl (fun a b x y hLeft hEntry => ?_) ?_ hRest
    · simp_all [Like, Erasable.erase, Sum.erase, Prod.map]
    · simp_all [Like, Erasable.erase, Sum.erase]

theorem similar_operand (h : rules.Keep S) :
    Similar S (Like e) (operand rules) (operand rules) := by
  refine (similar_sum h).bind fun a b hFirst => (chainOf (by simp) (similar_sum h)).bind
    fun xs ys hRest => pure ?_
  refine like_foldl (fun a b x y hLeft hEntry => ?_) ?_ hRest
  · simp_all [Like, Erasable.erase, Operand.erase]
  · simp_all [Like, Erasable.erase, Operand.erase]

/-! ## Conditions -/

/-- Where the word `NOT` is next, the word behind it is looked at on both sides. -/
theorem negates_eq {s t : State} (hs : S.state s t) : s.negates = t.negates := by
  have hWords := (TokenKind.isFixed_keyword .NOT).iff (S.kind hs)
  by_cases hNot : s.current.kind = .keyword .NOT
  · have hNext : ¬ s.current.kind.IsEnd := by simp [hNot, TokenKind.IsEnd]
    rw [State.negates, State.negates, hNot, hWords.mp hNot]
    exact congrArg _ (TokenKind.form_congr isPredicateWord (fun _ _ => rfl) rfl
      (S.kindAt_one hs hNext))
  · rw [State.negates_of_ne hNot, State.negates_of_ne fun h => hNot (hWords.mpr h)]

theorem similar_predicateNot : Similar S Eq predicateNot predicateNot := by
  have hRun : ∀ s : State, predicateNot.run s =
      if s.negates then (Parse.advance >>= fun _ => Pure.pure true).run s
      else (Pure.pure false : Parse Bool).run s := fun s => by
    simpa using run_predicateNot Pure.pure s
  intro s t hs
  rw [hRun, hRun, ← negates_eq hs]
  split
  · next hNegates =>
    have hNot : s.current.kind = .keyword .NOT := beq_iff_eq.mp (Bool.and_eq_true_iff.mp hNegates).1
    have hTrue : Similar S Eq (Pure.pure true) (Pure.pure true) := pure rfl
    exact advance_bind hTrue hs (by simp [hNot, TokenKind.IsEnd])
  · exact ⟨rfl, hs⟩

section Tests

variable {a b : Operand}

theorem similar_membership (h : rules.Keep S) (negated : Bool) (hLeft : Like e a b) :
    Similar S (Like e) (membership rules a negated) (membership rules b negated) := by
  have hClose : ∀ c d : Condition, Like e c d →
      Similar S (Like e) (do Parse.expect .rightParen; return c)
        (do Parse.expect .rightParen; return d) :=
    fun c d hCondition => (expect (by simp)).bind fun _ _ _ => pure hCondition
  refine (expect (by simp)).bind fun _ _ _ => similar_startsQuery.bind ?_
  rintro query _ rfl
  refine (sees (by simp)).bind ?_
  rintro none _ rfl
  cases query with
  | true =>
    refine (h.select.map fun _ _ hQuery => ?_).bind hClose
    simp_all [Like, Erasable.erase, Condition.erase]
  | false =>
    cases none with
    | true =>
      refine (pure ?_).bind hClose
      simp_all [Like, Erasable.erase, Condition.erase]
    | false =>
      refine ((separated h.expr).map fun _ _ hValues => ?_).bind hClose
      simp_all [Like, Erasable.erase, Condition.erase]

theorem similar_identity (h : rules.Keep S) (hLeft : Like e a b) :
    Similar S (Like e) (identity rules a) (identity rules b) := by
  refine (eatKeyword .NOT).bind ?_
  rintro negated _ rfl
  refine (eatKeyword .NULL).ite (pure ?_) ((similar_operand h).bind fun _ _ hRight => pure ?_)
  · simp_all [Like, Erasable.erase, Condition.erase]
  · simp_all [Like, Erasable.erase, Condition.erase]

theorem similar_test (h : rules.Keep S) (hLeft : Like e a b) :
    Similar S (Like e) (test rules a) (test rules b) := by
  refine (takeKind ⟨fun _ => rfl, fun _ _ => rfl, rfl, rfl⟩).bind ?_
  rintro operator _ rfl
  cases operator with
  | some operator =>
    refine (similar_operand h).bind fun _ _ hRight => pure ?_
    simp_all [Like, Erasable.erase, Condition.erase]
  | none =>
    refine (eatKeyword .IS).ite (similar_identity h hLeft) (similar_predicateNot.bind ?_)
    rintro negated _ rfl
    refine (eatKeyword .BETWEEN).ite ?_ ((eatKeyword .IN).ite (similar_membership h negated hLeft)
      ((eatKeyword .LIKE).ite ?_ ((eatKeyword .REGEXP).ite ?_ (pure ?_))))
    · refine (similar_operand h).bind fun _ _ hLow => (expectKeyword .AND).bind fun _ _ _ =>
        (similar_operand h).bind fun _ _ hHigh => pure ?_
      simp_all [Like, Erasable.erase, Condition.erase]
    · refine (similar_operand h).bind fun _ _ hPattern => (after (similar_operand h)).bind
        fun x y hEscape => ?_
      cases x with
      | some x =>
        cases y with
        | none => cases hEscape
        | some y =>
          refine pure ?_
          simp_all [Like, Erasable.erase, Condition.erase]
      | none =>
        cases y with
        | some y => cases hEscape
        | none =>
          refine pure ?_
          simp_all [Like, Erasable.erase, Condition.erase]
    · refine (similar_operand h).bind fun _ _ hPattern => pure ?_
      simp_all [Like, Erasable.erase, Condition.erase]
    · simp_all [Like, Erasable.erase, Condition.erase]

end Tests

theorem similar_plainCondition (h : rules.Keep S) :
    Similar S (Like e) (plainCondition rules) (plainCondition rules) := by
  refine (eatKeyword .EXISTS).ite ?_ ((similar_operand h).bind fun _ _ => similar_test h)
  refine (expect (by simp)).bind fun _ _ _ => h.select.bind fun _ _ hQuery =>
    (expect (by simp)).bind fun _ _ _ => pure ?_
  simp_all [Like, Erasable.erase, Condition.erase]

theorem similar_condition (h : rules.Keep S) :
    Similar S (Like e) (condition rules) (condition rules) := by
  refine (chainKind (TokenKind.isFixed_keyword .NOT)
    fun _ => pure rfl).bind fun xs ys hNegations => (similar_plainCondition h).bind
    fun a b hInner => pure ?_
  obtain rfl : xs = ys := by simpa [Like, Erasable.erase] using hNegations
  clear hNegations
  induction xs with
  | nil => exact hInner
  | cons _ xs ih => exact ih.negation

theorem similar_conjunction (h : rules.Keep S) :
    Similar S (Like e) (conjunction rules) (conjunction rules) := by
  have hSign : Token.ByKind andSign? := ⟨fun _ => rfl, fun _ _ => rfl, rfl, rfl⟩
  refine (similar_condition h).bind fun a b hFirst =>
    (chain hSign fun _ => similar_condition h).bind fun xs ys hRest => pure ?_
  refine like_foldl (fun a b x y hLeft hEntry => ?_) ?_ hRest
  · simp_all [Like, Erasable.erase, Conjunction.erase]
  · simp_all [Like, Erasable.erase, Conjunction.erase]

theorem similar_expr (h : rules.Keep S) : Similar S (Like e) (expr rules) (expr rules) := by
  refine (similar_conjunction h).bind fun a b hFirst => (chainKind
    (TokenKind.isFixed_keyword .OR) fun _ => similar_conjunction h).bind fun xs ys hRest => pure ?_
  refine like_foldl (fun a b x y hLeft hEntry => ?_) ?_ hRest
  · simp_all [Like, Erasable.erase, Expr.erase]
  · simp_all [Like, Erasable.erase, Expr.erase]

end Terms

end SqlKit.Grammar
