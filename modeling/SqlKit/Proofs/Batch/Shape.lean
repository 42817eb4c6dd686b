import SqlKit.Proofs.Batch.Yielding
import SqlKit.Proofs.Syntax.Fragments

/-!
# The shape of statements

What is read without an error has the shape that the grammar asks for, in each of its fragments
(`parse_shaped`). A reader goes on with a stand-in where a token is missing, and stand-ins have
other shapes: a `CHECK` without a condition, a table without entries, a query without columns. So
each of these is tied to the error that is noted along with it.

Along with the shapes goes a property of the constants (`parse_literals`): one that the constants of
single tokens have, and that signs in front of a constant keep.

One property of a fragment depends on more than what its reader returns. Behind `IS` the word `NULL`
is taken before an operand is read, and so the operand does not start with it.
-/

namespace SqlKit

/-- All of some fragments have the shape that is asked for, and the constants among them are in
`K`. -/
def AllShaped (K : Literal → Prop) (fs : List Fragment) : Prop :=
  ∀ f ∈ fs, f.Shaped ∧ ∀ value ∈ f.literal?, K value

namespace AllShaped

variable {K : Literal → Prop} {f : Fragment} {fs gs : List Fragment}

@[simp] theorem nil : AllShaped K [] := by simp [AllShaped]

@[simp] theorem cons : AllShaped K (f :: fs) ↔
    (f.Shaped ∧ ∀ value ∈ f.literal?, K value) ∧ AllShaped K fs := List.forall_mem_cons

theorem cons_other (h : f.literal? = none) : AllShaped K (f :: fs) ↔ f.Shaped ∧ AllShaped K fs := by
  have hNone : ∀ value ∈ f.literal?, K value := h ▸ nofun
  rw [cons, and_iff_left hNone]

@[simp] theorem append : AllShaped K (fs ++ gs) ↔ AllShaped K fs ∧ AllShaped K gs :=
  List.forall_mem_append

@[simp] theorem flatMap {α : Type} {xs : List α} {f : α → List Fragment} :
    AllShaped K (xs.flatMap f) ↔ ∀ x ∈ xs, AllShaped K (f x) := List.forall_mem_flatMap

@[simp] theorem option {α : Type} {x : Option α} {f : α → List Fragment} :
    AllShaped K (fragmentsOption f x) ↔ ∀ a ∈ x, AllShaped K (f a) := by
  cases x <;> simp [fragmentsOption]

end AllShaped

/-! ## Chains -/

@[simp] theorem Expr.conjunctions_ne_nil (e : Expr) : e.conjunctions ≠ [] := by
  cases e <;> simp [conjunctions]

@[simp] theorem Conjunction.conditions_ne_nil (c : Conjunction) : c.conditions ≠ [] := by
  cases c <;> simp [conditions]

@[simp] theorem Operand.sums_ne_nil (o : Operand) : o.sums ≠ [] := by
  cases o <;> simp [sums]

@[simp] theorem Sum.entries_ne_nil (s : Sum) : s.entries ≠ [] := by
  cases s <;> simp [entries]

@[simp] theorem Product.entries_ne_nil (p : Product) : p.entries ≠ [] := by
  cases p <;> simp [entries]

namespace Grammar

open Parse

/-- Constants of tokens in `T` are in `K`, and a sign in front of a constant leads to no other
ones. -/
structure Constants (T : Token → Prop) (K : Literal → Prop) : Prop where
  taken : ∀ t value, T t → literalOf? t = some value → K value
  signed : ∀ negative value, K value → ∀ t, applySign negative (.literal value) = .literal t → K t

/-- A term is shaped, and it is no constant. -/
structure ShapedBeside (K : Literal → Prop) (t : Term) : Prop where
  shaped : AllShaped K t.fragments
  beside : ∀ value, t ≠ .literal value

variable {T : Token → Prop} {K : Literal → Prop}

/-- What the readers yield that the grammar comes back to is shaped, and constants come from
tokens. -/
structure Rules.YieldShaped (T : Token → Prop) (K : Literal → Prop) (rules : Rules) : Prop
    extends rules.Yield T (AllShaped K ·.fragments) (AllShaped K ·.fragments)
      (AllShaped K ·.fragments) where
  constants : Constants T K

variable {rules : Rules}

/-! ## Terms -/

theorem shaped_columnType : Yields T columnType fun t => (Fragment.type t).Shaped := by
  have hBare : ∀ name, (Fragment.type ⟨name, none, none⟩).Shaped := fun name => ⟨nofun, nofun⟩
  rw [columnType_eq]
  refine .behind fun first => .behind fun second => ?_
  unfold typeArguments
  split
  · next hAccepts =>
    have hShaped : ∀ length scale,
        (Fragment.type ⟨typeName first second, some length, scale⟩).Shaped := fun length scale =>
      ⟨fun _ => hAccepts, fun _ => rfl⟩
    refine .choose (.behind fun length => .choose ?_ ?_) (.pure (hBare _))
    · exact .behind fun scale => .behind fun _ => .pure (hShaped length scale)
    · exact .behind fun scale => .behind fun _ => .pure (hShaped length scale)
  · exact .pure (hBare _)

/-- A sign is made a part of a number, and stands in front of anything else. -/
theorem applySign_cases (negative : Bool) (t : Term) :
    (∃ value, applySign negative t = .literal value ∧ value ≠ .null ∧ ∃ inner, t = .literal inner) ∨
      applySign negative t = .signed negative t ∧ t.isNumber = false := by
  unfold applySign
  split
  · exact .inl ⟨_, rfl, nofun, _, rfl⟩
  · exact .inl ⟨_, rfl, nofun, _, rfl⟩
  · exact .inl ⟨_, rfl, nofun, _, rfl⟩
  · exact .inl ⟨_, rfl, nofun, _, rfl⟩
  · next hMinusInteger hMinusFloat hPlusInteger hPlusFloat =>
    refine .inr ⟨rfl, ?_⟩
    unfold Term.isNumber
    split
    · cases negative
      · exact (hPlusInteger _ rfl rfl).elim
      · exact (hMinusInteger _ rfl rfl).elim
    · cases negative
      · exact (hPlusFloat _ rfl rfl).elim
      · exact (hMinusFloat _ rfl rfl).elim
    · rfl

theorem shaped_applySign (hConstants : Constants T K) (negative : Bool) {t : Term}
    (h : AllShaped K t.fragments) : AllShaped K (applySign negative t).fragments := by
  rcases applySign_cases negative t with ⟨value, hValue, -, inner, rfl⟩ | ⟨hSigned, hNumber⟩
  · have hInner : K inner := by simpa [Term.fragments, Fragment.Shaped, Term.Shaped] using h
    rw [hValue]
    simpa [Term.fragments, Fragment.Shaped, Term.Shaped] using
      hConstants.signed negative inner hInner value hValue
  · rw [hSigned]
    simpa [Term.fragments, Fragment.Shaped, Term.Shaped] using ⟨hNumber, h⟩

theorem shaped_callArguments (h : rules.YieldShaped T K) (function : String) :
    Yields T (callArguments rules function) (ShapedBeside K) := by
  refine .choose (.behind fun _ => .pure ⟨?_, nofun⟩)
    (.choose (.behind fun _ => .pure ⟨?_, nofun⟩) ?_)
  · simp [Term.fragments, Fragment.Shaped, Term.Shaped]
  · simp [Term.fragments, Fragment.Shaped, Term.Shaped, Expr.fragmentsAll_eq]
  · refine .behind fun distinct => h.expr.separated.bind fun arguments hArguments => ?_
    refine .behind fun _ => .pure ⟨?_, nofun⟩
    simpa [Term.fragments, Fragment.Shaped, Term.Shaped, Expr.fragmentsAll_eq, hArguments.1]
      using hArguments.2

theorem shaped_pathOrCall (h : rules.YieldShaped T K) :
    Yields T (pathOrCall rules) (ShapedBeside K) := by
  refine .behind fun first => .choose (shaped_callArguments h first) (.behind fun _ => ?_)
  exact .pure ⟨by simp [Term.fragments, Fragment.Shaped, Term.Shaped, Path.parts], nofun⟩

theorem shaped_branch (h : rules.YieldShaped T K) :
    Yields T (branch rules) (AllShaped K ·.fragments) :=
  h.expr.bind fun _ hCondition => .behind fun _ => h.expr.bind fun _ hResult =>
    .pure (AllShaped.append.mpr ⟨hCondition, hResult⟩)

/-- Where `WHEN` is next, a branch is read, unless what is next stands behind all tokens. -/
theorem after_caseBranches (s : State) :
    After (caseBranches rules) s fun branches s' => branches = [] → s'.tokens = [] := by
  refine After.look ?_
  split
  · next hWhen =>
    intro _
    cases hTokens : s.tokens with
    | nil => simp [chain, chainFrom_nil hTokens, hTokens]
    | cons t rest =>
      have hKind : t.kind = .keyword .WHEN := by simpa [State.current_cons hTokens] using hWhen
      have hAccept : whenAccept t = some () := if_pos hKind
      simp [chain, chainFrom_some hTokens hAccept]
  · exact .fail

/-- As `END` stands behind the branches, there is one of them. -/
theorem shaped_caseTerm (h : rules.YieldShaped T K) :
    Yields T (caseTerm rules) (ShapedBeside K) := by
  have hOperand : Yields T (caseOperand rules) fun o => ∀ e ∈ o, AllShaped K e.fragments :=
    .choose (.pure (by simp)) (.map (h.expr.imp fun e he => by simpa using he))
  have hBranches : Yields T (caseBranches rules) fun bs => ∀ b ∈ bs, AllShaped K b.fragments :=
    .choose (.chain fun _ _ _ _ => shaped_branch h) .fail
  rw [caseTerm_eq]
  refine .behind fun _ => hOperand.bind fun operand hOperand s hs => ?_
  have hRead : After (caseBranches rules) s fun bs s' =>
      (∀ b ∈ bs, AllShaped K b.fragments) ∧ (bs = [] → s'.tokens = []) := fun hError =>
    ⟨hBranches s hs hError, after_caseBranches s hError⟩
  refine hRead.bind fun bs s₁ hBranch hRest => ?_
  refine (h.expr.after s₁ fun t ht => hs t (hRest.suffix.subset ht)).bind
    fun otherwise s₂ hOtherwise hMoves => ?_
  refine After.expectKeyword fun t rest hTokens _ => .pure ⟨?_, nofun⟩
  have hSome : bs ≠ [] := fun hNone => by
    have hSuffix := hMoves.suffix
    rw [hBranch.2 hNone, hTokens] at hSuffix
    simp at hSuffix
  simpa [Term.fragments, Fragment.Shaped, Term.Shaped, Branch.fragmentsAll_eq,
    Expr.fragmentsOption_eq] using ⟨hSome, hOperand, hBranch.1, hOtherwise⟩

theorem shaped_castTerm (h : rules.YieldShaped T K) :
    Yields T (castTerm rules) (ShapedBeside K) :=
  .behind fun _ => .behind fun _ => h.expr.bind fun _ hInner => .behind fun _ =>
    shaped_columnType.bind fun _ hTarget => .behind fun _ => .pure ⟨by
      simpa [Term.fragments, Fragment.Shaped, Term.Shaped] using ⟨hTarget, hInner⟩, nofun⟩

theorem shaped_parenthesized (h : rules.YieldShaped T K) :
    Yields T (parenthesized rules) (ShapedBeside K) := by
  have hQuery : ∀ q : Select, AllShaped K q.fragments → ShapedBeside K (.subquery q) := fun q hq =>
    ⟨by simpa [Term.fragments, Fragment.Shaped, Term.Shaped] using hq, nofun⟩
  have hExpr : ∀ e : Expr, AllShaped K e.fragments → ShapedBeside K (.paren e) := fun e he =>
    ⟨by simpa [Term.fragments, Fragment.Shaped, Term.Shaped] using he, nofun⟩
  refine .behind fun _ => .behind fun query => ?_
  cases query with
  | true => exact .bind (.map (h.select.imp hQuery)) fun _ ht => .behind fun _ => .pure ht
  | false => exact .bind (.map (h.expr.imp hExpr)) fun _ ht => .behind fun _ => .pure ht

theorem shaped_placeholder : Yields T placeholder (ShapedBeside K) :=
  .behind fun _ => .behind fun _ => .behind fun _ => .behind fun _ => .pure ⟨by
    simp [Term.fragments, Fragment.Shaped, Term.Shaped], nofun⟩

theorem shaped_namedParameter : Yields T namedParameter (ShapedBeside K) := by
  have hParameter : ∀ p, ShapedBeside K (.parameter p) := fun p =>
    ⟨by simp [Term.fragments, Fragment.Shaped, Term.Shaped], nofun⟩
  refine .behind fun _ => .behind fun _ => .behind fun _ => .choose ?_ (.behind fun type => ?_)
  · exact .behind fun _ => .behind fun _ => .behind fun _ => .behind fun _ => .pure (hParameter _)
  · cases type with
    | some type => exact .behind fun _ => .pure (hParameter _)
    | none => exact .failUntyped

theorem shaped_termOfKind (h : rules.YieldShaped T K) (kind : TokenKind) :
    Yields T (termOfKind rules kind) (ShapedBeside K) := by
  unfold termOfKind
  split
  · exact shaped_placeholder
  · exact shaped_namedParameter
  · exact shaped_parenthesized h
  · exact shaped_caseTerm h
  · exact shaped_castTerm h
  · exact .choose (shaped_pathOrCall h) .fail

theorem shaped_unsignedTerm (h : rules.YieldShaped T K) :
    Yields T (unsignedTerm rules) (AllShaped K ·.fragments) := by
  rw [unsignedTerm_eq]
  refine (Yields.take? h.constants.taken).bind fun literal hLiteral => ?_
  cases literal with
  | some value =>
    refine .pure ?_
    simpa [Term.fragments, Fragment.Shaped, Term.Shaped] using hLiteral value rfl
  | none => exact .behind fun kind => (shaped_termOfKind h kind).imp fun _ ht => ht.shaped

theorem shaped_term (h : rules.YieldShaped T K) : Yields T (term rules) (AllShaped K ·.fragments) :=
  .behind fun signs => (shaped_unsignedTerm h).bind fun _ ht =>
    .pure (List.foldrRecOn (motive := fun t => AllShaped K t.fragments) signs applySign ht
      fun _ ht negative _ => shaped_applySign h.constants negative ht)

/-! ## Operands -/

theorem shaped_product (h : rules.YieldShaped T K) :
    Yields T (product rules) (AllShaped K ·.fragments) :=
  .layer (M := fun entry => AllShaped K (Term.fragments entry.2)) (shaped_term h)
    (fun _ operator _ _ => .map (shaped_term h))
    (fun _ ht => by simpa [Product.fragments, Fragment.Shaped] using ht)
    fun left entry hLeft hRight =>
      by simpa [Product.fragments, Fragment.Shaped] using ⟨hLeft, hRight⟩

theorem shaped_sum (h : rules.YieldShaped T K) : Yields T (sum rules) (AllShaped K ·.fragments) :=
  .layer (M := fun entry => AllShaped K (Product.fragments entry.2)) (shaped_product h)
    (fun _ operator _ _ => .map (shaped_product h))
    (fun _ hp => by simpa [Sum.fragments, Fragment.Shaped] using hp) fun left entry hLeft hRight =>
      by simpa [Sum.fragments, Fragment.Shaped] using ⟨hLeft, hRight⟩

theorem shaped_operand (h : rules.YieldShaped T K) :
    Yields T (operand rules) (AllShaped K ·.fragments) :=
  .layer (shaped_sum h) (fun _ _ _ _ => shaped_sum h)
    (fun _ hs => by simpa [Operand.fragments, Fragment.Shaped] using hs)
    fun left right hLeft hRight =>
      by simpa [Operand.fragments, Fragment.Shaped] using ⟨hLeft, hRight⟩

/-! ### The first word of an operand -/

variable {s : State}

/-- Where the next token is not `NULL`, a term without a sign is not `NULL`. -/
theorem after_unsignedTerm (h : rules.YieldShaped T K) (hs : ∀ t ∈ s.tokens, T t)
    (hHead : ∀ t rest, s.tokens = t :: rest → t.kind ≠ .keyword .NULL) :
    After (unsignedTerm rules) s fun t _ => t ≠ .literal .null := by
  rw [unsignedTerm_eq]
  refine After.take (fun t rest value hTokens hValue => .pure ?_) fun _ => ?_
  · intro hNull
    obtain rfl := Term.literal.inj hNull
    exact hHead t rest hTokens (kind_of_literalOf? hValue)
  · have hBeside := (Yields.behind fun kind => shaped_termOfKind h kind :
      Yields T (kind >>= fun k => termOfKind rules k) (ShapedBeside K))
    exact (hBeside s hs).imp fun t _ ht => ht.beside .null

/-- Where the next token is not `NULL`, a term is not `NULL`: behind a sign it is a number, or it
has the sign in front. -/
theorem after_term (h : rules.YieldShaped T K) (hs : ∀ t ∈ s.tokens, T t)
    (hHead : ∀ t rest, s.tokens = t :: rest → t.kind ≠ .keyword .NULL) :
    After (term rules) s fun t _ => t ≠ .literal .null := by
  have hSigns : After (chain signOf? pure) s fun signs s' => signs = [] → s' = s := by
    intro _
    cases hTokens : s.tokens with
    | nil => simp [chain, chainFrom_nil hTokens]
    | cons t rest =>
      cases hAccept : signOf? t with
      | none => simp [chain, chainFrom_none hTokens hAccept]
      | some negative => simp [chain, chainFrom_some hTokens hAccept]
  refine hSigns.bind fun signs s' hNone _ => ?_
  cases signs with
  | nil => exact (hNone rfl ▸ after_unsignedTerm h hs hHead).bind fun t _ ht _ => .pure ht
  | cons negative signs =>
    refine After.behind fun t _ _ => .pure ?_
    rw [List.foldr_cons]
    rcases applySign_cases negative (signs.foldr applySign t)
      with ⟨value, hValue, hOther, -⟩ | ⟨hSigned, -⟩
    · rw [hValue]
      exact fun hNull => hOther (Term.literal.inj hNull)
    · simp [hSigned]

/-- What is known of the first entry of a layer, and does not get lost behind it. -/
theorem After.layer {α β γ ε : Type} {first : Parse γ} {accept : Token → Option β}
    {item : β → Parse ε} {start : γ → α} {make : α → ε → α} {R : α → Prop}
    (hFirst : After first s fun x _ => R (start x)) (hMake : ∀ a y, R a → R (make a y)) :
    After (do
      let x ← first
      let rest ← Parse.chain accept item
      return rest.foldl make (start x)) s fun a _ => R a :=
  hFirst.bind fun _ _ hx _ => After.behind fun rest _ _ =>
    .pure (List.foldlRecOn rest make hx fun a ha y _ => hMake a y ha)

/-- Where the next token is not `NULL`, an operand does not start with `NULL`. -/
theorem after_operand (h : rules.YieldShaped T K) (hs : ∀ t ∈ s.tokens, T t)
    (hHead : ∀ t rest, s.tokens = t :: rest → t.kind ≠ .keyword .NULL) :
    After (operand rules) s fun o _ => o.first ≠ .literal .null := by
  have hProduct : After (product rules) s fun p _ => p.first ≠ .literal .null :=
    .layer (after_term h hs hHead) fun _ _ hFirst => hFirst
  have hSum : After (sum rules) s fun p _ => p.first ≠ .literal .null :=
    .layer hProduct fun _ _ hFirst => hFirst
  exact .layer hSum fun _ _ hFirst => hFirst

/-! ## Conditions -/

theorem shaped_identity (h : rules.YieldShaped T K) {left : Operand}
    (hLeft : AllShaped K left.fragments) :
    Yields T (identity rules left) (AllShaped K ·.fragments) := by
  refine .behind fun negated s hs => After.eatIte (fun t rest _ _ => .pure ?_) fun hHead => ?_
  · simpa [Condition.fragments, Fragment.Shaped, Condition.Shaped] using hLeft
  · have hRight : After (operand rules) s fun o _ =>
        AllShaped K o.fragments ∧ o.first ≠ .literal .null := fun hError =>
      ⟨shaped_operand h s hs hError, after_operand h hs hHead hError⟩
    refine hRight.bind fun right _ hRight _ => .pure ?_
    simpa [Condition.fragments, Fragment.Shaped, Condition.Shaped] using ⟨hRight.2, hLeft, hRight.1⟩

theorem shaped_membership (h : rules.YieldShaped T K) {left : Operand}
    (hLeft : AllShaped K left.fragments) (negated : Bool) :
    Yields T (membership rules left negated) (AllShaped K ·.fragments) := by
  have hEnd : ∀ c : Condition, AllShaped K c.fragments →
      Yields T (do expect .rightParen; return c) (AllShaped K ·.fragments) :=
    fun _ hc => .behind fun _ => .pure hc
  refine .behind fun _ => .behind fun query => .behind fun empty => ?_
  cases query with
  | true =>
    simp only [↓reduceIte, map_eq_pure_bind, bind_assoc, pure_bind]
    refine h.select.bind fun q hq => hEnd _ ?_
    simpa [Condition.fragments, Fragment.Shaped, Condition.Shaped] using ⟨hLeft, hq⟩
  | false =>
    cases empty with
    | true =>
      refine hEnd _ ?_
      simpa [Condition.fragments, Fragment.Shaped, Condition.Shaped, Expr.fragmentsAll_eq]
        using hLeft
    | false =>
      simp only [Bool.false_eq_true, ↓reduceIte, map_eq_pure_bind, bind_assoc, pure_bind]
      refine h.expr.separated.bind fun values hValues => hEnd _ ?_
      simpa [Condition.fragments, Fragment.Shaped, Condition.Shaped, Expr.fragmentsAll_eq]
        using ⟨hLeft, hValues.2⟩

theorem shaped_test (h : rules.YieldShaped T K) {left : Operand}
    (hLeft : AllShaped K left.fragments) :
    Yields T (test rules left) (AllShaped K ·.fragments) := by
  have hOperand := shaped_operand h
  refine .behind fun operator => ?_
  cases operator with
  | some operator =>
    refine hOperand.bind fun right hRight => .pure ?_
    simpa [Condition.fragments, Fragment.Shaped, Condition.Shaped] using ⟨hLeft, hRight⟩
  | none =>
    refine .choose (shaped_identity h hLeft) (.behind fun negated => ?_)
    refine .choose ?_ (.choose (shaped_membership h hLeft negated) (.choose ?_ (.choose ?_ ?_)))
    · refine hOperand.bind fun low hLow => .behind fun _ => hOperand.bind fun high hHigh => .pure ?_
      simpa [Condition.fragments, Fragment.Shaped, Condition.Shaped] using ⟨hLeft, hLow, hHigh⟩
    · refine hOperand.bind fun pattern hPattern => hOperand.after.bind fun escape hEscape => ?_
      cases escape with
      | none =>
        refine .pure ?_
        simpa [Condition.fragments, Fragment.Shaped, Condition.Shaped] using ⟨hLeft, hPattern⟩
      | some escape =>
        have hLast := hEscape escape rfl
        refine .pure ?_
        simpa [Condition.fragments, Fragment.Shaped, Condition.Shaped]
          using ⟨hLeft, hPattern, hLast⟩
    · refine hOperand.bind fun pattern hPattern => .pure ?_
      simpa [Condition.fragments, Fragment.Shaped, Condition.Shaped] using ⟨hLeft, hPattern⟩
    · exact .pure (by simpa [Condition.fragments, Fragment.Shaped, Condition.Shaped] using hLeft)

theorem shaped_plainCondition (h : rules.YieldShaped T K) :
    Yields T (plainCondition rules) (AllShaped K ·.fragments) := by
  refine .choose (.behind fun _ => h.select.bind fun query hQuery => .behind fun _ => .pure ?_)
    ((shaped_operand h).bind fun _ hLeft => shaped_test h hLeft)
  simpa [Condition.fragments, Fragment.Shaped, Condition.Shaped] using hQuery

theorem shaped_condition (h : rules.YieldShaped T K) :
    Yields T (condition rules) (AllShaped K ·.fragments) := by
  refine .behind fun negations => (shaped_plainCondition h).bind fun c hc => .pure ?_
  induction negations with
  | nil => exact hc
  | cons _ negations ih =>
    simpa [Condition.fragments, Fragment.Shaped, Condition.Shaped] using ih

theorem shaped_conjunction (h : rules.YieldShaped T K) :
    Yields T (conjunction rules) (AllShaped K ·.fragments) :=
  .layer (shaped_condition h) (fun _ _ _ _ => shaped_condition h)
    (fun _ hc => by simpa [Conjunction.fragments, Fragment.Shaped] using hc)
    fun left right hLeft hRight => by
      simpa [Conjunction.fragments, Fragment.Shaped] using ⟨hLeft, hRight⟩

theorem shaped_expr (h : rules.YieldShaped T K) : Yields T (expr rules) (AllShaped K ·.fragments) :=
  .layer (shaped_conjunction h) (fun _ _ _ _ => shaped_conjunction h)
    (fun _ hc => by simpa [Expr.fragments, Fragment.Shaped] using hc)
    fun left right hLeft hRight => by
      simpa [Expr.fragments, Fragment.Shaped] using ⟨hLeft, hRight⟩

/-! ## Sources -/

theorem shaped_parenthesizedSource (h : rules.YieldShaped T K) :
    Yields T (parenthesizedSource rules) (AllShaped K ·.fragments) := by
  refine .choose (h.select.bind fun query hQuery => .behind fun _ => .behind fun name => .pure ?_)
    (h.joinClause.bind fun clause hClause => .behind fun _ => .pure ?_)
  · simpa [Source.fragments] using hQuery
  · simpa [Source.fragments] using hClause

theorem shaped_source (h : rules.YieldShaped T K) :
    Yields T (source rules) (AllShaped K ·.fragments) :=
  .choose (shaped_parenthesizedSource h) (.behind fun _ => .behind fun _ => .pure (by
    simp [Source.fragments]))

theorem shaped_joinAfterKind {natural : Bool} {kind : JoinKind} (hKind : kind ≠ .comma) :
    Yields T (joinAfterKind natural kind) JoinOperator.Shaped := by
  have hShaped : ∀ outer, (outer = true → kind = .left ∨ kind = .right ∨ kind = .full) →
      JoinOperator.Shaped ⟨natural, kind, outer⟩ := fun outer hOuter =>
    ⟨hOuter, fun hComma => absurd hComma hKind⟩
  cases kind with
  | left | right | full =>
    exact .behind fun outer => .behind fun _ => .pure (hShaped outer (by simp))
  | comma | plain | inner | cross =>
    refine .bind (P := (· = false)) (.pure rfl) fun outer hOuter => .behind fun _ => ?_
    exact .pure (hShaped outer (by simp [hOuter]))

theorem shaped_joinOperator {t : Token} {start : JoinStart} (hStart : joinStart? t = some start) :
    Yields T (joinOperator start) JoinOperator.Shaped := by
  have hNoComma : ∀ u kind, joinKind? u = some kind → kind ≠ .comma := by
    intro u kind hKind
    unfold joinKind? at hKind
    split at hKind <;> cases hKind <;> nofun
  cases start with
  | comma => exact .pure ⟨nofun, fun _ => rfl⟩
  | join => exact .pure ⟨nofun, nofun⟩
  | natural =>
    refine (Yields.take? fun u kind _ hKind => hNoComma u kind hKind).bind fun kind hKind => ?_
    refine shaped_joinAfterKind ?_
    cases kind with
    | none => nofun
    | some kind => exact hKind kind rfl
  | kind kind =>
    refine shaped_joinAfterKind (hNoComma t kind ?_)
    unfold joinStart? at hStart
    split at hStart <;> simp_all

theorem yields_askKind {T : Token → Prop} (expected : Expected) (kind : TokenKind) :
    Yields T (askKind expected kind) (· = true) := by
  refine .ask fun t found _ hFound => ?_
  split at hFound
  · exact (Option.some.inj hFound).symm
  · cases hFound

theorem shaped_columnList : Yields T columnList fun names => names ≠ [] := by
  refine (yields_askKind _ _).bind fun found hFound => ?_
  rw [if_pos hFound]
  exact (Yields.separated (.any _)).bind fun _ hNames => .behind fun _ => .pure hNames.1

theorem shaped_joinConstraint (h : rules.YieldShaped T K) :
    Yields T (joinConstraint rules) (AllShaped K ·.fragments) := by
  refine .choose ((shaped_expr h).bind fun _ hCondition => .pure ?_)
    (.choose (shaped_columnList.bind fun _ hNames => .pure ?_) (.pure ?_))
  · simpa [JoinConstraint.fragments, Fragment.Shaped, JoinConstraint.Shaped] using hCondition
  · simpa [JoinConstraint.fragments, Fragment.Shaped, JoinConstraint.Shaped] using hNames
  · simp [JoinConstraint.fragments, Fragment.Shaped, JoinConstraint.Shaped]

theorem shaped_joinClause (h : rules.YieldShaped T K) :
    Yields T (joinClause rules) (AllShaped K ·.fragments) := by
  refine .layer (M := fun j => j.operator.Shaped ∧ AllShaped K j.source.fragments ∧
    AllShaped K j.constraint.fragments) (shaped_source h) (fun t start _ hStart => ?_)
    (fun _ hs => ?_)
    fun left j hLeft hRight => ?_
  · exact (shaped_joinOperator hStart).bind fun _ hOperator =>
      (shaped_source h).bind fun _ hSource =>
      (shaped_joinConstraint h).bind fun _ hConstraint => .pure ⟨hOperator, hSource, hConstraint⟩
  · simpa [JoinClause.fragments] using hs
  · simpa [JoinClause.fragments, Fragment.Shaped] using ⟨hRight.1, hLeft, hRight.2⟩

/-! ## Bodies -/

theorem shaped_resultColumn (h : rules.YieldShaped T K) :
    Yields T (resultColumn rules) (AllShaped K ·.fragments) := by
  refine .choose (.pure ?_) (.choose (.behind fun _ => .behind fun _ => .behind fun _ => .pure ?_)
    ((shaped_expr h).bind fun value hValue => .behind fun name => .pure ?_))
  · simp [ResultColumn.fragments]
  · simp [ResultColumn.fragments]
  · simpa [ResultColumn.fragments] using hValue

theorem shaped_valueRow (h : rules.YieldShaped T K) :
    Yields T (valueRow rules) fun es => es ≠ [] ∧ ∀ e ∈ es, AllShaped K e.fragments :=
  .behind fun _ => (shaped_expr h).separated.bind fun _ hValues => .behind fun _ => .pure hValues

/-- Rows of values, none of them empty. -/
theorem shaped_valueRows (h : rules.YieldShaped T K) :
    Yields T (separated (valueRow rules)) fun rows =>
      ShapedRows rows ∧ ∀ row ∈ rows, ∀ e ∈ row, AllShaped K e.fragments :=
  (shaped_valueRow h).separated.imp fun _ hRows =>
    ⟨⟨hRows.1, fun row hRow => (hRows.2 row hRow).1⟩, fun row hRow => (hRows.2 row hRow).2⟩

theorem shaped_body (h : rules.YieldShaped T K) :
    Yields T (body rules) (AllShaped K ·.fragments) := by
  have hExpr := shaped_expr h
  refine .choose ((shaped_valueRows h).bind fun rows hRows => .pure ?_)
    (.behind fun _ => .behind fun distinct => ?_)
  · simpa [Body.fragments, Fragment.Shaped, Body.Shaped, Expr.fragmentsRows_eq] using hRows
  have hGroupBy : Yields T (groupBy rules) fun es => ∀ e ∈ es, AllShaped K e.fragments :=
    .choose (.behind fun _ => hExpr.separated.imp fun _ => And.right) (.pure (by simp))
  refine (shaped_resultColumn h).separated.bind fun columns hColumns => ?_
  refine (shaped_joinClause h).after.bind fun source hSource => ?_
  refine hExpr.after.bind fun condition hCondition => ?_
  refine hGroupBy.bind fun groupBy hGroupBy => hExpr.after.bind fun having hHaving => .pure ?_
  simpa [Body.fragments, Fragment.Shaped, Body.Shaped, ResultColumn.fragmentsAll_eq,
    JoinClause.fragmentsOption_eq, Expr.fragmentsOption_eq, Expr.fragmentsAll_eq]
    using ⟨hColumns.1, hColumns.2, hSource, hCondition, hGroupBy, hHaving⟩

theorem shaped_compound (h : rules.YieldShaped T K) (operator : SetOperator) :
    Yields T (compound rules operator) fun entry => AllShaped K entry.2.fragments := by
  have hBody : ∀ operator : SetOperator, Yields T
      (do return (operator, ← body rules)) fun entry => AllShaped K entry.2.fragments :=
    fun _ => (shaped_body h).bind fun _ hBody => .pure hBody
  unfold compound
  split
  · refine .behind fun all => ?_
    cases all with
    | true => exact hBody .unionAll
    | false => exact hBody .union
  · exact hBody operator

theorem shaped_bodies (h : rules.YieldShaped T K) :
    Yields T (bodies rules) (AllShaped K ·.fragments) :=
  .layer (M := fun entry => AllShaped K (Body.fragments entry.2)) (shaped_body h)
    (fun _ operator _ _ => shaped_compound h operator)
    (fun _ hBody => by simpa [Bodies.fragments] using hBody) fun left entry hLeft hRight => by
      simpa [Bodies.fragments] using ⟨hLeft, hRight⟩

/-! ## Queries -/

theorem shaped_commonTable (h : rules.YieldShaped T K) :
    Yields T (commonTable rules) fun t => AllShaped K t.query.fragments :=
  .behind fun _ => .behind fun _ => .behind fun _ => .behind fun _ => h.select.bind fun _ hQuery =>
    .behind fun _ => .pure hQuery

theorem shaped_orderBy (h : rules.YieldShaped T K) :
    Yields T (orderBy rules) fun terms => ∀ t ∈ terms, AllShaped K t.key.fragments := by
  refine .choose (.behind fun _ => (Yields.separated ?_).imp fun _ => And.right) (.pure (by simp))
  exact (shaped_expr h).bind fun _ hKey => .behind fun _ => .behind fun _ => .pure hKey

theorem shaped_limit (h : rules.YieldShaped T K) :
    Yields T (limit rules) (AllShaped K ·.fragments) := by
  have hExpr := shaped_expr h
  refine .choose (hExpr.bind fun first hFirst => ?_) (.pure (by simp [Limit.fragments]))
  refine .choose (hExpr.bind fun second hSecond => .pure ?_)
    (.choose (hExpr.bind fun second hSecond => .pure ?_) (.pure ?_))
  · simpa [Limit.fragments] using ⟨hFirst, hSecond⟩
  · simpa [Limit.fragments] using ⟨hSecond, hFirst⟩
  · simpa [Limit.fragments] using hFirst

theorem shaped_select (h : rules.YieldShaped T K) :
    Yields T (select rules) (AllShaped K ·.fragments) := by
  have hParts : ∀ (recursive : Bool) (tables : List CommonTable),
      (recursive = true → tables ≠ []) → (∀ t ∈ tables, AllShaped K t.query.fragments) →
      Yields T (do
        let bodies ← bodies rules
        let orderBy ← orderBy rules
        let limit ← limit rules
        return fun span => (⟨recursive, tables, bodies, orderBy, limit, span⟩ : Select))
        fun f => ∀ span, AllShaped K (f span).fragments := by
    intro recursive tables hSome hTables
    refine (shaped_bodies h).bind fun bodies hBodies => (shaped_orderBy h).bind fun terms hTerms =>
      (shaped_limit h).bind fun limit hLimit => .pure fun span => ?_
    simpa [Select.fragments, Fragment.Shaped, CommonTable.fragmentsAll_eq,
      OrderTerm.fragmentsAll_eq]
      using ⟨hSome, hTables, hBodies, hTerms, hLimit⟩
  refine .spanned (.behind fun hasTables => ?_)
  cases hasTables with
  | true =>
    exact .behind fun recursive => (shaped_commonTable h).separated.bind fun tables hTables =>
      hParts recursive tables (fun _ => hTables.1) hTables.2
  | false => exact hParts false [] nofun (by simp)

/-! ## Tables -/

theorem shaped_checkCondition (h : rules.YieldShaped T K) :
    Yields T (checkCondition rules) (AllShaped K ·.fragments) :=
  .behind fun _ => (shaped_expr h).bind fun _ hCondition => .behind fun _ => .pure hCondition

theorem shaped_columnRest (h : rules.YieldShaped T K) (name : String) (first : Span) :
    Yields T (columnRest rules name first) (AllShaped K ·.fragments) := by
  refine shaped_columnType.bind fun type hType => (shaped_term h).after.bind fun default hDefault =>
    .behind fun nullability => .behind fun numbering => .behind fun unique =>
    .behind fun primaryKey => (shaped_checkCondition h).after.bind fun check hCheck =>
      .behind fun span => .pure ?_
  simpa [ColumnDefinition.fragments, Fragment.Shaped] using
    ⟨ColumnDefinition.shaped _, hType, hDefault, hCheck⟩

theorem shaped_columnDefinition (h : rules.YieldShaped T K) :
    Yields T (columnDefinition rules) (AllShaped K ·.fragments) :=
  .behind fun _ => .behind fun name => shaped_columnRest h name _

/-- A demand as it is read: a `CHECK` has its condition, and the others list columns. -/
theorem shaped_demand (h : rules.YieldShaped T K) : Yields T (demand rules) fun d =>
    ∀ name span, AllShaped K (Constraint.fragments ⟨name, d, span⟩) := by
  refine .choose ?_ (.choose ?_ (.choose ?_ (.choose ?_ .fail)))
  · refine .behind fun _ => .behind fun hash => shaped_columnList.bind fun columns hColumns =>
      .pure fun name span => (AllShaped.cons_other rfl).mpr ⟨⟨?_, ?_, ?_⟩, .nil⟩ <;>
      simp [Demand.reference?, Demand.condition?, Demand.columns, hColumns]
  · refine .behind fun _ => shaped_columnList.bind fun columns hColumns =>
      .pure fun name span => (AllShaped.cons_other rfl).mpr ⟨⟨?_, ?_, ?_⟩, .nil⟩ <;>
      simp [Demand.reference?, Demand.condition?, Demand.columns, hColumns]
  · refine (shaped_checkCondition h).bind fun condition hCondition =>
      .pure fun name span => (AllShaped.cons_other rfl).mpr ⟨⟨?_, ?_, ?_⟩, ?_⟩
    · simp [Demand.reference?]
    · simp [Demand.condition?]
    · simp [Demand.columns]
    · simpa [Demand.condition?] using hCondition
  · refine .behind fun _ => shaped_columnList.bind fun columns hColumns => .behind fun reference =>
      .pure fun name span => (AllShaped.cons_other rfl).mpr ⟨⟨?_, ?_, ?_⟩, .nil⟩ <;>
      simp [Demand.reference?, Demand.condition?, Demand.columns, hColumns]

theorem shaped_tableConstraint (h : rules.YieldShaped T K) :
    Yields T (tableConstraint rules) (AllShaped K ·.fragments) :=
  .spanned (.behind fun name => (shaped_demand h).bind fun _ hDemand => .pure (hDemand name))

theorem shaped_tableElement (h : rules.YieldShaped T K) :
    Yields T (tableElement rules) (AllShaped K ·.fragments) :=
  .choose ((shaped_columnDefinition h).bind fun _ hColumn => .pure hColumn)
    ((shaped_tableConstraint h).bind fun _ hConstraint => .pure hConstraint)

theorem shaped_tableElements (h : rules.YieldShaped T K) : Yields T (tableElements rules)
    fun es => es ≠ [] ∧ ∀ e ∈ es, AllShaped K e.fragments := by
  refine (yields_askKind _ _).bind fun found hFound => ?_
  rw [if_pos hFound]
  exact (shaped_tableElement h).separated.bind fun _ hElements => .behind fun _ => .pure hElements

theorem shaped_createTable (h : rules.YieldShaped T K) :
    Yields T (createTable rules) fun c => AllShaped K (Statement.createTable c).fragments := by
  refine .spanned (.behind fun _ => .behind fun temporary => .behind fun _ => .behind fun guarded =>
    .behind fun name => (shaped_tableElements h).bind fun elements hElements =>
    .behind fun rowless => .pure fun span => ?_)
  simpa [Statement.fragments, Fragment.Shaped, Statement.Shaped] using hElements

theorem shaped_addition (h : rules.YieldShaped T K) :
    Yields T (addition rules) (AllShaped K ·.fragments) :=
  .choose ((shaped_tableConstraint h).bind fun _ hConstraint => .pure hConstraint)
    (.behind fun _ => (shaped_columnDefinition h).bind fun _ hColumn => .pure hColumn)

theorem shaped_columnChange (h : rules.YieldShaped T K) (column : String) (first : Span) :
    Yields T (columnChange rules column first) (AllShaped K ·.fragments) := by
  refine .choose (.behind fun _ => .behind fun _ => .pure .nil) (.choose ?_ (.choose ?_ ?_))
  · exact .choose ((shaped_term h).bind fun _ hTerm => .pure hTerm) (.choose
      (.behind fun _ => .pure .nil) (.behind fun _ => .pure .nil))
  · exact .choose (.pure .nil) (.behind fun _ => .behind fun _ => .pure .nil)
  · exact (shaped_columnRest h column first).bind fun _ hColumn => .pure hColumn

theorem shaped_alteration (h : rules.YieldShaped T K) :
    Yields T (alteration rules) (AllShaped K ·.fragments) := by
  have hBehind : Yields T (do
      let first := (← current).span
      let column ← name .column
      return AlterAction.alterColumn column (← columnChange rules column first))
      (AllShaped K ·.fragments) :=
    .behind fun _ => .behind fun column => (shaped_columnChange h column _).bind fun _ hChange =>
      .pure hChange
  refine .behind fun seen => .behind fun next => ?_
  split
  · exact .behind fun _ => hBehind
  · exact hBehind

theorem shaped_alterAction (h : rules.YieldShaped T K) :
    Yields T (alterAction rules) (AllShaped K ·.fragments) := by
  refine .choose (shaped_addition h) (.choose (shaped_alteration h) (.choose ?_ (.choose ?_ .fail)))
  · exact .choose (.behind fun _ => .pure .nil) (.choose (.behind fun _ => .pure .nil)
      (.behind fun _ => .behind fun _ => .pure .nil))
  · exact .choose (.behind fun _ => .pure .nil)
      (.behind fun _ => .behind fun _ => .behind fun _ => .behind fun _ => .pure .nil)

theorem shaped_alterTable (h : rules.YieldShaped T K) :
    Yields T (alterTable rules) fun a => AllShaped K (Statement.alterTable a).fragments :=
  .spanned (.behind fun _ => .behind fun _ => .behind fun _ => (shaped_alterAction h).bind
    fun _ hAction => .pure fun _ => (AllShaped.cons_other rfl).mpr ⟨trivial, hAction⟩)

theorem shaped_dropTable :
    Yields T dropTable fun d => AllShaped K (Statement.dropTable d).fragments :=
  .spanned (.behind fun _ => .behind fun _ => .behind fun _ => (Yields.separated (.any _)).bind
    fun _ hNames => .behind fun _ => .pure fun _ => (AllShaped.cons_other rfl).mpr ⟨hNames.1, .nil⟩)

/-! ## Rows -/

theorem shaped_insertSource (h : rules.YieldShaped T K) :
    Yields T (insertSource rules) fun source =>
      (∀ rows, source = .values rows → ShapedRows rows) ∧ AllShaped K source.fragments := by
  refine .choose ((shaped_valueRows h).bind fun rows hRows => .pure ⟨?_, ?_⟩) (.choose
    (.behind fun _ => .pure ⟨nofun, .nil⟩) ((shaped_select h).bind fun _ hQuery =>
      .pure ⟨nofun, hQuery⟩))
  · rintro _ ⟨rfl⟩
    exact hRows.1
  · simpa [InsertSource.fragments] using hRows.2

theorem shaped_insert (h : rules.YieldShaped T K) :
    Yields T (insert rules) fun i => AllShaped K (Statement.insert i).fragments :=
  .spanned (.behind fun _ => .behind fun _ => .behind fun _ => .behind fun _ =>
    (shaped_insertSource h).bind fun _ hSource => .pure fun _ =>
      (AllShaped.cons_other rfl).mpr hSource)

theorem shaped_assignment (h : rules.YieldShaped T K) :
    Yields T (assignment rules) fun a => AllShaped K a.value.fragments :=
  .behind fun _ => .behind fun _ => (shaped_expr h).bind fun _ hValue => .pure hValue

theorem shaped_update (h : rules.YieldShaped T K) :
    Yields T (update rules) fun u => AllShaped K (Statement.update u).fragments := by
  refine .spanned (.behind fun _ => .behind fun _ => .behind fun _ => .behind fun _ =>
    (shaped_assignment h).separated.bind fun assignments hAssignments =>
    (shaped_expr h).after.bind fun condition hCondition => .pure fun _ => ?_)
  simpa [Statement.fragments, Fragment.Shaped, Statement.Shaped] using
    ⟨hAssignments.1, hAssignments.2, hCondition⟩

theorem shaped_delete (h : rules.YieldShaped T K) :
    Yields T (delete rules) fun d => AllShaped K (Statement.delete d).fragments := by
  refine .spanned (.behind fun _ => .behind fun _ => .behind fun _ => (shaped_expr h).after.bind
    fun condition hCondition => .pure fun _ => ?_)
  simpa [Statement.fragments, Fragment.Shaped, Statement.Shaped] using hCondition

/-! ## Statements -/

theorem shaped_statementOfKind (h : rules.YieldShaped T K) :
    Yields T (statementOfKind rules) (AllShaped K ·.fragments) := by
  refine .behind fun kind => ?_
  split
  · exact .map (shaped_createTable h)
  · exact .map (shaped_alterTable h)
  · exact .map shaped_dropTable
  · exact .map (shaped_insert h)
  · exact .map (shaped_insert h)
  · exact .map (shaped_update h)
  · exact .map (shaped_delete h)
  · exact .map
      ((shaped_select h).imp fun _ hQuery => (AllShaped.cons_other rfl).mpr ⟨trivial, hQuery⟩)

end Grammar

open Grammar

variable {T : Token → Prop} {K : Literal → Prop} {options : ParseOptions} {text : String}

theorem allShaped_of_mem (hConstants : Constants T K) (hTokens : ∀ t ∈ tokensOf text, T t) :
    ∀ x ∈ (parse options text).statements, AllShaped K x.fragments := by
  refine yields_of_mem (fun _ h => ?_) (fun _ h => shaped_statementOfKind ⟨h, hConstants⟩) hTokens
  have hShaped : Rules.YieldShaped T K _ := ⟨h, hConstants⟩
  exact ⟨shaped_expr hShaped, shaped_select hShaped, shaped_joinClause hShaped⟩

/-- The constants of a statement come from its tokens and from the signs in front of them. -/
theorem parse_literals (hConstants : Constants T K) (hTokens : ∀ t ∈ tokensOf text, T t) :
    ∀ x ∈ (parse options text).statements, ∀ value ∈ x.literals, K value := by
  intro x hx value hValue
  obtain ⟨f, hf, hLiteral⟩ := List.mem_filterMap.mp hValue
  exact (allShaped_of_mem hConstants hTokens x hx f hf).2 value hLiteral

/-- A statement that is read without an error has the shape that the grammar asks for, in every
fragment of it. -/
theorem parse_shaped (options : ParseOptions) (text : String) :
    ∀ x ∈ (parse options text).statements, ∀ f ∈ x.fragments, f.Shaped := fun x hx f hf =>
  (allShaped_of_mem (T := fun _ => True) (K := fun _ => True) ⟨by simp, by simp⟩
    (fun _ _ => trivial) x hx f hf).1

/-- A type that stands somewhere in the statements of a text. -/
theorem exists_type (type : ColumnType) (options : ParseOptions) (text : String)
    (h : (parse options text).statements.any (fun x => x.fragments.any fun
      | .type t => decide (t = type)
      | _ => false) = true) :
    ∃ x ∈ (parse options text).statements, Fragment.type type ∈ x.fragments := by
  obtain ⟨x, hx, hAny⟩ := List.any_eq_true.mp h
  obtain ⟨f, hf, hType⟩ := List.any_eq_true.mp hAny
  cases f with
  | type t =>
    obtain rfl := of_decide_eq_true hType
    exact ⟨x, hx, hf⟩
  | _ => cases hType

/-- The target of a cast in a query, which has a length and no scale. -/
theorem parse_shaped_sampleType :
    ∃ x ∈ (parse .standard "SELECT CAST(a AS VARCHAR(9))").statements,
      Fragment.type ⟨"VARCHAR", some 9, none⟩ ∈ x.fragments ∧
        (Fragment.type ⟨"VARCHAR", some 9, none⟩).Shaped := by
  obtain ⟨x, hx, hType⟩ := exists_type ⟨"VARCHAR", some 9, none⟩ .standard
    "SELECT CAST(a AS VARCHAR(9))" (by decide +kernel)
  exact ⟨x, hx, hType, parse_shaped .standard _ x hx _ hType⟩

end SqlKit
