import SqlKit.Proofs.Grammar.Collecting
import SqlKit.Proofs.Grammar.Taking

/-!
# The parameters of a statement are those of its source

Every reader of the grammar collects (`Collects`): the parameters of a statement read without an
error are those that stand among its tokens, each once and each with the type that it has there
(`after_statement`).
-/

namespace SqlKit.Grammar

open Parse

variable {α β : Type} {A : Account} {s : State}

/-! ## Names -/

theorem inert_of_nameOf? {t : Token} {name : String} (h : nameOf? t = some name) : Inert t := by
  constructor <;> intro hKind <;> simp [nameOf?, hKind] at h

theorem inert_of_unsigned? {t : Token} {number : Nat} (h : unsigned? t = some number) :
    Inert t := by
  constructor <;> intro hKind <;> simp [unsigned?, hKind] at h

theorem noSign_nameOf? : NoSign nameOf? := fun _ _ => inert_of_nameOf?

theorem noSign_identifierOf? : NoSign identifierOf? := by
  intro t a h
  constructor <;> intro hKind <;> simp [identifierOf?, hKind] at h

theorem noSign_unsigned? : NoSign unsigned? := fun _ _ => inert_of_unsigned?

theorem noSign_secondWord? (first : String) : NoSign (secondWord? first) := by
  intro t a h
  constructor <;> intro hKind <;> simp [secondWord?, hKind] at h

theorem noSign_literalOf? : NoSign literalOf? := by
  intro t a h
  constructor <;> intro hKind <;> simp [literalOf?, hKind] at h

theorem noSign_signOf? : NoSign signOf? := by
  intro t a h
  constructor <;> intro hKind <;> simp [signOf?, hKind] at h

theorem noSign_mulOp? : NoSign mulOp? := by
  intro t a h
  constructor <;> intro hKind <;> simp [mulOp?, hKind] at h

theorem noSign_addOp? : NoSign addOp? := by
  intro t a h
  constructor <;> intro hKind <;> simp [addOp?, hKind] at h

theorem noSign_compareOp? : NoSign compareOp? := by
  intro t a h
  constructor <;> intro hKind <;> simp [compareOp?, hKind] at h

theorem noSign_andSign? : NoSign andSign? := by
  intro t a h
  constructor <;> intro hKind <;> simp [andSign?, hKind] at h

theorem noSign_joinKind? : NoSign joinKind? := by
  intro t a h
  constructor <;> intro hKind <;> simp [joinKind?, hKind] at h

theorem noSign_joinStart? : NoSign joinStart? := by
  intro t a h
  constructor <;> intro hKind <;> simp [joinStart?, joinKind?, hKind] at h

theorem noSign_setOperator? : NoSign setOperator? := by
  intro t a h
  constructor <;> intro hKind <;> simp [setOperator?, hKind] at h

theorem quiet_name (role : NameRole) : Quiet A (name role) := .ask noSign_nameOf?

theorem quiet_dottedRest (role : NameRole) : Quiet A (dottedRest role) :=
  .chainOf (by decide) (quiet_name role)

theorem quiet_qualifiedName (role : NameRole) : Quiet A (qualifiedName role) :=
  .behind (quiet_name role) fun _ => .choose (quiet_eat (by decide))
    (.behind (quiet_name role) fun _ => .pure _) (.pure _)

theorem quiet_listedColumn : Quiet A listedColumn :=
  .behind (quiet_name _) fun _ => .behind (quiet_eatKeyword _) fun ascending => by
    cases ascending with
    | true => exact .pure _
    | false => exact .behind (quiet_eatKeyword _) fun _ => .pure _

theorem quiet_columnList : Quiet A columnList :=
  .choose (.askKind (by decide)) (.behind (.separated quiet_listedColumn) fun _ =>
    .behind (quiet_expect (by decide)) fun _ => .pure _) (.pure _)

theorem quiet_optionalColumnList : Quiet A optionalColumnList :=
  .choose (.look _) quiet_columnList (.pure _)

theorem quiet_asName? : Quiet A asName? :=
  .choose (quiet_eatKeyword _) (.behind (quiet_name _) fun _ =>
    .pure _) (.take? noSign_identifierOf?)

/-! ## Leaves of terms -/

theorem quiet_typeArguments (typeName : String) : Quiet A (typeArguments typeName) := by
  have hEnd : ∀ type : ColumnType, Quiet A (do expect .rightParen; return type) := fun _ =>
    .behind (quiet_expect (by decide)) fun _ => .pure _
  unfold typeArguments
  split
  · refine .choose (quiet_eat (by decide)) (.behind (.ask noSign_unsigned?) fun length =>
      ?_) (.pure _)
    refine .choose (quiet_eat (by decide)) ?_ (hEnd ⟨typeName, some length, none⟩)
    exact .behind (.map some (.ask noSign_unsigned?)) fun scale =>
      hEnd ⟨typeName, some length, scale⟩
  · exact .pure _

theorem quiet_columnType : Quiet A columnType := by
  rw [columnType_eq]
  exact .behind (quiet_name _) fun first => .behind (.take? (noSign_secondWord? first)) fun _ =>
    quiet_typeArguments _

/-! ### Placeholders -/

/-- What is read of a placeholder behind its question mark. -/
theorem after_placeholderBehind (mark : Token) (s : State) :
    After (placeholderBehind mark.span) s fun x s' => ∃ p, x = .placeholder p ∧
      p.number = numberBehind? mark s.tokens ∧ p.position = s.placeholders + 1 ∧
      (∃ skipped, s.tokens = skipped ++ s'.tokens ∧ ∀ u ∈ skipped, Inert u) ∧
      s'.terminator = s.terminator ∧ s'.bindings = s.bindings ∧
      s'.placeholders = s.placeholders + 1 := by
  refine After.take (fun t rest number hTokens hNumber => ?_) fun hNone => ?_
  · have hBehind : numberBehind? mark s.tokens = some number := by
      rw [hTokens, numberBehind?]
      exact hNumber
    have hInert : Inert t := by
      split at hNumber
      · exact inert_of_unsigned? hNumber
      · cases hNumber
    exact fun _ => ⟨_, rfl, hBehind.symm, rfl, ⟨[t], hTokens, by simpa using hInert⟩, rfl, rfl, rfl⟩
  · have hBehind : numberBehind? mark s.tokens = none := by
      cases hTokens : s.tokens with
      | nil => rfl
      | cons t rest => exact hNone t rest hTokens
    exact fun _ => ⟨_, rfl, hBehind.symm, rfl, ⟨[], rfl, by simp⟩, rfl, rfl, rfl⟩

theorem after_placeholder (hKind : s.current.kind = .symbol .question) :
    After placeholder s fun x s' => ∃ p, x = .placeholder p ∧ ReadsPlaceholder s p s' := by
  rw [placeholder_eq]
  refine After.look ?_
  cases hTokens : s.tokens with
  | nil =>
    have hRun : ∀ mark, (advance >>= fun _ => placeholderBehind mark).run s =
        (placeholderBehind mark).run s := fun mark => by
      rw [advance, bind_assoc, run_bind, run_take?_nil hTokens]
      rfl
    have hEnd : s.terminator.kind = .symbol .question := by
      rwa [State.current_nil hTokens] at hKind
    intro hError
    rw [hRun] at hError ⊢
    obtain ⟨p, hTerm, -, hPosition, ⟨skipped, hSkipped, hInert⟩, hRest⟩ :=
      after_placeholderBehind s.current s hError
    exact ⟨p, hTerm, fun h => absurd hEnd h, hPosition, hRest.1, hRest.2.1, hRest.2.2, skipped,
      hSkipped, fun u hu => (hInert u hu).1⟩
  | cons t rest =>
    rw [State.current_cons hTokens] at hKind ⊢
    refine After.advance hTokens (After.imp (after_placeholderBehind t _) ?_)
    rintro _ s' ⟨p, rfl, hNumber, hPosition, ⟨skipped, hSkipped, hInert⟩, hRest⟩
    refine ⟨p, rfl, fun _ => ⟨t, rest, hTokens, hKind, hNumber, skipped, hSkipped, hInert⟩,
      hPosition, hRest.1, hRest.2.1, hRest.2.2, t :: skipped, ?_, ?_⟩
    · rw [hTokens, show rest = skipped ++ s'.tokens from hSkipped, List.cons_append]
    · exact List.forall_mem_cons.mpr ⟨by simp [hKind], fun u hu => (hInert u hu).1⟩

theorem collectsAt_placeholder (hKind : s.current.kind = .symbol .question) :
    CollectsAt A [] Term.nodes placeholder s := by
  intro s₀ hBefore
  refine After.imp (after_placeholder hKind) ?_
  rintro _ s' ⟨p, rfl, hRead⟩
  exact A.trans hBefore (A.placeholder hRead)

/-! ### Named parameters -/

/-- A name that is asked for is there. -/
theorem after_name (role : NameRole) (s : State) : After (name role) s fun m s' =>
    ∃ t rest, s.tokens = t :: rest ∧ nameOf? t = some m ∧ s' = s.take t rest := by
  have hAsk : After (name role >>= pure) s fun m s' =>
      ∃ t rest, s.tokens = t :: rest ∧ nameOf? t = some m ∧ s' = s.take t rest :=
    After.ask fun t rest m hTokens hName => .pure ⟨t, rest, hTokens, hName, rfl⟩
  rwa [bind_pure] at hAsk

/-- All names behind points are read, and none is missing. -/
theorem after_dottedRest (role : NameRole) (s : State) : After (dottedRest role) s fun names s' =>
    names = dottedNames s.tokens ∧ (∀ part ∈ pointedNames s.tokens, part.isSome = true) ∧
      Skipped s s' := by
  intro hError
  simp only [dottedRest, chainOf, chain] at hError ⊢
  fun_induction chainFrom (fun t => if t.kind = .symbol .dot then some () else none)
    (fun _ => name role) s with
  | case1 s hTokens => exact ⟨by rw [hTokens]; rfl, by simp [hTokens, pointedNames], .refl s⟩
  | case2 s t rest hTokens hAccept =>
    have hPoint : t.kind ≠ .symbol .dot := by
      intro hKind
      simp [hKind] at hAccept
    rw [hTokens, pointedNames_of_ne (by simpa using hPoint)]
    refine ⟨?_, by simp, .refl s⟩
    cases rest with
    | nil => rfl
    | cons u rest => rw [dottedNames, if_neg hPoint]
  | case3 s t rest hTokens b hAccept after more ih =>
    obtain ⟨hMore, hParts, hSkipped⟩ := ih hError
    have hAfter : after.2.error = none := error_none_of_moves (moves_chainFrom _ _ _) hError
    obtain ⟨u, rest', hRest, hName, hTaken⟩ := after_name role (s.take t rest) hAfter
    obtain rfl : rest = u :: rest' := hRest
    have hPoint : t.kind = .symbol .dot := by
      by_contra hKind
      simp [hKind] at hAccept
    have hPass : Skipped (s.take t (u :: rest')) after.2 :=
      hTaken ▸ Skipped.take rfl (inert_of_nameOf? hName)
    have hLeft : after.2.tokens = rest' := congrArg State.tokens hTaken
    rw [hLeft] at hMore hParts
    rw [hTokens]
    refine ⟨?_, ?_, ((Skipped.take hTokens (by simp [Inert, hPoint])).trans hPass).trans hSkipped⟩
    · rw [dottedNames, if_pos hPoint, hName]
      exact congrArg (_ :: ·) hMore
    · rw [pointedNames, if_pos hPoint, hName]
      exact List.forall_mem_cons.mpr ⟨rfl, hParts⟩

/-- The span from a token on starts where that token does. -/
theorem first_spanFrom (mark : Span) (s : State) :
    ((spanFrom mark).run s).1.first = mark.first := by
  simp only [spanFrom, run_look]
  split
  · rfl
  · next h => rw [Span.merge, if_pos (Nat.le_of_not_lt h)]

/-- A parameter behind its sign and its name: with its own type, or with the one that is known. -/
theorem after_parameterOf (mark : Span) (name : String) (s : State) :
    After (parameterOf mark name) s fun x s' => ∃ p, x = .parameter p ∧
      Occurrence.Gives ⟨name, typeBehind? s.tokens, mark.first⟩ s.bindings p ∧
      s'.bindings = Occurrence.declare s.bindings ⟨name, typeBehind? s.tokens, mark.first⟩ ∧
      (∀ parts, typeParts? s.tokens = some parts → ∀ part ∈ parts, part.isSome = true) ∧
      (∃ skipped, s.tokens = skipped ++ s'.tokens ∧ ∀ v ∈ skipped, Inert v) ∧
      s'.terminator = s.terminator ∧ s'.placeholders = s.placeholders := by
  refine After.eatIte (fun t rest hTokens hColon => ?_) fun hNone => After.look ?_
  · refine After.bind (after_name .type _) ?_
    rintro first _ ⟨u, rest', hRest, hFirst, rfl⟩ -
    refine After.bind (after_dottedRest .type _) ?_
    rintro _ s₁ ⟨rfl, hParts, hDotted⟩ - _
    obtain rfl : rest = u :: rest' := hRest
    have hType : typeBehind? s.tokens = some (".".intercalate (first :: dottedNames rest')) := by
      rw [hTokens, typeBehind?, if_pos hColon, hFirst]
      rfl
    have hSkipped := ((Skipped.take hTokens (by simp [Inert, hColon])).trans
      (Skipped.take rfl (inert_of_nameOf? hFirst))).trans hDotted
    refine ⟨_, rfl, ⟨rfl, first_spanFrom mark _, ?_, ?_⟩, ?_, ?_, hSkipped.tokens,
      hSkipped.terminator, hSkipped.placeholders⟩
    · intro typeName hName
      rw [hType] at hName
      exact ⟨rfl, Option.some.inj hName⟩
    · intro hName
      rw [hType] at hName
      cases hName
    · rw [Occurrence.declare, hType]
      exact congrArg (_ :: ·) hSkipped.bindings
    · intro parts hSome
      have hBehind : behindName (u :: rest') = rest' := by simp [behindName, hFirst]
      rw [hTokens, typeParts?, if_pos hColon, hBehind] at hSome
      obtain rfl := Option.some.inj hSome
      exact List.forall_mem_cons.mpr ⟨by simp [nextName?, hFirst], hParts⟩
  · have hType : typeBehind? s.tokens = none := typeBehind?_eq_none hNone
    have hParts :
      ∀ parts, typeParts? s.tokens = some parts → ∀ part ∈ parts, part.isSome = true := by
      intro parts hSome
      rw [typeParts?_eq_none hNone] at hSome
      cases hSome
    split
    · next typeName hLookup =>
      intro _
      refine ⟨_, rfl, ⟨rfl, first_spanFrom mark _, ?_, fun _ => ⟨rfl, hLookup⟩⟩, ?_, hParts,
        ⟨[], rfl, by simp⟩, rfl, rfl⟩
      · intro typeName' hName
        rw [hType] at hName
        cases hName
      · rw [Occurrence.declare, hType]
        rfl
    · exact After.failUntyped

theorem after_namedParameter (hKind : s.current.kind = .symbol .atSign) :
    After namedParameter s fun x s' => ∃ p, x = .parameter p ∧ ReadsParameter s p s' := by
  rw [namedParameter_eq]
  refine After.look ?_
  cases hTokens : s.tokens with
  | nil =>
    intro hError
    simp only [advance, bind_assoc, run_bind, run_take?_nil hTokens] at hError
    have hName := error_none_of_moves ((parameterOf _ _).moves _) hError
    obtain ⟨t, rest, hCons, -⟩ := after_name .parameter s hName
    rw [hTokens] at hCons
    cases hCons
  | cons t rest =>
    rw [State.current_cons hTokens] at hKind ⊢
    refine After.advance hTokens (After.bind (after_name .parameter _) ?_)
    rintro name _ ⟨u, rest', hRest, hName, rfl⟩ -
    refine After.imp (after_parameterOf t.span name _) ?_
    rintro _ s' ⟨p, rfl, hGives, hBindings, hParts, hSkipped, hTerminator, hPlaceholders⟩
    obtain rfl : rest = u :: rest' := hRest
    refine ⟨p, rfl, ⟨t, u, rest', name, hTokens, hKind, hName, hGives, hBindings, hSkipped⟩, ?_,
      hTerminator, hPlaceholders⟩
    intro a ha
    have hBehind : behindName (u :: rest') = rest' := by simp [behindName, hName]
    rw [hTokens, attemptAt?, if_pos hKind, hBehind, Option.map_eq_some_iff] at ha
    obtain ⟨parts, hSome, rfl⟩ := ha
    exact ⟨by simp [nextName?, hName], hParts parts hSome⟩

theorem collectsAt_namedParameter (hKind : s.current.kind = .symbol .atSign) :
    CollectsAt A [] Term.nodes namedParameter s := by
  intro s₀ hBefore
  refine After.imp (after_namedParameter hKind) ?_
  rintro _ s' ⟨p, rfl, hRead⟩
  exact A.trans hBefore (A.parameter hRead)

/-! ## Terms -/

/-- The readers that the grammar comes back to collect. -/
structure Rules.Collects (A : Account) (rules : Rules) : Prop where
  expr : Grammar.Collects A [] Expr.nodes rules.expr
  select : Grammar.Collects A [] Select.nodes rules.select
  joinClause : Grammar.Collects A [] JoinClause.nodes rules.joinClause
  takes : rules.TakesPhrases

variable {rules : Rules}

theorem collects_callArguments (h : rules.Collects A) (function : String) :
    Collects A [] Term.nodes (callArguments rules function) := by
  have hEnd : ∀ {before : List Node} (x : Term), noted x.nodes = noted before →
      Collects A before Term.nodes (do expect .rightParen; return x) := fun x hx =>
    .behind (quiet_expect (by decide)) fun _ => .pure hx
  refine .choose (quiet_eat (by decide)) (hEnd _ rfl) (.choose (.look _) (hEnd _ rfl) ?_)
  refine .behind (quiet_eatKeyword _) fun _ => h.expr.separated.bind fun arguments => hEnd _ ?_
  simp [Term.nodes, Expr.nodesAll_eq, isNoted]

theorem collects_pathOrCall (h : rules.Collects A) : Collects A [] Term.nodes (pathOrCall rules) :=
  .behind (quiet_name _) fun function => .choose (quiet_eat (by decide))
    (collects_callArguments h function) (.behind (quiet_dottedRest _) fun _ => .pure rfl)

theorem collects_branch (h : rules.Collects A) : Collects A [] Branch.nodes (branch rules) :=
  h.expr.bind fun _ => .behind (quiet_expectKeyword _) fun _ => h.expr.bind fun _ => .pure rfl

theorem collects_caseBranches (h : rules.Collects A) :
    Collects A [] (List.flatMap Branch.nodes) (caseBranches rules) :=
  .choose (.look _) (.chain (noSign_kind (by simp)) fun _ => collects_branch h) .fail

theorem collectsAt_caseTerm (h : rules.Collects A) (hKind : s.current.kind = .keyword .CASE) :
    CollectsAt A [] Term.nodes (caseTerm rules) s := by
  have hOperand : Collects A [] (nodesOption Expr.nodes) (caseOperand rules) :=
    .choose (.look _) (.pure rfl) (.map h.expr fun _ => rfl)
  rw [caseTerm_eq]
  refine CollectsAt.advance (by simp [Inert, hKind]) (hOperand.bind fun operand => ?_)
  refine (collects_caseBranches h).bind fun branches => h.expr.after.bind fun otherwise => ?_
  refine .behind (quiet_expectKeyword _) fun _ => .pure ?_
  simp [Term.nodes, Expr.nodesOption_eq, Branch.nodesAll_eq, isNoted]

theorem collectsAt_castTerm (h : rules.Collects A) (hKind : s.current.kind = .keyword .CAST) :
    CollectsAt A [] Term.nodes (castTerm rules) s := by
  refine CollectsAt.advance (by simp [Inert, hKind])
    (.behind (quiet_expect (by decide)) fun _ => ?_)
  refine h.expr.bind fun _ => .behind (quiet_expectKeyword _) fun _ => ?_
  exact .behind quiet_columnType fun _ => .behind (quiet_expect (by decide)) fun _ => .pure rfl

theorem collectsAt_parenthesized (h : rules.Collects A)
    (hKind : s.current.kind = .symbol .leftParen) :
    CollectsAt A [] Term.nodes (parenthesized rules) s := by
  have hEnd : ∀ x : Term, Collects A x.nodes Term.nodes (do expect .rightParen; return x) :=
    fun x =>
    .behind (quiet_expect (by decide)) fun _ => .pure rfl
  refine CollectsAt.advance (by simp [Inert, hKind]) (.behind (.look _) fun query => ?_)
  cases query with
  | true =>
    have hQuery : Collects A [] Term.nodes (.subquery <$> rules.select) :=
      .map h.select fun _ => rfl
    exact hQuery.bind hEnd
  | false =>
    have hInner : Collects A [] Term.nodes (.paren <$> rules.expr) := .map h.expr fun _ => rfl
    exact hInner.bind hEnd

theorem collects_namedTerm (h : rules.Collects A) : Collects A [] Term.nodes (namedTerm rules) :=
  .choose (.look _) (collects_pathOrCall h) .fail

theorem collects_unsignedTerm (h : rules.Collects A) :
    Collects A [] Term.nodes (unsignedTerm rules) := by
  rw [unsignedTerm_eq]
  refine .take? noSign_literalOf? (fun _ => .pure rfl) (.look fun s => ?_)
  generalize hKind : s.current.kind = kind
  unfold termOfKind
  split
  · exact collectsAt_placeholder hKind
  · exact collectsAt_namedParameter hKind
  · exact collectsAt_parenthesized h hKind
  · exact collectsAt_caseTerm h hKind
  · exact collectsAt_castTerm h hKind
  · exact collects_namedTerm h s

/-- A sign changes no parameter. -/
theorem noted_applySign (negative : Bool) (x : Term) :
    noted (applySign negative x).nodes = noted x.nodes := by
  cases negative <;> cases x with
  | literal value => cases value <;> rfl
  | _ => rfl

theorem collects_term (h : rules.Collects A) : Collects A [] Term.nodes (term rules) := by
  refine .behind (.chain noSign_signOf? .pure) fun signs => (collects_unsignedTerm h).bind fun x =>
    .pure ?_
  induction signs with
  | nil => rfl
  | cons negative signs ih => rw [List.foldr_cons, noted_applySign, ih]

/-! ## Operands -/

theorem collects_product (h : rules.Collects A) : Collects A [] Product.nodes (product rules) :=
  .layer noSign_mulOp? (collects_term h) (fun _ => .map (collects_term h) fun _ => rfl)
    (fun _ => rfl) fun _ _ => rfl

theorem collects_sum (h : rules.Collects A) : Collects A [] Sum.nodes (sum rules) :=
  .layer noSign_addOp? (collects_product h) (fun _ => .map (collects_product h) fun _ => rfl)
    (fun _ => rfl) fun _ _ => rfl

theorem collects_operand (h : rules.Collects A) : Collects A [] Operand.nodes (operand rules) :=
  .layer (noSign_kind (by simp)) (collects_sum h) (fun _ => collects_sum h) (fun _ => rfl)
    fun _ _ => rfl

/-! ## Conditions -/

theorem collects_membership (h : rules.Collects A) (left : Operand) (negated : Bool) :
    Collects A left.nodes Condition.nodes (membership rules left negated) := by
  have hEnd : ∀ {before : List Node} (x : Condition), noted x.nodes = noted before →
      Collects A before Condition.nodes (do expect .rightParen; return x) := fun x hx =>
    .behind (quiet_expect (by decide)) fun _ => .pure hx
  refine .behind (quiet_expect (by decide)) fun _ => .behind (.look _) fun query =>
    .behind (.look _) fun empty => ?_
  cases query with
  | true =>
    simp only [↓reduceIte, map_eq_pure_bind, bind_assoc, pure_bind]
    exact h.select.bind fun _ => hEnd _ rfl
  | false =>
    cases empty with
    | true => exact hEnd _ (by simp [Condition.nodes, Expr.nodesAll_eq])
    | false =>
      simp only [Bool.false_eq_true, ↓reduceIte, map_eq_pure_bind, bind_assoc, pure_bind]
      exact h.expr.separated.bind fun _ => hEnd _ (by simp [Condition.nodes, Expr.nodesAll_eq])

theorem collects_identity (h : rules.Collects A) (left : Operand) :
    Collects A left.nodes Condition.nodes (identity rules left) :=
  .behind (quiet_eatKeyword _) fun _ => .choose (quiet_eatKeyword _) (.pure rfl)
    ((collects_operand h).bind fun _ => .pure rfl)

theorem collects_predicateNot {before : List Node} {ns : α → List Node} {f : Bool → Parse α}
    (h : ∀ negated, Collects A before ns (f negated)) :
    Collects A before ns (predicateNot >>= f) := by
  unfold predicateNot
  simp only [bind_assoc]
  intro s s₀ hBefore
  refine After.look (After.look ?_)
  split
  · next hNot =>
    have hKind : s.current.kind = .keyword .NOT := by
      rw [Bool.and_eq_true, beq_iff_eq] at hNot
      exact hNot.1
    rw [bind_assoc]
    exact CollectsAt.advance (by simp [Inert, hKind]) (h true) s₀ hBefore
  · exact h false s s₀ hBefore

theorem collects_test (h : rules.Collects A) (left : Operand) :
    Collects A left.nodes Condition.nodes (test rules left) := by
  have hOperand := collects_operand h
  refine .take? noSign_compareOp? (fun _ => hOperand.bind fun _ => .pure rfl) ?_
  refine .choose (quiet_eatKeyword _) (collects_identity h left)
    (collects_predicateNot fun negated => ?_)
  refine .choose (quiet_eatKeyword _) ?_ (.choose (quiet_eatKeyword _)
    (collects_membership h left negated)
    (.choose (quiet_eatKeyword _) ?_ (.choose (quiet_eatKeyword _) ?_ (.pure rfl))))
  · refine hOperand.bind fun low => .behind (quiet_expectKeyword _) fun _ =>
      hOperand.bind fun high => ?_
    exact .pure (by simp [Condition.nodes])
  · refine hOperand.bind fun pattern => hOperand.after.bind fun escape => ?_
    cases escape with
    | none => exact .pure (by simp [Condition.nodes, nodesOption])
    | some escape => exact .pure (by simp [Condition.nodes, nodesOption])
  · exact hOperand.bind fun _ => .pure rfl

theorem collects_plainCondition (h : rules.Collects A) :
    Collects A [] Condition.nodes (plainCondition rules) := by
  refine .choose (quiet_eatKeyword _) ?_ ((collects_operand h).bind fun left =>
    collects_test h left)
  exact .behind (quiet_expect (by decide)) fun _ => h.select.bind fun _ =>
    .behind (quiet_expect (by decide)) fun _ => .pure rfl

theorem collects_condition (h : rules.Collects A) :
    Collects A [] Condition.nodes (condition rules) := by
  refine .behind (.chain (noSign_kind (by simp)) .pure) fun negations =>
    (collects_plainCondition h).bind fun c => .pure ?_
  induction negations with
  | nil => rfl
  | cons _ negations ih => exact ih

theorem collects_conjunction (h : rules.Collects A) :
    Collects A [] Conjunction.nodes (conjunction rules) :=
  .layer noSign_andSign? (collects_condition h) (fun _ => collects_condition h) (fun _ => rfl)
    fun _ _ => rfl

theorem collects_expr (h : rules.Collects A) : Collects A [] Expr.nodes (expr rules) :=
  .layer (noSign_kind (by simp)) (collects_conjunction h) (fun _ => collects_conjunction h)
    (fun _ => rfl) fun _ _ => rfl

/-! ## Sources -/

theorem collects_parenthesizedSource (h : rules.Collects A) :
    Collects A [] Source.nodes (parenthesizedSource rules) := by
  refine .choose (.look _) (h.select.bind fun _ => ?_) (h.joinClause.bind fun _ => ?_)
  · exact .behind (quiet_expect (by decide)) fun _ => .behind quiet_asName? fun _ => .pure rfl
  · exact .behind (quiet_expect (by decide)) fun _ => .pure rfl

theorem collects_source (h : rules.Collects A) : Collects A [] Source.nodes (source rules) :=
  .choose (quiet_eat (by decide)) (collects_parenthesizedSource h)
    (.behind (quiet_qualifiedName _) fun _ => .behind quiet_asName? fun _ => .pure rfl)

theorem quiet_joinAfterKind (natural : Bool) (kind : JoinKind) :
    Quiet A (joinAfterKind natural kind) := by
  have hRest : ∀ outer : Bool, Quiet A
      (do expectKeyword .JOIN; return (⟨natural, kind, outer⟩ : JoinOperator)) := fun _ =>
    .behind (quiet_expectKeyword _) fun _ => .pure _
  cases kind with
  | left | right | full => exact .behind (quiet_eatKeyword _) hRest
  | comma | plain | inner | cross => exact hRest false

theorem quiet_joinOperator (start : JoinStart) : Quiet A (joinOperator start) := by
  cases start with
  | comma => exact .pure _
  | join => exact .pure _
  | natural => exact .behind (.take? noSign_joinKind?) fun _ => quiet_joinAfterKind _ _
  | kind kind => exact quiet_joinAfterKind _ _

theorem collects_joinConstraint (h : rules.Collects A) :
    Collects A [] JoinConstraint.nodes (joinConstraint rules) :=
  .choose (quiet_eatKeyword _) ((collects_expr h).bind fun _ => .pure rfl)
    (.choose (quiet_eatKeyword _) (.behind quiet_columnList fun _ => .pure rfl) (.pure rfl))

theorem collects_joinedSource (h : rules.Collects A) (start : JoinStart) :
    Collects A [] (fun j => j.source.nodes ++ j.constraint.nodes) (joinedSource rules start) :=
  .behind (quiet_joinOperator start) fun _ => (collects_source h).bind fun _ =>
    (collects_joinConstraint h).bind fun _ => .pure rfl

theorem collects_joinClause (h : rules.Collects A) :
    Collects A [] JoinClause.nodes (joinClause rules) :=
  .layer noSign_joinStart? (collects_source h) (collects_joinedSource h) (fun _ => rfl) fun _ _ =>
    rfl

/-! ## Bodies -/

theorem collects_resultColumn (h : rules.Collects A) :
    Collects A [] ResultColumn.nodes (resultColumn rules) := by
  refine .choose (quiet_eat (by decide)) (.pure rfl) fun s s₀ hBefore => ?_
  have hValue : Collects A [] ResultColumn.nodes
      (do let value ← expr rules; return .expr value (← asName?)) :=
    (collects_expr h).bind fun _ => .behind quiet_asName? fun _ => .pure rfl
  cases hSees : (seesTableStar.run s).1 with
  | false =>
    intro hError
    rw [run_bind, hSees] at hError ⊢
    exact hValue s s₀ hBefore hError
  | true =>
    have hTable : After (do let table ← name .table; advance; advance; return .tableStar table) s
        fun x s' => A.Explains s₀ (ResultColumn.nodes x) s' := by
      refine After.bind (after_name .table s) ?_
      rintro table _ ⟨t, rest, hTokens, hName, rfl⟩ -
      obtain ⟨u, v, more, rfl, hDot, hStar⟩ := exists_of_seesTableStar hTokens hSees
      refine After.advance rfl (After.advance rfl (After.pure ?_))
      have hPoint := (Skipped.take hTokens (inert_of_nameOf? hName)).trans
        (Skipped.take rfl (by simp [Inert, hDot]))
      exact A.trans hBefore (A.skip (hPoint.trans (Skipped.take rfl (by simp [Inert, hStar]))))
    intro hError
    rw [run_bind, hSees] at hError ⊢
    exact hTable hError

theorem collects_valueRow (h : rules.Collects A) :
    Collects A [] (List.flatMap Expr.nodes) (valueRow rules) :=
  .behind (quiet_expect (by decide)) fun _ => (collects_expr h).separated.bind fun _ =>
    .behind (quiet_expect (by decide)) fun _ => .pure rfl

theorem quiet_distinct : Quiet A distinct :=
  .choose (quiet_eatKeyword _) (.pure _) (.behind (quiet_eatKeyword _) fun _ => .pure _)

theorem collects_groupBy (h : rules.Collects A) :
    Collects A [] (List.flatMap Expr.nodes) (groupBy rules) :=
  .choose (quiet_eatKeyword _) (.behind (quiet_expectKeyword _) fun _ =>
    (collects_expr h).separated)
    (.pure rfl)

theorem collects_body (h : rules.Collects A) : Collects A [] Body.nodes (body rules) := by
  have hExpr := collects_expr h
  refine .choose (quiet_eatKeyword _) ((collects_valueRow h).separated.bind fun rows => .pure ?_) ?_
  · simp [Body.nodes, Expr.nodesRows_eq]
  · refine .behind (quiet_expectKeyword _) fun _ => .behind quiet_distinct fun _ => ?_
    refine (collects_resultColumn h).separated.bind fun _ =>
      (collects_joinClause h).after.bind fun _ => ?_
    refine hExpr.after.bind fun _ => (collects_groupBy h).bind fun _ => hExpr.after.bind fun _ =>
      .pure ?_
    simp [Body.nodes, ResultColumn.nodesAll_eq, JoinClause.nodesOption_eq, Expr.nodesOption_eq,
      Expr.nodesAll_eq]

theorem collects_compound (h : rules.Collects A) (operator : SetOperator) :
    Collects A [] (fun x => x.2.nodes) (compound rules operator) := by
  have hBody : ∀ operator : SetOperator, Collects A [] (fun x => x.2.nodes)
      (do return (operator, ← body rules)) := fun _ => (collects_body h).bind fun _ => .pure rfl
  unfold compound
  split
  · refine .behind (quiet_eatKeyword _) fun all => ?_
    cases all with
    | true => exact hBody .unionAll
    | false => exact hBody .union
  · exact hBody operator

theorem collects_bodies (h : rules.Collects A) : Collects A [] Bodies.nodes (bodies rules) :=
  .layer noSign_setOperator? (collects_body h) (collects_compound h) (fun _ => rfl) fun _ _ => rfl

/-! ## Queries -/

theorem collects_commonTable (h : rules.Collects A) :
    Collects A [] (fun t => t.query.nodes) (commonTable rules) := by
  refine .behind (quiet_name _) fun _ => .behind quiet_optionalColumnList fun _ => ?_
  refine .behind (quiet_expectKeyword _) fun _ => .behind (quiet_expect (by decide)) fun _ => ?_
  exact h.select.bind fun _ => .behind (quiet_expect (by decide)) fun _ => .pure rfl

theorem quiet_nullPlacement : Quiet A nullPlacement :=
  .choose (quiet_eatKeyword _) (.choose (quiet_eatKeyword _) (.pure _)
    (.behind (quiet_expectKeyword _) fun _ => .pure _)) (.pure _)

theorem quiet_direction : Quiet A direction :=
  .choose (quiet_eatKeyword _) (.pure _) (.behind (quiet_eatKeyword _) fun _ => .pure _)

theorem collects_orderTerm (h : rules.Collects A) :
    Collects A [] (fun t => t.key.nodes) (orderTerm rules) :=
  (collects_expr h).bind fun _ => .behind quiet_direction fun _ =>
    .behind quiet_nullPlacement fun _ =>
    .pure rfl

theorem collects_orderBy (h : rules.Collects A) :
    Collects A [] (List.flatMap fun t => t.key.nodes) (orderBy rules) :=
  .choose (quiet_eatKeyword _)
    (.behind (quiet_expectKeyword _) fun _ => (collects_orderTerm h).separated) (.pure rfl)

theorem collects_limit (h : rules.Collects A) : Collects A [] Limit.nodes (limit rules) := by
  intro s s₀ hBefore
  have hNone : noted Limit.none.nodes = noted [] := rfl
  refine After.eatIte (fun t rest hTokens hLimit => ?_) fun _ => .pure (A.congr hNone hBefore)
  have hStart : A.Explains s [] (s.take t rest) := A.skip (.take hTokens (by simp [Inert, hLimit]))
  have hFirst : After (expr rules) (s.take t rest) fun e s' => A.Explains s e.nodes s' ∧
      ∃ ts, rest = ts ++ s'.tokens ∧ Phrase 0 true ts := fun hError =>
    ⟨collects_expr h _ s hStart hError, takes_expr h.takes _ hError⟩
  -- The two expressions of a limit are told apart only at its end.
  refine After.bind hFirst ?_
  rintro first s₁ ⟨hExplains, ts, hSplit, hPhrase⟩ -
  have hSecond : ∀ {u : Token} {more : List Token}, After (expr rules) (s₁.take u more) fun e s' =>
      A.Explains (s₁.take u more) e.nodes s' := collects_expr h _ _ (A.refl _)
  have hSkip : ∀ {u : Token} {more : List Token}, s₁.tokens = u :: more → Inert u →
      A.Explains s first.nodes (s₁.take u more) := fun hMore hInert => by
    have hBoth := A.trans hExplains (A.skip (.take hMore hInert))
    rwa [List.append_nil] at hBoth
  refine After.eatIte (fun u more hMore hKind => ?_) fun _ => ?_
  · refine After.bind hSecond fun second s' hBehind _ => .pure ?_
    exact A.trans hBefore (A.window (hSkip hMore (by simp [Inert, hKind])) hBehind)
  · refine After.eatIte (fun u more hMore hKind => ?_) fun _ => .pure ?_
    · refine After.bind hSecond fun second s' hBehind _ => .pure ?_
      have hComma : CommaLimit s (s₁.take u more) :=
        ⟨t, ts, u, by rw [hTokens, hSplit, hMore]; rfl, hLimit, hPhrase, hKind⟩
      exact A.trans hBefore (A.comma hComma (hSkip hMore (by simp [Inert, hKind])) hBehind)
    · exact A.trans hBefore (A.congr (by simp [isNoted]) hExplains)

theorem collects_select (h : rules.Collects A) : Collects A [] Select.nodes (select rules) := by
  have hParts : ∀ (recursive : Bool) (tables : List CommonTable) (before : List Node),
      before = tables.flatMap (fun t => t.query.nodes) → ∀ span,
      Collects A before (fun f : Span → Select => (f span).nodes) (do
        let bodies ← bodies rules
        let orderBy ← orderBy rules
        let limit ← limit rules
        return fun span => (⟨recursive, tables, bodies, orderBy, limit, span⟩ : Select)) := by
    rintro recursive tables _ rfl span
    refine (collects_bodies h).bind fun _ => (collects_orderBy h).bind fun _ => ?_
    refine (collects_limit h).bind fun _ => .pure ?_
    simp [Select.nodes, CommonTable.nodesAll_eq, OrderTerm.nodesAll_eq]
  refine .spanned fun span => .behind (quiet_eatKeyword _) fun hasTables => ?_
  cases hasTables with
  | true =>
    exact .behind (quiet_eatKeyword _) fun recursive => (collects_commonTable h).separated.bind
      fun tables => hParts recursive tables _ rfl span
  | false => exact hParts false [] _ rfl span

/-- The readers that come back to themselves any number of times collect. -/
theorem collects_upTo (depth : Nat) : (Rules.upTo depth).Collects A := by
  induction depth with
  | zero => exact ⟨.pure rfl, .pure rfl, .pure rfl, takes_upTo 0⟩
  | succ depth ih =>
    exact ⟨collects_expr ih, collects_select ih, collects_joinClause ih, takes_upTo (depth + 1)⟩

/-! ## Tables -/

theorem quiet_signed (expected : Expected) : Quiet A (signed expected) := by
  refine .behind (quiet_eat (by decide)) fun negative => .ask fun t value hAccept => ?_
  constructor <;> intro hKind <;> simp [hKind] at hAccept

theorem quiet_sequence : Quiet A sequence := by
  have hEnd : ∀ sequence : Sequence, Quiet A (do expect .rightParen; return some sequence) :=
    fun _ =>
    .behind (quiet_expect (by decide)) fun _ => .pure _
  refine .choose (quiet_eat (by decide)) (.behind (quiet_signed _) fun start => ?_) (.pure _)
  exact .choose (quiet_eat (by decide)) (.behind (quiet_signed _) fun step => hEnd ⟨start, step⟩)
    (hEnd ⟨start, 1⟩)

theorem quiet_nullability : Quiet A nullability :=
  .choose (quiet_eatKeyword _) (.behind (quiet_expectKeyword _) fun _ => .pure _)
    (.choose (quiet_eatKeyword _) (.pure _) (.pure _))

theorem quiet_numbering (implied : Bool) : Quiet A (numbering implied) :=
  .choose (quiet_eatKeyword _) (.behind quiet_sequence fun _ => .pure _)
    (.choose (quiet_eatKeyword _) (.behind quiet_sequence fun _ => .pure _) (.pure _))

theorem quiet_columnKey : Quiet A columnKey :=
  .choose (quiet_eatKeyword _) (.behind (quiet_expectKeyword _) fun _ =>
    .behind (quiet_eatKeyword _) fun _ => .pure _) (.pure _)

theorem collects_checkCondition (h : rules.Collects A) :
    Collects A [] Expr.nodes (checkCondition rules) :=
  .behind (quiet_expect (by decide)) fun _ => (collects_expr h).bind fun _ =>
    .behind (quiet_expect (by decide)) fun _ => .pure rfl

theorem collects_columnRest (h : rules.Collects A) (name : String) (first : Span) :
    Collects A [] ColumnDefinition.nodes (columnRest rules name first) := by
  refine .behind quiet_columnType fun _ => (collects_term h).after.bind fun _ => ?_
  refine .behind quiet_nullability fun _ => .behind (quiet_numbering _) fun _ => ?_
  refine .behind (quiet_eatKeyword _) fun _ => .behind quiet_columnKey fun _ => ?_
  exact (collects_checkCondition h).after.bind fun _ => .behind (.look _) fun _ => .pure rfl

theorem collects_columnDefinition (h : rules.Collects A) :
    Collects A [] ColumnDefinition.nodes (columnDefinition rules) :=
  .behind (.look _) fun _ => .behind (quiet_name _) fun name => collects_columnRest h name _

theorem quiet_referentialAction : Quiet A referentialAction := by
  refine .choose (quiet_eatKeyword _) (.pure _) (.choose (quiet_eatKeyword _) (.pure _) ?_)
  refine .choose (quiet_eatKeyword _) (.behind (quiet_expectKeyword _) fun _ => .pure _) ?_
  refine .choose (quiet_eatKeyword _) (.choose (quiet_eatKeyword _) (.pure _) ?_) .fail
  exact .behind (quiet_expectKeyword _) fun _ => .pure _

theorem quiet_onClause : Quiet A onClause :=
  .choose (quiet_eatKeyword _) (.behind quiet_referentialAction fun _ => .pure _)
    (.choose (.askKind (by simp)) (.behind quiet_referentialAction fun _ => .pure _) (.pure _))

theorem quiet_reference : Quiet A reference := by
  refine .behind (quiet_expectKeyword _) fun _ => .behind (quiet_qualifiedName _) fun _ => ?_
  refine .behind quiet_optionalColumnList fun _ => ?_
  exact .behind (.chain (noSign_kind (by simp)) fun _ => quiet_onClause) fun _ => .pure _

theorem collects_demand (h : rules.Collects A) : Collects A [] Demand.nodes (demand rules) := by
  refine .choose (quiet_eatKeyword _) (.behind (quiet_expectKeyword _) fun _ =>
    .behind (quiet_eatKeyword _) fun _ => .behind quiet_columnList fun _ => .pure rfl) ?_
  refine .choose (quiet_eatKeyword _) (.behind (quiet_eatKeyword _) fun _ =>
    .behind quiet_columnList fun _ => .pure rfl) ?_
  refine .choose (quiet_eatKeyword _) ((collects_checkCondition h).bind fun _ => .pure rfl) ?_
  refine .choose (quiet_eatKeyword _) (.behind (quiet_expectKeyword _) fun _ => ?_) .fail
  exact .behind quiet_columnList fun _ => .behind quiet_reference fun _ => .pure rfl

theorem collects_tableConstraint (h : rules.Collects A) :
    Collects A [] (fun c => c.demand.nodes) (tableConstraint rules) :=
  .spanned fun _ => .behind (.after (quiet_name _)) fun _ => (collects_demand h).bind fun _ =>
    .pure rfl

theorem collects_tableElement (h : rules.Collects A) :
    Collects A [] TableElement.nodes (tableElement rules) :=
  .choose (.look _) ((collects_columnDefinition h).bind fun _ => .pure rfl)
    ((collects_tableConstraint h).bind fun _ => .pure rfl)

theorem collects_tableElements (h : rules.Collects A) :
    Collects A [] (List.flatMap TableElement.nodes) (tableElements rules) :=
  .choose (.askKind (by decide)) ((collects_tableElement h).separated.bind fun _ =>
    .behind (quiet_expect (by decide)) fun _ => .pure rfl) (.pure rfl)

theorem quiet_temporary : Quiet A temporary :=
  .choose (quiet_eatKeyword _) (.pure _) (quiet_eatKeyword _)

theorem quiet_ifNotExists : Quiet A ifNotExists :=
  .choose (quiet_eatKeyword _) (.behind (quiet_expectKeyword _) fun _ =>
    .behind (quiet_expectKeyword _) fun _ => .pure _) (.pure _)

theorem quiet_wordPair (first second : Keyword) : Quiet A (wordPair first second) :=
  .choose (quiet_eatKeyword _) (.behind (quiet_expectKeyword _) fun _ => .pure _) (.pure _)

theorem collects_createTable (h : rules.Collects A) :
    Collects A [] (fun t => t.elements.flatMap TableElement.nodes) (createTable rules) := by
  refine .spanned fun _ => .behind (quiet_expectKeyword _) fun _ =>
    .behind quiet_temporary fun _ => ?_
  refine .behind (quiet_expectKeyword _) fun _ => .behind quiet_ifNotExists fun _ => ?_
  refine .behind (quiet_qualifiedName _) fun _ => (collects_tableElements h).bind fun _ => ?_
  exact .behind (quiet_wordPair _ _) fun _ => .pure rfl

theorem collects_addition (h : rules.Collects A) :
    Collects A [] AlterAction.nodes (addition rules) :=
  .choose (.look _) ((collects_tableConstraint h).bind fun _ => .pure rfl)
    (.behind (quiet_eatKeyword _) fun _ => (collects_columnDefinition h).bind fun _ => .pure rfl)

theorem collects_columnChange (h : rules.Collects A) (column : String) (first : Span) :
    Collects A [] ColumnChange.nodes (columnChange rules column first) := by
  have hPlain : ∀ (word : Keyword) (change : ColumnChange), change.nodes = [] →
      Collects A [] ColumnChange.nodes (do expectKeyword word; return change) :=
        fun word change hNodes =>
    .behind (quiet_expectKeyword word) fun _ => .pure (congrArg noted hNodes)
  refine .choose (quiet_eatKeyword _) ?_ (.choose (quiet_eatKeyword _) ?_
    (.choose (quiet_eatKeyword _) ?_ ((collects_columnRest h column first).bind fun _ =>
      .pure rfl)))
  · exact .behind (quiet_expectKeyword _) fun _ => .behind (quiet_name _) fun _ => .pure rfl
  · refine .choose (quiet_eatKeyword _) ((collects_term h).bind fun _ => .pure rfl) ?_
    exact .choose (quiet_eatKeyword _) (hPlain _ _ rfl) (hPlain _ _ rfl)
  · exact .choose (quiet_eatKeyword _) (.pure rfl) (.behind (quiet_expectKeyword _) fun _ =>
      hPlain _ _ rfl)

theorem collects_alteration (h : rules.Collects A) :
    Collects A [] AlterAction.nodes (alteration rules) := by
  have hBehind : Collects A [] AlterAction.nodes (do
      let first := (← current).span
      let column ← name .column
      return .alterColumn column (← columnChange rules column first)) :=
    .behind (.look _) fun _ => .behind (quiet_name _) fun column =>
      (collects_columnChange h column _).bind fun _ => .pure rfl
  intro s s₀ hBefore
  refine After.look (After.look ?_)
  split
  · next hColumn =>
    have hKind : s.current.kind = .keyword .COLUMN := by
      rw [Bool.and_eq_true, beq_iff_eq] at hColumn
      exact hColumn.1
    exact CollectsAt.advance (by simp [Inert, hKind]) hBehind s₀ hBefore
  · exact hBehind s s₀ hBefore

theorem collects_removal : Collects A [] AlterAction.nodes removal :=
  .choose (quiet_eatKeyword _) (.behind (quiet_name _) fun _ => .pure rfl)
    (.choose (quiet_eatKeyword _) (.behind (quiet_expectKeyword _) fun _ => .pure rfl)
      (.behind (quiet_eatKeyword _) fun _ => .behind (quiet_name _) fun _ => .pure rfl))

theorem collects_renameAction : Collects A [] AlterAction.nodes renameAction :=
  .choose (quiet_eatKeyword _) (.behind (quiet_name _) fun _ => .pure rfl)
    (.behind (quiet_eatKeyword _) fun _ => .behind (quiet_name _) fun _ =>
      .behind (quiet_expectKeyword _) fun _ => .behind (quiet_name _) fun _ => .pure rfl)

theorem collects_alterAction (h : rules.Collects A) :
    Collects A [] AlterAction.nodes (alterAction rules) :=
  .choose (quiet_eatKeyword _) (collects_addition h) (.choose (quiet_eatKeyword _)
    (collects_alteration h)
    (.choose (quiet_eatKeyword _) collects_removal (.choose
      (quiet_eatKeyword _) collects_renameAction
      .fail)))

theorem collects_alterTable (h : rules.Collects A) :
    Collects A [] (fun t => t.action.nodes) (alterTable rules) := by
  refine .spanned fun _ => .behind (quiet_expectKeyword _) fun _ =>
    .behind (quiet_expectKeyword _) fun _ => ?_
  exact .behind (quiet_qualifiedName _) fun _ => (collects_alterAction h).bind fun _ => .pure rfl

theorem quiet_dropBehavior : Quiet A dropBehavior :=
  .choose (quiet_eatKeyword _) (.pure _) (.choose (quiet_eatKeyword _) (.pure _) (.pure _))

theorem quiet_dropTable : Quiet A dropTable := by
  refine .spanned fun _ => .behind (quiet_expectKeyword _) fun _ =>
    .behind (quiet_expectKeyword _) fun _ => ?_
  refine .behind (quiet_wordPair _ _) fun _ =>
    .behind (.separated (quiet_qualifiedName _)) fun _ => ?_
  exact .behind quiet_dropBehavior fun _ => .pure rfl

/-! ## Rows -/

theorem quiet_conflictResolution : Quiet A conflictResolution := by
  refine .choose (quiet_eatKeyword _) (.ask fun t r hAccept => ?_) (.pure _)
  constructor <;> intro hKind <;> simp [resolutionOf?, hKind] at hAccept

theorem collects_insertSource (h : rules.Collects A) :
    Collects A [] InsertSource.nodes (insertSource rules) :=
  .choose (quiet_eatKeyword _) ((collects_valueRow h).separated.bind fun _ => .pure rfl)
    (.choose (quiet_eatKeyword _) (.behind (quiet_expectKeyword _) fun _ => .pure rfl)
      ((collects_select h).bind fun _ => .pure rfl))

theorem quiet_insertMode : Quiet A insertMode :=
  .choose (quiet_eatKeyword _) (.pure _) (.behind (quiet_expectKeyword _) fun _ =>
    .behind quiet_conflictResolution fun _ => .pure _)

theorem collects_insert (h : rules.Collects A) :
    Collects A [] (fun i => i.source.nodes) (insert rules) := by
  refine .spanned fun _ => .behind quiet_insertMode fun _ =>
    .behind (quiet_expectKeyword _) fun _ => ?_
  refine .behind (quiet_qualifiedName _) fun _ => .behind quiet_optionalColumnList fun _ => ?_
  exact (collects_insertSource h).bind fun _ => .pure rfl

theorem collects_assignment (h : rules.Collects A) :
    Collects A [] (fun a => a.value.nodes) (assignment rules) :=
  .behind (quiet_name _) fun _ => .behind (quiet_expect (by decide)) fun _ =>
    (collects_expr h).bind fun _ => .pure rfl

theorem collects_update (h : rules.Collects A) : Collects A [] Update.nodes (update rules) := by
  refine .spanned fun _ => .behind (quiet_expectKeyword _) fun _ =>
    .behind quiet_conflictResolution fun _ => ?_
  refine .behind (quiet_qualifiedName _) fun _ => .behind (quiet_expectKeyword _) fun _ => ?_
  exact (collects_assignment h).separated.bind fun _ => (collects_expr h).after.bind fun _ =>
    .pure rfl

theorem collects_delete (h : rules.Collects A) :
    Collects A [] (fun d => nodesOption Expr.nodes d.condition) (delete rules) := by
  refine .spanned fun _ => .behind (quiet_expectKeyword _) fun _ =>
    .behind (quiet_expectKeyword _) fun _ => ?_
  exact .behind (quiet_qualifiedName _) fun _ => (collects_expr h).after.bind fun _ => .pure rfl

/-! ## Statements -/

theorem collects_statementOfKind (h : rules.Collects A) :
    Collects A [] Statement.nodes (statementOfKind rules) := by
  refine .behind (.look _) fun kind => ?_
  split
  · exact .map (collects_createTable h) fun _ => rfl
  · exact .map (collects_alterTable h) fun _ => rfl
  · exact .map quiet_dropTable fun _ => rfl
  · exact .map (collects_insert h) fun _ => rfl
  · exact .map (collects_insert h) fun _ => rfl
  · exact .map (collects_update h) fun _ => rfl
  · exact .map (collects_delete h) fun _ => rfl
  · exact .map (collects_select h) fun _ => rfl

/-- A statement that is read without an error keeps an account of all its tokens. -/
theorem after_statement (A : Account) (h : rules.Collects A) {s : State}
    (hInside : ∀ t ∈ s.tokens, endsStatement t = false) :
    After (statement rules) s fun x s' => A.Explains s x.nodes s' ∧ s'.tokens = [] := by
  have hExplains : After (statement rules) s fun x s' => A.Explains s x.nodes s' := by
    refine After.bind (collects_statementOfKind h s s (A.refl s)) fun x s' hExplains _ => ?_
    refine After.look ?_
    cases s'.atEnd with
    | true => exact After.pure hExplains
    | false => exact After.fail
  exact fun hError => ⟨hExplains hError, tokens_statement rules hInside hError⟩

/-! ## Named parameters -/

/-- Between two states these parameters stand, and they alone declare what is declared there. -/
def Collected (s s' : State) (ps : List NamedParameter) : Prop :=
  ∃ os, occurrences s.tokens = os ++ occurrences s'.tokens ∧ Bound s.bindings os ps ∧
    s'.bindings = declarations s.bindings os

theorem Collected.trans {s s' s'' : State} {ps qs : List NamedParameter} (h : Collected s s' ps)
    (h' : Collected s' s'' qs) : Collected s s'' (ps ++ qs) := by
  obtain ⟨os, hSplit, hBound, hBindings⟩ := h
  obtain ⟨os', hSplit', hBound', hBindings'⟩ := h'
  refine ⟨os ++ os', ?_, hBound.append (hBindings ▸ hBound'), ?_⟩
  · rw [hSplit, hSplit', List.append_assoc]
  · rw [hBindings', hBindings, declarations_append]

theorem parametersOf_noted (ns : List Node) : parametersOf (noted ns) = parametersOf ns := by
  rw [parametersOf, noted, List.filterMap_filter, parametersOf]
  refine List.filterMap_congr fun n _ => ?_
  rcases n with x | l
  · cases x <;> rfl
  · cases l <;> rfl

/-- The parameters with a name, each with the type that it has where it stands. -/
def Account.parameters : Account where
  Explains s ns s' := ∃ ps, (parametersOf ns).Perm ps ∧ Collected s s' ps
  skip h := by
    obtain ⟨skipped, hTokens, hInert⟩ := h.tokens
    refine ⟨[], .refl _, [], ?_, .nil _, h.bindings⟩
    rw [hTokens, occurrences_append_of_ne fun t ht => (hInert t ht).1]
    rfl
  trans := by
    rintro s s' s'' ns ms ⟨ps, hPerm, hCollected⟩ ⟨qs, hPerm', hCollected'⟩
    rw [parametersOf_append]
    exact ⟨ps ++ qs, hPerm.append hPerm', hCollected.trans hCollected'⟩
  congr := by
    rintro s s' ns ms hNoted ⟨ps, hPerm, hCollected⟩
    refine ⟨ps, ?_, hCollected⟩
    rwa [← parametersOf_noted, hNoted, parametersOf_noted]
  placeholder h := by
    obtain ⟨skipped, hTokens, hSigns⟩ := h.signs
    refine ⟨[], .refl _, [], ?_, .nil _, h.bindings⟩
    rw [hTokens, occurrences_append_of_ne hSigns]
    rfl
  parameter := by
    rintro s s' p ⟨⟨t, u, rest, name, hTokens, hKind, hName, hGives, hBindings, skipped, hSkipped,
      hInert⟩, -, -, -⟩
    refine ⟨[p], .refl _, [_], ?_, .cons hGives (.nil _), hBindings⟩
    rw [hTokens, occurrences, occurrenceAt?, if_pos hKind, hName,
      occurrences_cons (ne_atSign_of_nameOf? hName), hSkipped,
      occurrences_append_of_ne fun t ht => (hInert t ht).1]
    rfl
  window := by
    rintro s s' s'' count offset ⟨ps, hPerm, hCollected⟩ ⟨qs, hPerm', hCollected'⟩
    refine ⟨ps ++ qs, ?_, hCollected.trans hCollected'⟩
    simpa [Limit.nodes, Node.parameter?] using hPerm.append hPerm'
  comma := by
    rintro s s' s'' count offset - ⟨ps, hPerm, hCollected⟩ ⟨qs, hPerm', hCollected'⟩
    refine ⟨ps ++ qs, ?_, hCollected.trans hCollected'⟩
    have hBoth := List.perm_append_comm.trans (hPerm.append hPerm')
    simpa [Limit.nodes, Node.parameter?] using hBoth

/-- A statement that is read without an error has just the parameters that stand among its tokens,
and behind it just what they declare is known in addition. -/
theorem after_statement_parameters (h : rules.Collects .parameters) {s : State}
    (hInside : ∀ t ∈ s.tokens, endsStatement t = false) :
    After (statement rules) s fun x s' =>
      (∃ ps, x.parameters.Perm ps ∧ Bound s.bindings (occurrences s.tokens) ps) ∧
        s'.bindings = declarations s.bindings (occurrences s.tokens) := by
  refine After.imp (after_statement .parameters h hInside) ?_
  rintro x s' ⟨⟨ps, hPerm, os, hSplit, hBound, hBindings⟩, hTokens⟩
  rw [hTokens, occurrences, List.append_nil] at hSplit
  exact ⟨⟨ps, hPerm, hSplit ▸ hBound⟩, hSplit ▸ hBindings⟩

/-! ## Declarations -/

/-- Of the declarations between two states none misses a name. -/
def DeclaresInFull (s s' : State) : Prop :=
  ∃ as, attempts s.tokens = as ++ attempts s'.tokens ∧ ∀ a ∈ as, a.Complete

theorem DeclaresInFull.of_skipped {s s' : State} {skipped : List Token}
    (hTokens : s.tokens = skipped ++ s'.tokens) (h : ∀ t ∈ skipped, t.kind ≠ .symbol .atSign) :
    DeclaresInFull s s' :=
  ⟨[], by rw [hTokens, attempts_append_of_ne h]; rfl, by simp⟩

theorem DeclaresInFull.trans {s s' s'' : State} (h : DeclaresInFull s s')
    (h' : DeclaresInFull s' s'') : DeclaresInFull s s'' := by
  obtain ⟨as, hSplit, hComplete⟩ := h
  obtain ⟨bs, hSplit', hComplete'⟩ := h'
  refine ⟨as ++ bs, ?_, List.forall_mem_append.mpr ⟨hComplete, hComplete'⟩⟩
  rw [hSplit, hSplit', List.append_assoc]

/-- The declarations that stand there are all complete. -/
def Account.declarations : Account where
  Explains s _ s' := DeclaresInFull s s'
  skip h := by
    obtain ⟨skipped, hTokens, hInert⟩ := h.tokens
    exact .of_skipped hTokens fun t ht => (hInert t ht).1
  trans h h' := h.trans h'
  congr _ h := h
  placeholder h := by
    obtain ⟨skipped, hTokens, hSigns⟩ := h.signs
    exact .of_skipped hTokens hSigns
  parameter := by
    rintro s s' p ⟨⟨t, u, rest, name, hTokens, hKind, hName, -, -, skipped, hSkipped, hInert⟩,
      hComplete, -, -⟩
    refine ⟨(attemptAt? s.tokens).toList, ?_, fun a ha => hComplete a (Option.mem_toList.mp ha)⟩
    rw [hTokens, attempts, attempts_cons (ne_atSign_of_nameOf? hName), hSkipped,
      attempts_append_of_ne fun t ht => (hInert t ht).1]
  window h h' := h.trans h'
  comma _ h h' := h.trans h'

/-- In a statement that is read without an error no declaration misses a name. -/
theorem after_statement_attempts (h : rules.Collects .declarations) {s : State}
    (hInside : ∀ t ∈ s.tokens, endsStatement t = false) :
    After (statement rules) s fun _ _ => ∀ a ∈ attempts s.tokens, a.Complete := by
  refine After.imp (after_statement .declarations h hInside) ?_
  rintro x s' ⟨⟨as, hSplit, hComplete⟩, hTokens⟩
  rw [hSplit, hTokens]
  simpa [attempts] using hComplete

end SqlKit.Grammar
