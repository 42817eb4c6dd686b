import SqlKit.Proofs.Grammar.Phrases

/-!
# Every reader takes a phrase

The readers of the grammar, from those of names up to that of a statement, take phrases
(`TakesPhrase`).

* `takes_upTo`: so do the readers that come back to themselves any number of times.
* `after_statement_phrase`: the tokens of a statement that is read without an error are a phrase.
-/

namespace SqlKit.Grammar

open Parse

variable {α β : Type} {k : Nat} {free : Bool} {s : State}

/-! ## What is accepted -/

theorem neutrally_nameOf? : Neutrally nameOf? := by
  intro t name h
  unfold nameOf? at h
  split at h
  · next hKind => rw [hKind]; rfl
  · next hKind => rw [hKind]; rfl
  · cases h

theorem neutrally_identifierOf? : Neutrally identifierOf? := fun t name h =>
  neutrally_nameOf? t name (nameOf?_of_identifierOf? h)

/-- Where no integer, no parenthesis and no question mark is accepted, only neutral tokens are. -/
theorem neutrally_of_none {accept : Token → Option α} (h : ∀ t, (∃ n, t.kind = .integer n) ∨
    t.kind = .symbol .leftParen ∨ t.kind = .symbol .rightParen ∨ t.kind = .symbol .question →
      accept t = none) : Neutrally accept := fun t _ hAccept =>
  t.kind.isNeutral_or.resolve_right fun hKind => nomatch hAccept.symm.trans (h t hKind)

theorem neutrally_secondWord? (first : String) : Neutrally (secondWord? first) :=
  neutrally_of_none fun t h => by rcases h with ⟨n, h⟩ | h | h | h <;> rw [secondWord?, h]

theorem neutrally_signOf? : Neutrally signOf? :=
  neutrally_of_none fun t h => by rcases h with ⟨n, h⟩ | h | h | h <;> rw [signOf?, h]

theorem neutrally_mulOp? : Neutrally mulOp? :=
  neutrally_of_none fun t h => by rcases h with ⟨n, h⟩ | h | h | h <;> rw [mulOp?, h]

theorem neutrally_addOp? : Neutrally addOp? :=
  neutrally_of_none fun t h => by rcases h with ⟨n, h⟩ | h | h | h <;> rw [addOp?, h]

theorem neutrally_compareOp? : Neutrally compareOp? :=
  neutrally_of_none fun t h => by rcases h with ⟨n, h⟩ | h | h | h <;> rw [compareOp?, h]

theorem neutrally_andSign? : Neutrally andSign? :=
  neutrally_of_none fun t h => by rcases h with ⟨n, h⟩ | h | h | h <;> rw [andSign?, h]

theorem neutrally_joinKind? : Neutrally joinKind? :=
  neutrally_of_none fun t h => by rcases h with ⟨n, h⟩ | h | h | h <;> rw [joinKind?, h]

theorem neutrally_joinStart? : Neutrally joinStart? :=
  neutrally_of_none fun t h => by
    rcases h with ⟨n, h⟩ | h | h | h <;> simp [joinStart?, joinKind?, h]

theorem neutrally_setOperator? : Neutrally setOperator? :=
  neutrally_of_none fun t h => by rcases h with ⟨n, h⟩ | h | h | h <;> rw [setOperator?, h]

theorem neutrally_resolutionOf? : Neutrally fun t => (resolutionOf? t).map some :=
  neutrally_of_none fun t h => by rcases h with ⟨n, h⟩ | h | h | h <;> simp [resolutionOf?, h]

theorem numerically_unsigned? : Numerically unsigned? := by
  intro t number h
  unfold unsigned? at h
  split at h
  · next n hKind => exact ⟨n, hKind⟩
  · cases h

theorem exists_integer_of_numberBehind? {t u : Token} {ts : List Token} {n : Nat}
    (h : numberBehind? t (u :: ts) = some n) : ∃ m, u.kind = .integer m := by
  rw [numberBehind?] at h
  split at h
  · exact numerically_unsigned? u n h
  · cases h

/-! ## Names -/

theorem TakesPhrase.name {role : NameRole} {f : String → Parse β}
    (h : ∀ name, TakesPhrase k true (f name)) :
    TakesPhrase k free (Parse.name role >>= f) := .ask neutrally_nameOf? h

theorem takes_name (role : NameRole) : TakesPhrase 0 free (name role) := .asked neutrally_nameOf?

theorem takes_dottedRest (role : NameRole) : TakesPhrase 0 free (dottedRest role) :=
  .chainOf rfl (takes_name role)

theorem takes_qualifiedName (role : NameRole) : TakesPhrase 0 free (qualifiedName role) :=
  .name fun _ => .choose rfl (.name fun _ => .pure _) (.pure _)

theorem takes_listedColumn : TakesPhrase 0 free listedColumn :=
  .name fun _ => .eat rfl (.pure _) (.eat rfl (.pure _) (.pure _))

theorem takes_columnList : TakesPhrase 0 free columnList :=
  .askParen (takes_listedColumn.separated.bind fun _ => .closeParen (.pure _))

theorem takes_optionalColumnList : TakesPhrase 0 free optionalColumnList :=
  .sees takes_columnList (.pure _)

theorem takes_asName? : TakesPhrase 0 free asName? :=
  .choose rfl (.name fun _ => .pure _) (.taken? neutrally_identifierOf?)

/-! ## Leaves of terms -/

theorem takes_typeArguments (typeName : String) : TakesPhrase 0 free (typeArguments typeName) := by
  have hNumber : ∀ expected : Expected, TakesPhrase 0 true (ask expected 0 unsigned?) := fun _ =>
    .askNumber numerically_unsigned?
  unfold typeArguments
  split
  · refine .chooseParen ((hNumber .length).bind fun length => ?_) (.pure _)
    refine .choose rfl ?_ (.closeParen (.pure _))
    exact (TakesPhrase.map some (hNumber .scale)).bind fun scale => .closeParen (.pure _)
  · exact .pure _

theorem takes_columnType : TakesPhrase 0 free columnType := by
  rw [columnType_eq]
  refine .name fun first => .take? (neutrally_secondWord? first) (fun _ => ?_) ?_
  · exact takes_typeArguments _
  · exact takes_typeArguments _

/-- A question mark, and the number that touches it. -/
theorem takesAt_placeholder (hKind : s.current.kind = .symbol .question) :
    TakesPhraseAt 0 free placeholder s := by
  rw [placeholder_eq]
  refine After.look ?_
  have hCounted : ∀ (number : Option Nat) (s' : State), TakesPhraseAt 0 false
      (do return Term.placeholder ⟨number, ← nextPlaceholder⟩) s' := fun number s' _ =>
    ⟨[], rfl, .nil⟩
  cases hTokens : s.tokens with
  | nil =>
    refine After.advance_nil hTokens (After.take (fun t rest a hCons => ?_) fun _ => ?_)
    · cases hTokens.symm.trans hCons
    · exact hTokens ▸ (hCounted none s).imp fun _ _ ⟨ts, hRest, hPhrase⟩ =>
        ⟨ts, hRest, hPhrase.of_bound _⟩
  | cons t rest =>
    rw [State.current_cons hTokens] at hKind ⊢
    refine After.advance hTokens (After.take (fun u more number hMore hNumber => ?_) fun _ => ?_)
    · refine (hCounted (some number) _).imp fun _ s' ⟨ts, hRest, hPhrase⟩ => ?_
      obtain rfl : rest = u :: more := hMore
      obtain rfl : more = ts ++ s'.tokens := hRest
      exact ⟨t :: u :: ts, rfl, .numbered hKind hNumber hPhrase⟩
    · refine (hCounted none _).imp fun _ s' ⟨ts, hRest, hPhrase⟩ => ?_
      obtain rfl : rest = ts ++ s'.tokens := hRest
      exact ⟨t :: ts, rfl, .question hKind hPhrase⟩

theorem takes_parameterOf (mark : Span) (name : String) :
    TakesPhrase 0 free (parameterOf mark name) := by
  refine .choose rfl (.name fun first => ?_) (.look fun known => ?_)
  · refine (takes_dottedRest _).bind fun names => .still (fun _ => rfl) fun _ => ?_
    exact .look fun _ => .pure _
  · cases known with
    | some typeName => exact .look fun _ => .pure _
    | none => exact .failUntyped

theorem takesAt_namedParameter (hKind : s.current.kind = .symbol .atSign) :
    TakesPhraseAt 0 free namedParameter s := by
  rw [namedParameter_eq]
  refine After.look (TakesPhraseAt.advance (by rw [hKind]; rfl) ?_)
  exact .name fun name => takes_parameterOf _ name

/-! ## Terms -/

/-- The readers that the grammar comes back to take phrases. -/
structure Rules.TakesPhrases (rules : Rules) : Prop where
  expr : TakesPhrase 0 true rules.expr
  select : TakesPhrase 0 true rules.select
  joinClause : TakesPhrase 0 true rules.joinClause

variable {rules : Rules}

theorem takes_callArguments (h : rules.TakesPhrases) (function : String) :
    TakesPhrase 1 true (callArguments rules function) := by
  have hEnd : ∀ x : Term, TakesPhrase 1 false (do expect .rightParen; return x) := fun x =>
    .closeParen (.pure x)
  refine .choose rfl ((hEnd _).of_bound _) (.sees ((hEnd _).of_bound _) ?_)
  exact .eats rfl fun distinct => h.expr.separated.bind fun arguments => hEnd _

theorem takes_pathOrCall (h : rules.TakesPhrases) : TakesPhrase 0 free (pathOrCall rules) :=
  .name fun function => .chooseParen (takes_callArguments h function)
    ((takes_dottedRest _).bind fun _ => .pure _)

theorem takes_branch (h : rules.TakesPhrases) : TakesPhrase 0 true (branch rules) :=
  h.expr.bind fun _ => .expectKeyword (h.expr.bind fun _ => .pure _)

theorem takes_caseOperand (h : rules.TakesPhrases) : TakesPhrase 0 true (caseOperand rules) :=
  .sees (.pure _) (.map some h.expr)

theorem takes_caseBranches (h : rules.TakesPhrases) : TakesPhrase 0 free (caseBranches rules) :=
  .sees (.chain (neutrally_kind rfl) fun _ => takes_branch h) .fail

theorem takesAt_caseTerm (h : rules.TakesPhrases) (hKind : s.current.kind = .keyword .CASE) :
    TakesPhraseAt 0 free (caseTerm rules) s := by
  rw [caseTerm_eq]
  refine TakesPhraseAt.advance (by rw [hKind]; rfl) ?_
  refine (takes_caseOperand h).bind fun operand => (takes_caseBranches h).bind fun branches => ?_
  exact h.expr.after.bind fun _ => .expectKeyword (.pure _)

theorem takesAt_castTerm (h : rules.TakesPhrases) (hKind : s.current.kind = .keyword .CAST) :
    TakesPhraseAt 0 free (castTerm rules) s := by
  refine TakesPhraseAt.advance (by rw [hKind]; rfl)
    (.openParen (h.expr.bind fun _ => .expectKeyword ?_))
  exact takes_columnType.bind fun _ => .closeParen (.pure _)

theorem takesAt_parenthesized (h : rules.TakesPhrases)
    (hKind : s.current.kind = .symbol .leftParen) :
    TakesPhraseAt 0 free (parenthesized rules) s := by
  refine TakesPhraseAt.advanceParen hKind ?_
  have hEnd : ∀ x : Term, TakesPhrase 1 false (do expect .rightParen; return x) := fun x =>
    .closeParen (.pure x)
  refine .look fun query => ?_
  cases query with
  | true => exact (TakesPhrase.map Term.subquery h.select).bind hEnd
  | false => exact (TakesPhrase.map Term.paren h.expr).bind hEnd

theorem takes_namedTerm (h : rules.TakesPhrases) : TakesPhrase 0 free (namedTerm rules) :=
  .sees (takes_pathOrCall h) .fail

/-- A constant is an integer or stands anywhere. -/
theorem phrase_literal {t : Token} {value : Literal} {ts : List Token}
    (h : literalOf? t = some value)
    (hPhrase : Phrase k false ts) : Phrase k true (t :: ts) := by
  rcases t.kind.isNeutral_or with hNeutral | ⟨n, hKind⟩ | hKind | hKind | hKind
  · exact .neutral hNeutral hPhrase.free
  · exact .integer hKind hPhrase
  · simp [literalOf?, hKind] at h
  · simp [literalOf?, hKind] at h
  · simp [literalOf?, hKind] at h

theorem takes_unsignedTerm (h : rules.TakesPhrases) : TakesPhrase 0 true (unsignedTerm rules) := by
  intro s
  rw [unsignedTerm_eq]
  refine After.take (fun t rest value hTokens hValue => ?_) fun _ => After.look ?_
  · exact TakesPhraseAt.cons hTokens (fun _ => phrase_literal hValue)
      (TakesPhrase.pure (Term.literal value) _)
  · generalize hKind : s.current.kind = kind
    unfold termOfKind
    split
    · exact takesAt_placeholder hKind
    · exact takesAt_namedParameter hKind
    · exact takesAt_parenthesized h hKind
    · exact takesAt_caseTerm h hKind
    · exact takesAt_castTerm h hKind
    · exact takes_namedTerm h s

theorem takes_term (h : rules.TakesPhrases) : TakesPhrase 0 true (term rules) :=
  .behind (.chain neutrally_signOf? id) fun _ => (takes_unsignedTerm h).bind fun _ => .pure _

/-! ## Operands -/

theorem takes_product (h : rules.TakesPhrases) : TakesPhrase 0 true (product rules) :=
  .layer neutrally_mulOp? (takes_term h) fun _ => .map _ (takes_term h)

theorem takes_sum (h : rules.TakesPhrases) : TakesPhrase 0 true (sum rules) :=
  .layer neutrally_addOp? (takes_product h) fun _ => .map _ (takes_product h)

theorem takes_operand (h : rules.TakesPhrases) : TakesPhrase 0 true (operand rules) :=
  .layer (neutrally_kind rfl) (takes_sum h) fun _ => takes_sum h

/-! ## Conditions -/

theorem takes_membership (h : rules.TakesPhrases) (left : Operand) (negated : Bool) :
    TakesPhrase 0 free (membership rules left negated) := by
  have hEnd : ∀ x : Condition, TakesPhrase 1 false (do expect .rightParen; return x) := fun x =>
    .closeParen (.pure x)
  refine .openParen (.look fun query => .look fun empty => ?_)
  cases query with
  | true => exact (TakesPhrase.map (Condition.oneOfQuery left negated) h.select).bind hEnd
  | false =>
    cases empty with
    | true => exact (hEnd (.oneOf left negated [])).of_bound _
    | false => exact (TakesPhrase.map (Condition.oneOf left negated) h.expr.separated).bind hEnd

theorem takes_identity (h : rules.TakesPhrases) (left : Operand) :
    TakesPhrase 0 true (identity rules left) :=
  .eats rfl fun _ => .choose rfl (.pure _) ((takes_operand h).bind fun _ => .pure _)

theorem takes_predicateNot : TakesPhrase 0 free predicateNot := by
  intro s
  refine After.look (After.look ?_)
  split
  · next hNot =>
    have hKind : s.current.kind = .keyword .NOT := by
      rw [Bool.and_eq_true, beq_iff_eq] at hNot
      exact hNot.1
    exact TakesPhraseAt.advance (by rw [hKind]; rfl) (.pure true)
  · exact TakesPhrase.pure _ s

theorem takes_test (h : rules.TakesPhrases) (left : Operand) :
    TakesPhrase 0 free (test rules left) := by
  have hOperand := takes_operand h
  refine .take? neutrally_compareOp? (fun _ => hOperand.bind fun _ => .pure _) ?_
  refine .choose rfl (takes_identity h left) (takes_predicateNot.bind fun negated => ?_)
  refine .choose rfl ?_ (.choose rfl (takes_membership h left negated)
    (.choose rfl ?_ (.choose rfl (hOperand.bind fun _ => .pure _) (.pure _))))
  · exact hOperand.bind fun _ => .expectKeyword (hOperand.bind fun _ => .pure _)
  · refine hOperand.bind fun pattern => hOperand.after.bind fun escape => ?_
    cases escape with
    | none => exact .pure _
    | some escape => exact .pure _

theorem takes_plainCondition (h : rules.TakesPhrases) : TakesPhrase 0 true (plainCondition rules) :=
  .choose rfl (.openParen (h.select.bind fun _ => .closeParen (.pure _)))
    ((takes_operand h).bind fun left => takes_test h left)

theorem takes_condition (h : rules.TakesPhrases) : TakesPhrase 0 true (condition rules) :=
  .behind (.chain (neutrally_kind rfl) id) fun _ => (takes_plainCondition h).bind fun _ => .pure _

theorem takes_conjunction (h : rules.TakesPhrases) : TakesPhrase 0 true (conjunction rules) :=
  .layer neutrally_andSign? (takes_condition h) fun _ => takes_condition h

theorem takes_expr (h : rules.TakesPhrases) : TakesPhrase 0 true (expr rules) :=
  .layer (neutrally_kind rfl) (takes_conjunction h) fun _ => takes_conjunction h

/-! ## Sources -/

theorem takes_parenthesizedSource (h : rules.TakesPhrases) :
    TakesPhrase 1 true (parenthesizedSource rules) :=
  .sees (h.select.bind fun _ => .closeParen (takes_asName?.bind fun _ => .pure _))
    (h.joinClause.bind fun _ => .closeParen (.pure _))

theorem takes_source (h : rules.TakesPhrases) : TakesPhrase 0 free (source rules) :=
  .chooseParen (takes_parenthesizedSource h)
    ((takes_qualifiedName _).bind fun _ => takes_asName?.bind fun _ => .pure _)

theorem takes_joinAfterKind (natural : Bool) (kind : JoinKind) :
    TakesPhrase 0 free (joinAfterKind natural kind) := by
  have hRest : ∀ outer : Bool, TakesPhrase 0 free
      (do expectKeyword .JOIN; return (⟨natural, kind, outer⟩ : JoinOperator)) := fun _ =>
    .expectKeyword (.pure _)
  cases kind with
  | left | right | full => exact .eat rfl (.expectKeyword (.pure _)) (hRest false)
  | comma | plain | inner | cross => exact hRest false

theorem takes_joinOperator (start : JoinStart) : TakesPhrase 0 free (joinOperator start) := by
  cases start with
  | comma => exact .pure _
  | join => exact .pure _
  | natural =>
    exact .take? neutrally_joinKind? (fun _ => takes_joinAfterKind _ _) (takes_joinAfterKind _ _)
  | kind kind => exact takes_joinAfterKind _ _

theorem takes_joinConstraint (h : rules.TakesPhrases) : TakesPhrase 0 free (joinConstraint rules) :=
  .choose rfl ((takes_expr h).bind fun _ => .pure _)
    (.choose rfl (takes_columnList.bind fun _ => .pure _) (.pure _))

theorem takes_joinedSource (h : rules.TakesPhrases) (start : JoinStart) :
    TakesPhrase 0 free (joinedSource rules start) :=
  (takes_joinOperator start).bind fun _ => (takes_source h).bind fun _ =>
    (takes_joinConstraint h).bind fun _ => .pure _

theorem takes_joinClause (h : rules.TakesPhrases) : TakesPhrase 0 free (joinClause rules) :=
  .layer neutrally_joinStart? (takes_source h) (takes_joinedSource h)

/-! ## Bodies -/

theorem takes_resultColumn (h : rules.TakesPhrases) : TakesPhrase 0 true (resultColumn rules) := by
  refine .choose rfl (.pure _) fun s => ?_
  have hValue : TakesPhrase 0 true
      (do let value ← expr rules; return ResultColumn.expr value (← asName?)) :=
    (takes_expr h).bind fun _ => takes_asName?.bind fun _ => .pure _
  cases hSees : (seesTableStar.run s).1 with
  | false =>
    intro hError
    rw [run_bind, hSees] at hError ⊢
    exact hValue s hError
  | true =>
    have hTable : TakesPhraseAt 0 true
        (do let table ← name .table; advance; advance; return ResultColumn.tableStar table) s := by
      refine After.ask fun t rest table hTokens hName => ?_
      obtain ⟨u, v, more, rfl, hDot, hStar⟩ := exists_of_seesTableStar hTokens hSees
      refine After.advance rfl (After.advance rfl (After.pure ⟨[t, u, v], hTokens, ?_⟩))
      exact .neutral (neutrally_nameOf? t table hName)
        (.neutral (by rw [hDot]; rfl) (.neutral (by rw [hStar]; rfl)
        .nil))
    intro hError
    rw [run_bind, hSees] at hError ⊢
    exact hTable hError

theorem takes_valueRow (h : rules.TakesPhrases) : TakesPhrase 0 free (valueRow rules) :=
  .openParen ((takes_expr h).separated.bind fun _ => .closeParen (.pure _))

theorem takesNeutral_distinct : TakesNeutral distinct :=
  .choose rfl (.pure _) (.eat rfl (.pure _) (.pure _))

theorem takes_groupBy (h : rules.TakesPhrases) : TakesPhrase 0 free (groupBy rules) :=
  .choose rfl (.expectKeyword (takes_expr h).separated) (.pure _)

theorem takes_body (h : rules.TakesPhrases) : TakesPhrase 0 free (body rules) := by
  have hExpr := takes_expr h
  refine .choose rfl ((takes_valueRow h).separated.bind fun rows => .pure _) ?_
  refine .expectKeyword (.behind takesNeutral_distinct fun _ => ?_)
  refine (takes_resultColumn h).separated.bind fun _ => (takes_joinClause h).after.bind fun _ => ?_
  exact hExpr.after.bind fun _ => (takes_groupBy h).bind fun _ => hExpr.after.bind fun _ => .pure _

theorem takes_compound (h : rules.TakesPhrases) (operator : SetOperator) :
    TakesPhrase 0 free (compound rules operator) := by
  have hBody : ∀ {free : Bool} (operator : SetOperator), TakesPhrase 0 free
      (do return (operator, ← body rules)) := fun _ => (takes_body h).bind fun _ => .pure _
  unfold compound
  split
  · exact .eat rfl (hBody .unionAll) (hBody .union)
  · exact hBody operator

theorem takes_bodies (h : rules.TakesPhrases) : TakesPhrase 0 free (bodies rules) :=
  .layer neutrally_setOperator? (takes_body h) (takes_compound h)

/-! ## Queries -/

theorem takes_commonTable (h : rules.TakesPhrases) : TakesPhrase 0 free (commonTable rules) :=
  .name fun _ => takes_optionalColumnList.bind fun _ => .expectKeyword (.openParen
    (h.select.bind fun _ => .closeParen (.pure _)))

theorem takes_nullPlacement : TakesPhrase 0 free nullPlacement :=
  .choose rfl (.choose rfl (.pure _) (.expectKeyword (.pure _))) (.pure _)

theorem takes_direction : TakesPhrase 0 free direction :=
  .choose rfl (.pure _) (.eat rfl (.pure _) (.pure _))

theorem takes_orderTerm (h : rules.TakesPhrases) : TakesPhrase 0 true (orderTerm rules) :=
  (takes_expr h).bind fun _ => takes_direction.bind fun _ => takes_nullPlacement.bind fun _ =>
    .pure _

theorem takes_orderBy (h : rules.TakesPhrases) : TakesPhrase 0 free (orderBy rules) :=
  .choose rfl (.expectKeyword (takes_orderTerm h).separated) (.pure _)

theorem takes_limit (h : rules.TakesPhrases) : TakesPhrase 0 free (limit rules) := by
  have hExpr := takes_expr h
  refine .choose rfl (hExpr.bind fun first => ?_) (.pure _)
  exact .choose rfl (hExpr.bind fun _ => .pure _)
    (.choose rfl (hExpr.bind fun _ => .pure _) (.pure _))

theorem takes_select (h : rules.TakesPhrases) : TakesPhrase 0 free (select rules) := by
  have hParts :
    ∀ (recursive : Bool) (tables : List CommonTable) {free : Bool}, TakesPhrase 0 free (do
      let bodies ← bodies rules
      let orderBy ← orderBy rules
      let limit ← limit rules
      return fun span => (⟨recursive, tables, bodies, orderBy, limit, span⟩ : Select)) := fun _ _ =>
    (takes_bodies h).bind fun _ => (takes_orderBy h).bind fun _ => (takes_limit h).bind fun _ =>
      .pure _
  refine .spanned (.eat rfl ?_ (hParts false []))
  exact .eats rfl fun recursive => (takes_commonTable h).separated.bind fun tables =>
    hParts recursive tables

/-- The readers that come back to themselves any number of times take phrases. -/
theorem takes_upTo (depth : Nat) : (Rules.upTo depth).TakesPhrases := by
  induction depth with
  | zero => exact ⟨.pure _, .pure _, .pure _⟩
  | succ depth ih => exact ⟨takes_expr ih, takes_select ih, takes_joinClause ih⟩

/-! ## Tables -/

theorem takes_signed (expected : Expected) : TakesPhrase 0 true (signed expected) := by
  refine .eats rfl fun negative => .askNumber fun t value hAccept => ?_
  split at hAccept
  · next n hKind => exact ⟨n, hKind⟩
  · cases hAccept

theorem takes_sequence : TakesPhrase 0 free sequence := by
  refine .chooseParen ((takes_signed _).bind fun start => ?_) (.pure _)
  exact .choose rfl ((takes_signed _).bind fun step => .closeParen (.pure _))
    (.closeParen (.pure _))

theorem takes_nullability : TakesPhrase 0 free nullability :=
  .choose rfl (.expectKeyword (.pure _)) (.choose rfl (.pure _) (.pure _))

theorem takes_numbering (implied : Bool) : TakesPhrase 0 free (numbering implied) :=
  .choose rfl (takes_sequence.bind fun _ => .pure _)
    (.choose rfl (takes_sequence.bind fun _ => .pure _) (.pure _))

theorem takes_columnKey : TakesPhrase 0 free columnKey :=
  .choose rfl (.expectKeyword (.eats rfl fun _ => .pure _)) (.pure _)

theorem takes_checkCondition (h : rules.TakesPhrases) : TakesPhrase 0 free (checkCondition rules) :=
  .openParen ((takes_expr h).bind fun _ => .closeParen (.pure _))

theorem takes_columnRest (h : rules.TakesPhrases) (name : String) (first : Span) :
    TakesPhrase 0 free (columnRest rules name first) := by
  refine takes_columnType.bind fun _ => (takes_term h).after.bind fun _ => ?_
  refine takes_nullability.bind fun _ => (takes_numbering _).bind fun _ => ?_
  refine (TakesPhrase.eaten rfl).bind fun _ => takes_columnKey.bind fun _ => ?_
  exact (takes_checkCondition h).after.bind fun _ => .look fun _ => .pure _

theorem takes_columnDefinition (h : rules.TakesPhrases) :
    TakesPhrase 0 free (columnDefinition rules) :=
  .look fun _ => .name fun name => takes_columnRest h name _

theorem takes_referentialAction : TakesPhrase 0 free referentialAction := by
  refine .choose rfl (.pure _) (.choose rfl (.pure _) (.choose rfl (.expectKeyword (.pure _)) ?_))
  exact .choose rfl (.choose rfl (.pure _) (.expectKeyword (.pure _))) .fail

theorem takes_onClause : TakesPhrase 0 free onClause := by
  refine .choose rfl (takes_referentialAction.bind fun _ => .pure _)
    (.ask (neutrally_kind rfl) fun b => ?_)
  cases b with
  | true => exact takes_referentialAction.bind fun _ => .pure _
  | false => exact .pure _

theorem takes_reference : TakesPhrase 0 free reference := by
  refine .expectKeyword ((takes_qualifiedName _).bind fun _ => ?_)
  refine takes_optionalColumnList.bind fun _ => ?_
  exact (TakesPhrase.chain (neutrally_kind rfl) fun _ => takes_onClause).bind fun _ => .pure _

theorem takes_demand (h : rules.TakesPhrases) : TakesPhrase 0 free (demand rules) := by
  refine .choose rfl (.expectKeyword (.eats rfl fun _ => takes_columnList.bind fun _ => .pure _)) ?_
  refine .choose rfl (.eats rfl fun _ => takes_columnList.bind fun _ => .pure _) ?_
  refine .choose rfl ((takes_checkCondition h).bind fun _ => .pure _) ?_
  refine .choose rfl (.expectKeyword (takes_columnList.bind fun _ => ?_)) .fail
  exact takes_reference.bind fun _ => .pure _

theorem takes_tableConstraint (h : rules.TakesPhrases) :
    TakesPhrase 0 free (tableConstraint rules) :=
  .spanned ((takes_name _).after.bind fun _ => (takes_demand h).bind fun _ => .pure _)

theorem takes_tableElement (h : rules.TakesPhrases) : TakesPhrase 0 free (tableElement rules) :=
  .sees ((takes_columnDefinition h).bind fun _ => .pure _)
    ((takes_tableConstraint h).bind fun _ => .pure _)

theorem takes_tableElements (h : rules.TakesPhrases) : TakesPhrase 0 free (tableElements rules) :=
  .askParen ((takes_tableElement h).separated.bind fun _ => .closeParen (.pure _))

theorem takes_temporary : TakesPhrase 0 free temporary := .choose rfl (.pure _) (.eaten rfl)

theorem takes_ifNotExists : TakesPhrase 0 free ifNotExists :=
  .choose rfl (.expectKeyword (.expectKeyword (.pure _))) (.pure _)

theorem takes_wordPair (first second : Keyword) : TakesPhrase 0 free (wordPair first second) :=
  .choose rfl (.expectKeyword (.pure _)) (.pure _)

theorem takes_createTable (h : rules.TakesPhrases) : TakesPhrase 0 free (createTable rules) := by
  refine .spanned (.expectKeyword (takes_temporary.bind fun _ => .expectKeyword ?_))
  refine takes_ifNotExists.bind fun _ => (takes_qualifiedName _).bind fun _ => ?_
  exact (takes_tableElements h).bind fun _ => (takes_wordPair _ _).bind fun _ => .pure _

theorem takes_addition (h : rules.TakesPhrases) : TakesPhrase 0 true (addition rules) :=
  .sees ((takes_tableConstraint h).bind fun _ => .pure _)
    (.eats rfl fun _ => (takes_columnDefinition h).bind fun _ => .pure _)

theorem takes_columnChange (h : rules.TakesPhrases) (column : String) (first : Span) :
    TakesPhrase 0 free (columnChange rules column first) := by
  refine .choose rfl (.expectKeyword ((takes_name _).bind fun _ => .pure _)) (.choose rfl ?_
    (.choose rfl ?_ ((takes_columnRest h column first).bind fun _ => .pure _)))
  · exact .choose rfl ((takes_term h).bind fun _ => .pure _)
      (.choose rfl (.expectKeyword (.pure _)) (.expectKeyword (.pure _)))
  · exact .choose rfl (.pure _) (.expectKeyword (.expectKeyword (.pure _)))

theorem takes_alteration (h : rules.TakesPhrases) : TakesPhrase 0 free (alteration rules) := by
  have hBehind : ∀ {free : Bool}, TakesPhrase 0 free (do
      let first := (← current).span
      let column ← name .column
      return AlterAction.alterColumn column (← columnChange rules column first)) :=
    .look fun _ => .name fun column => (takes_columnChange h column _).bind fun _ => .pure _
  intro s
  refine After.look (After.look ?_)
  split
  · next hColumn =>
    have hKind : s.current.kind = .keyword .COLUMN := by
      rw [Bool.and_eq_true, beq_iff_eq] at hColumn
      exact hColumn.1
    exact TakesPhraseAt.advance (by rw [hKind]; rfl) hBehind
  · exact hBehind s

theorem takes_removal : TakesPhrase 0 true removal :=
  .choose rfl ((takes_name _).bind fun _ => .pure _) (.choose rfl (.expectKeyword (.pure _))
    (.eats rfl fun _ => (takes_name _).bind fun _ => .pure _))

theorem takes_renameAction : TakesPhrase 0 true renameAction :=
  .choose rfl ((takes_name _).bind fun _ => .pure _) (.eats rfl fun _ => .name fun _ =>
    .expectKeyword ((takes_name _).bind fun _ => .pure _))

theorem takes_alterAction (h : rules.TakesPhrases) : TakesPhrase 0 free (alterAction rules) :=
  .choose rfl (takes_addition h) (.choose rfl (takes_alteration h)
    (.choose rfl takes_removal (.choose rfl takes_renameAction .fail)))

theorem takes_alterTable (h : rules.TakesPhrases) : TakesPhrase 0 free (alterTable rules) :=
  .spanned (.expectKeyword (.expectKeyword ((takes_qualifiedName _).bind fun _ =>
    (takes_alterAction h).bind fun _ => .pure _)))

theorem takes_dropBehavior : TakesPhrase 0 free dropBehavior :=
  .choose rfl (.pure _) (.choose rfl (.pure _) (.pure _))

theorem takes_dropTable : TakesPhrase 0 free dropTable := by
  have hNames : TakesPhrase 0 false (separated (qualifiedName .table)) :=
    (takes_qualifiedName _).bind fun _ => (TakesPhrase.chainOf rfl (takes_qualifiedName _)).bind
      fun _ => .pure _
  refine .spanned (.expectKeyword (.expectKeyword ((takes_wordPair _ _).bind fun _ => ?_)))
  exact hNames.bind fun _ => takes_dropBehavior.bind fun _ => .pure _

/-! ## Rows -/

theorem takes_conflictResolution : TakesPhrase 0 free conflictResolution :=
  .choose rfl (.asked neutrally_resolutionOf?) (.pure _)

theorem takes_insertSource (h : rules.TakesPhrases) : TakesPhrase 0 free (insertSource rules) :=
  .choose rfl ((takes_valueRow h).separated.bind fun _ => .pure _)
    (.choose rfl (.expectKeyword (.pure _)) ((takes_select h).bind fun _ => .pure _))

theorem takes_insertMode : TakesPhrase 0 free insertMode :=
  .choose rfl (.pure _) (.expectKeyword (takes_conflictResolution.bind fun _ => .pure _))

theorem takes_insert (h : rules.TakesPhrases) : TakesPhrase 0 free (insert rules) := by
  refine .spanned (takes_insertMode.bind fun _ => .expectKeyword ?_)
  refine (takes_qualifiedName _).bind fun _ => takes_optionalColumnList.bind fun _ => ?_
  exact (takes_insertSource h).bind fun _ => .pure _

theorem takes_assignment (h : rules.TakesPhrases) : TakesPhrase 0 free (assignment rules) :=
  .name fun _ => .expect rfl ((takes_expr h).bind fun _ => .pure _)

theorem takes_update (h : rules.TakesPhrases) : TakesPhrase 0 free (update rules) := by
  refine .spanned (.expectKeyword (takes_conflictResolution.bind fun _ => ?_))
  refine (takes_qualifiedName _).bind fun _ => .expectKeyword ?_
  exact (takes_assignment h).separated.bind fun _ => (takes_expr h).after.bind fun _ => .pure _

theorem takes_delete (h : rules.TakesPhrases) : TakesPhrase 0 free (delete rules) :=
  .spanned (.expectKeyword (.expectKeyword ((takes_qualifiedName _).bind fun _ =>
    (takes_expr h).after.bind fun _ => .pure _)))

/-! ## Statements -/

theorem takes_statementOfKind (h : rules.TakesPhrases) :
    TakesPhrase 0 true (statementOfKind rules) := by
  refine .look fun kind => ?_
  split
  · exact .map _ (takes_createTable h)
  · exact .map _ (takes_alterTable h)
  · exact .map _ takes_dropTable
  · exact .map _ (takes_insert h)
  · exact .map _ (takes_insert h)
  · exact .map _ (takes_update h)
  · exact .map _ (takes_delete h)
  · exact .map _ (takes_select h)

/-- The tokens of a statement that is read without an error are a phrase. -/
theorem after_statement_phrase (h : rules.TakesPhrases) {s : State}
    (hInside : ∀ t ∈ s.tokens, endsStatement t = false) :
    After (statement rules) s fun _ _ => Phrase 0 true s.tokens := by
  refine After.bind (takes_statementOfKind h s) ?_
  rintro x s' ⟨ts, hSplit, hPhrase⟩ -
  refine After.look ?_
  cases hEnd : s'.atEnd with
  | true =>
    have hNil : s'.tokens = [] :=
      State.tokens_of_atEnd (fun t ht => hInside t (hSplit ▸ List.mem_append_right _ ht)) hEnd
    rw [hSplit, hNil, List.append_nil]
    exact After.pure hPhrase
  | false => exact After.fail

end SqlKit.Grammar
