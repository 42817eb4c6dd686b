import SqlKit.Proofs.Grammar.Locating
import SqlKit.Proofs.Rendering.Select

/-!
# The spans of statements nest

Every reader of the grammar locates the fragments of its result among the tokens that it takes
(`Locates`). A query, the definition of a column, a constraint, a parameter with a name and a
statement keep the span of all tokens that were taken for them (`Spans`).

* `locates_statementOfKind`: all fragments of a statement lie among its tokens.
* `spans_statementOfKind`: the span of a statement is that of its tokens.
-/

namespace SqlKit

namespace Grammar

open Parse

/-- The readers that the grammar comes back to locate fragments. -/
structure Rules.Locates (rules : Rules) : Prop where
  expr : Grammar.Locates [] Expr.fragments rules.expr
  select : Grammar.Locates [] Select.fragments rules.select
  joinClause : Grammar.Locates [] JoinClause.fragments rules.joinClause

variable {α β : Type} {rules : Rules} {before : List Fragment} {s : State}

-- A fragment that keeps no span lies anywhere.
attribute [local simp] Lies Fragment.span? Term.span? Expr.fragmentsAll_eq Expr.fragmentsOption_eq
  Branch.fragmentsAll_eq

/-! ## Parameters -/

theorem after_parameterOf_span (mark : Span) (name : String) (s : State) :
    After (parameterOf mark name) s fun x s' =>
      ∃ p, x = .parameter p ∧ p.span = ((spanFrom mark).run s').1 := by
  refine After.eatIte (fun t rest hTokens _ => ?_) fun _ => After.look ?_
  · exact fun _ => ⟨_, rfl, rfl⟩
  · split
    · exact fun _ => ⟨_, rfl, rfl⟩
    · exact After.failUntyped

theorem locates_namedParameter : Locates [] Term.fragments namedParameter := by
  have hConsumes : Consumes namedParameter := .behind fun _ => .behind fun _ => .bind .ask
  have hSpan : ∀ s, After namedParameter s fun x s' =>
      ∃ p, x = .parameter p ∧ p.span = ((spanFrom s.current.span).run s').1 := fun s => by
    rw [namedParameter_eq]
    exact After.look (After.behind fun _ _ _ => After.behind fun name s' _ =>
      after_parameterOf_span _ name s')
  intro s ts hAligned _ hError
  obtain ⟨p, hTerm, hOwn⟩ := hSpan s hError
  obtain ⟨us, hTokens, hCovers⟩ :=
    exists_covers hAligned (namedParameter.moves s) (hConsumes s hError)
  have hLies : Lies us (.term (.parameter p)) := .of_covers rfl (hOwn ▸ hCovers) rfl .nil
  refine ⟨us, hTokens, ?_⟩
  rw [hTerm]
  exact AllLie.cons.mpr ⟨hLies.mono (List.suffix_append _ _).isInfix, .nil⟩

/-! ## Terms -/

theorem locates_callArguments (h : rules.Locates) (function : String) :
    Locates [] Term.fragments (callArguments rules function) := by
  refine .choose (.behind fun _ => .pure fun _ _ => by simp)
    (.choose (.behind fun _ => .pure fun _ _ => by simp) ?_)
  refine .behind fun distinct => h.expr.separated.bind fun arguments => .behind fun _ => .pure ?_
  exact fun ts hLie => by simpa using hLie

theorem locates_pathOrCall (h : rules.Locates) : Locates [] Term.fragments (pathOrCall rules) :=
  .behind fun function => .choose (locates_callArguments h function)
    (.behind fun _ => .pure fun _ _ => by simp)

theorem locates_branch (h : rules.Locates) : Locates [] Branch.fragments (branch rules) :=
  h.expr.bind fun _ => .behind fun _ => h.expr.bind fun _ => .pure fun _ hLie => hLie

theorem locates_caseTerm (h : rules.Locates) : Locates [] Term.fragments (caseTerm rules) := by
  have hOperand : Locates [] (fragmentsOption Expr.fragments) (caseOperand rules) :=
    .choose (.pure fun _ _ => by simp) (.map h.expr fun _ _ hLie => by simpa using hLie)
  have hBranches : Locates [] (List.flatMap Branch.fragments) (caseBranches rules) :=
    .choose (.chain fun _ => locates_branch h) .fail
  rw [caseTerm_eq]
  refine .behind fun _ => hOperand.bind fun operand => hBranches.bind fun branches => ?_
  refine h.expr.after.bind fun otherwise => .behind fun _ => .pure fun ts hLie => ?_
  simpa [and_assoc] using hLie

theorem locates_castTerm (h : rules.Locates) : Locates [] Term.fragments (castTerm rules) :=
  .behind fun _ => .behind fun _ => h.expr.bind fun _ => .behind fun _ => .behind fun _ =>
    .behind fun _ => .pure fun _ hLie => by simpa using hLie

theorem locates_parenthesized (h : rules.Locates) :
    Locates [] Term.fragments (parenthesized rules) := by
  have hQuery : Locates [] Term.fragments (Term.subquery <$> rules.select) :=
    .map h.select fun _ _ hLie => by simpa using hLie
  have hExpr : Locates [] Term.fragments (Term.paren <$> rules.expr) :=
    .map h.expr fun _ _ hLie => by simpa using hLie
  refine .behind fun _ => .behind fun query => ?_
  cases query with
  | true => exact hQuery.bind fun _ => .behind fun _ => .pure fun _ hLie => hLie
  | false => exact hExpr.bind fun _ => .behind fun _ => .pure fun _ hLie => hLie

theorem locates_placeholder : Locates [] Term.fragments placeholder :=
  .behind fun _ => .behind fun _ => .behind fun _ => .behind fun _ => .pure fun _ _ => by simp

theorem locates_termOfKind (h : rules.Locates) (kind : TokenKind) :
    Locates [] Term.fragments (termOfKind rules kind) := by
  unfold termOfKind
  split
  · exact locates_placeholder
  · exact locates_namedParameter
  · exact locates_parenthesized h
  · exact locates_caseTerm h
  · exact locates_castTerm h
  · exact .choose (locates_pathOrCall h) .fail

theorem locates_unsignedTerm (h : rules.Locates) :
    Locates [] Term.fragments (unsignedTerm rules) := by
  rw [unsignedTerm_eq]
  refine .behind fun literal => ?_
  cases literal with
  | some value => exact .pure fun _ _ => by simp
  | none => exact .behind fun kind => locates_termOfKind h kind

theorem allLie_applySign (negative : Bool) {t : Term} {ts : List Token}
    (h : AllLie ts t.fragments) :
    AllLie ts (applySign negative t).fragments := by
  unfold applySign
  split
  · simp
  · simp
  · simp
  · simp
  · simpa using h

theorem locates_term (h : rules.Locates) : Locates [] Term.fragments (term rules) :=
  .behind fun signs => (locates_unsignedTerm h).bind fun _ => .pure fun ts hLie =>
    List.foldrRecOn (motive := fun t => AllLie ts (Term.fragments t)) signs applySign hLie
      fun _ hLie negative _ => allLie_applySign negative hLie

/-! ## Operands -/

theorem locates_product (h : rules.Locates) : Locates [] Product.fragments (product rules) :=
  .layer (M := fun entry => Term.fragments entry.2) (locates_term h)
    (fun operator => .map (locates_term h) fun _ _ hLie => hLie)
    (fun _ _ hLie => by simpa [Product.fragments] using hLie)
    fun left entry ts hLeft hRight => by simpa [Product.fragments] using ⟨hLeft, hRight⟩

theorem locates_sum (h : rules.Locates) : Locates [] Sum.fragments (sum rules) :=
  .layer (M := fun entry => Product.fragments entry.2) (locates_product h)
    (fun operator => .map (locates_product h) fun _ _ hLie => hLie)
    (fun _ _ hLie => by simpa [Sum.fragments] using hLie)
    fun left entry ts hLeft hRight => by simpa [Sum.fragments] using ⟨hLeft, hRight⟩

theorem locates_operand (h : rules.Locates) : Locates [] Operand.fragments (operand rules) :=
  .layer (locates_sum h) (fun _ => locates_sum h)
    (fun _ _ hLie => by simpa [Operand.fragments] using hLie)
    fun left right ts hLeft hRight => by simpa [Operand.fragments] using ⟨hLeft, hRight⟩

/-! ## Conditions -/

theorem locates_identity (h : rules.Locates) (left : Operand) :
    Locates left.fragments Condition.fragments (identity rules left) := by
  refine .behind fun negated => .choose (.pure fun ts hLie => ?_)
    ((locates_operand h).bind fun right => .pure fun ts hLie => ?_)
  · simpa using hLie
  · simpa using hLie

theorem locates_membership (h : rules.Locates) (left : Operand) (negated : Bool) :
    Locates left.fragments Condition.fragments (membership rules left negated) := by
  have hEnd : ∀ (before : List Fragment) (c : Condition),
      (∀ ts, AllLie ts before → AllLie ts c.fragments) →
      Locates before Condition.fragments (do expect .rightParen; return c) :=
    fun _ _ hc => .behind fun _ => .pure hc
  refine .behind fun _ => .behind fun query => .behind fun empty => ?_
  cases query with
  | true =>
    simp only [↓reduceIte, map_eq_pure_bind, bind_assoc, pure_bind]
    exact h.select.bind fun q => hEnd _ _ fun ts hLie => by simpa using hLie
  | false =>
    cases empty with
    | true => exact hEnd _ _ fun ts hLie => by simpa using hLie
    | false =>
      simp only [Bool.false_eq_true, ↓reduceIte, map_eq_pure_bind, bind_assoc, pure_bind]
      exact h.expr.separated.bind fun values => hEnd _ _ fun ts hLie => by simpa using hLie

theorem locates_test (h : rules.Locates) (left : Operand) :
    Locates left.fragments Condition.fragments (test rules left) := by
  have hOperand := locates_operand h
  refine .behind fun operator => ?_
  cases operator with
  | some operator => exact hOperand.bind fun right => .pure fun ts hLie => by simpa using hLie
  | none =>
    refine .choose (locates_identity h left) (.behind fun negated => ?_)
    refine .choose ?_ (.choose (locates_membership h left negated) (.choose ?_ (.choose ?_ ?_)))
    · refine hOperand.bind fun low => .behind fun _ => hOperand.bind fun high =>
        .pure fun ts hLie => ?_
      simpa [and_assoc] using hLie
    · refine hOperand.bind fun pattern => hOperand.after.bind fun escape => ?_
      cases escape with
      | none => exact .pure fun ts hLie => by simpa using hLie
      | some escape => exact .pure fun ts hLie => by simpa [and_assoc] using hLie
    · exact hOperand.bind fun pattern => .pure fun ts hLie => by simpa using hLie
    · exact .pure fun ts hLie => by simpa using hLie

theorem locates_plainCondition (h : rules.Locates) :
    Locates [] Condition.fragments (plainCondition rules) := by
  refine .choose
    (.behind fun _ => h.select.bind fun query => .behind fun _ => .pure fun ts hLie => ?_)
    ((locates_operand h).bind fun left => locates_test h left)
  simpa using hLie

theorem locates_condition (h : rules.Locates) :
    Locates [] Condition.fragments (condition rules) := by
  refine .behind fun negations => (locates_plainCondition h).bind fun c => .pure fun ts hLie => ?_
  induction negations with
  | nil => exact hLie
  | cons _ negations ih => simpa using ih

theorem locates_conjunction (h : rules.Locates) :
    Locates [] Conjunction.fragments (conjunction rules) :=
  .layer (locates_condition h) (fun _ => locates_condition h)
    (fun _ _ hLie => by simpa [Conjunction.fragments] using hLie)
    fun left right ts hLeft hRight => by simpa [Conjunction.fragments] using ⟨hLeft, hRight⟩

theorem locates_expr (h : rules.Locates) : Locates [] Expr.fragments (expr rules) :=
  .layer (locates_conjunction h) (fun _ => locates_conjunction h)
    (fun _ _ hLie => by simpa [Expr.fragments] using hLie)
    fun left right ts hLeft hRight => by simpa [Expr.fragments] using ⟨hLeft, hRight⟩

/-! ## Sources -/

theorem locates_parenthesizedSource (h : rules.Locates) :
    Locates [] Source.fragments (parenthesizedSource rules) :=
  .choose (h.select.bind fun _ => .behind fun _ => .behind fun _ => .pure fun _ hLie => hLie)
    (h.joinClause.bind fun _ => .behind fun _ => .pure fun _ hLie => hLie)

theorem locates_source (h : rules.Locates) : Locates [] Source.fragments (source rules) :=
  .choose (locates_parenthesizedSource h)
    (.behind fun _ => .behind fun _ => .pure fun _ hLie => hLie)

theorem locates_joinConstraint (h : rules.Locates) :
    Locates [] JoinConstraint.fragments (joinConstraint rules) := by
  refine .choose ((locates_expr h).bind fun _ => .pure fun ts hLie => ?_)
    (.choose (.behind fun _ => .pure fun ts _ => ?_) (.pure fun ts _ => ?_))
  · simpa [JoinConstraint.fragments] using hLie
  · simp [JoinConstraint.fragments]
  · simp [JoinConstraint.fragments]

theorem locates_joinClause (h : rules.Locates) :
    Locates [] JoinClause.fragments (joinClause rules) := by
  refine .layer (M := fun j => j.source.fragments ++ j.constraint.fragments) (locates_source h)
    (fun start => ?_) (fun _ _ hLie => by simpa [JoinClause.fragments] using hLie)
    fun left j ts hLeft hRight => ?_
  · exact .behind fun _ => (locates_source h).bind fun _ => (locates_joinConstraint h).bind fun _ =>
      .pure fun _ hLie => hLie
  · have hBoth := AllLie.append.mp hRight
    simpa [JoinClause.fragments] using ⟨hLeft, hBoth⟩

/-! ## Bodies -/

theorem locates_resultColumn (h : rules.Locates) :
    Locates [] ResultColumn.fragments (resultColumn rules) :=
  .choose (.pure fun _ hLie => hLie)
    (.choose (.behind fun _ => .behind fun _ => .behind fun _ => .pure fun _ hLie => hLie)
      ((locates_expr h).bind fun _ => .behind fun _ => .pure fun _ hLie => hLie))

theorem locates_valueRow (h : rules.Locates) :
    Locates [] (List.flatMap Expr.fragments) (valueRow rules) :=
  .behind fun _ => (locates_expr h).separated.bind fun _ => .behind fun _ => .pure fun _ hLie =>
    hLie

theorem locates_body (h : rules.Locates) : Locates [] Body.fragments (body rules) := by
  have hExpr := locates_expr h
  have hGroupBy : Locates [] (List.flatMap Expr.fragments) (groupBy rules) :=
    .choose (.behind fun _ => hExpr.separated) (.pure fun _ hLie => hLie)
  refine .choose ((locates_valueRow h).separated.bind fun rows => .pure fun ts hLie => ?_)
    (.behind fun _ => .behind fun distinct => (locates_resultColumn h).separated.bind fun columns =>
      (locates_joinClause h).after.bind fun source => hExpr.after.bind fun condition =>
      hGroupBy.bind fun groupBy => hExpr.after.bind fun having => .pure fun ts hLie => ?_)
  · simpa [Expr.fragmentsRows_eq] using hLie
  · simpa [ResultColumn.fragmentsAll_eq, JoinClause.fragmentsOption_eq, and_assoc] using hLie

theorem locates_compound (h : rules.Locates) (operator : SetOperator) :
    Locates [] (fun entry => Body.fragments entry.2) (compound rules operator) := by
  have hBody : ∀ operator : SetOperator, Locates [] (fun entry => Body.fragments entry.2)
      (do return (operator, ← body rules)) :=
    fun _ => (locates_body h).bind fun _ => .pure fun _ hLie => hLie
  unfold compound
  split
  · refine .behind fun all => ?_
    cases all with
    | true => exact hBody .unionAll
    | false => exact hBody .union
  · exact hBody operator

theorem locates_bodies (h : rules.Locates) : Locates [] Bodies.fragments (bodies rules) :=
  .layer (M := fun entry => Body.fragments entry.2) (locates_body h) (locates_compound h)
    (fun _ _ hLie => by simpa [Bodies.fragments] using hLie)
    fun left entry ts hLeft hRight => by simpa [Bodies.fragments] using ⟨hLeft, hRight⟩

theorem consumes_bodies : Consumes (bodies rules) := .bind (.choose (.bind .expectKeyword))

/-! ## Queries -/

theorem locates_commonTable (h : rules.Locates) :
    Locates [] (fun t => t.query.fragments) (commonTable rules) :=
  .behind fun _ => .behind fun _ => .behind fun _ => .behind fun _ => h.select.bind fun _ =>
    .behind fun _ => .pure fun _ hLie => hLie

theorem locates_orderBy (h : rules.Locates) :
    Locates [] (List.flatMap fun t => t.key.fragments) (orderBy rules) := by
  refine .choose (.behind fun _ => .separated ?_) (.pure fun _ hLie => hLie)
  exact (locates_expr h).bind fun _ => .behind fun _ => .behind fun _ => .pure fun _ hLie => hLie

theorem locates_limit (h : rules.Locates) : Locates [] Limit.fragments (limit rules) := by
  have hExpr := locates_expr h
  refine .choose (hExpr.bind fun first => ?_) (.pure fun _ hLie => hLie)
  refine .choose (hExpr.bind fun second => .pure fun ts hLie => ?_)
    (.choose (hExpr.bind fun second => .pure fun ts hLie => ?_) (.pure fun ts hLie => ?_))
  · simpa [Limit.fragments] using hLie
  · simpa [Limit.fragments] using (AllLie.append.mp hLie).symm
  · simpa [Limit.fragments] using hLie

theorem consumes_select : Consumes (select rules) := by
  refine .spanned (.behind fun hasTables => ?_)
  cases hasTables with
  | true => exact .behind fun _ => .behind fun _ => .bind consumes_bodies
  | false => exact .behind fun _ => .behind fun _ => .bind consumes_bodies

theorem spans_select : Spans Select.span (select rules) :=
  .of_consumes consumes_select fun _ _ => span_of_select

theorem locates_select (h : rules.Locates) : Locates [] Select.fragments (select rules) := by
  have hCons : ∀ q : Select, q.fragments = .select q :: q.fragments.tail := fun q => by cases q; rfl
  have hParts : ∀ (recursive : Bool) (tables : List CommonTable) (span : Span),
      Locates (tables.flatMap fun t => t.query.fragments)
      (fun f => (f span : Select).fragments.tail) (do
        let bodies ← bodies rules
        let orderBy ← orderBy rules
        let limit ← limit rules
        return fun span => (⟨recursive, tables, bodies, orderBy, limit, span⟩ : Select)) := by
    intro recursive tables span
    refine (locates_bodies h).bind fun bodies => (locates_orderBy h).bind fun terms =>
      (locates_limit h).bind fun limit => .pure fun ts hLie => ?_
    simpa [Select.fragments, CommonTable.fragmentsAll_eq, OrderTerm.fragmentsAll_eq, and_assoc]
      using hLie
  have hTail : Locates [] (fun q : Select => q.fragments.tail) (select rules) := by
    refine .spanned fun span => .behind fun hasTables => ?_
    cases hasTables with
    | true =>
      exact .behind fun recursive => (locates_commonTable h).separated.bind fun tables =>
        hParts recursive tables span
    | false => exact hParts false [] span
  rw [funext hCons]
  exact .node spans_select hTail (fun _ => rfl) hCons

/-! ## Tables -/

theorem locates_checkCondition (h : rules.Locates) :
    Locates [] Expr.fragments (checkCondition rules) :=
  .behind fun _ => (locates_expr h).bind fun _ => .behind fun _ => .pure fun _ hLie => hLie

theorem locates_columnRest (h : rules.Locates) (name : String) (first : Span) :
    Locates [] (fun d => d.fragments.tail) (columnRest rules name first) := by
  refine .behind fun type => (locates_term h).after.bind fun default => .behind fun _ =>
    .behind fun _ => .behind fun _ => .behind fun _ =>
      (locates_checkCondition h).after.bind fun check =>
    .behind fun span => .pure fun ts hLie => ?_
  simpa [ColumnDefinition.fragments] using hLie

theorem spans_columnDefinition : Spans ColumnDefinition.span (columnDefinition rules) :=
  .of_consumes (.behind fun _ => .bind .ask) fun _ _ => rfl

theorem locates_columnDefinition (h : rules.Locates) :
    Locates [] ColumnDefinition.fragments (columnDefinition rules) :=
  .node spans_columnDefinition (.behind fun _ => .behind fun name => locates_columnRest h name _)
    (fun _ => rfl) fun _ => rfl

theorem consumes_demand : Consumes (demand rules) :=
  .choose (.choose (.choose (.choose .fail)))

theorem locates_demand (h : rules.Locates) :
    Locates [] (fun d => fragmentsOption Expr.fragments d.condition?) (demand rules) := by
  refine .choose ?_ (.choose ?_ (.choose ?_ (.choose ?_ .fail)))
  · exact .behind fun _ => .behind fun _ => .behind fun _ => .pure fun _ hLie => hLie
  · exact .behind fun _ => .behind fun _ => .pure fun _ hLie => hLie
  · exact (locates_checkCondition h).bind fun _ => .pure fun _ hLie => hLie
  · exact .behind fun _ => .behind fun _ => .behind fun _ => .pure fun _ hLie => hLie

theorem spans_tableConstraint : Spans Constraint.span (tableConstraint rules) :=
  .of_consumes (.spanned (.behind fun _ => .bind consumes_demand)) fun _ _ => rfl

theorem locates_tableConstraint (h : rules.Locates) :
    Locates [] Constraint.fragments (tableConstraint rules) :=
  .node spans_tableConstraint
    (.spanned fun _ => .behind fun _ => (locates_demand h).bind fun _ => .pure fun _ hLie => hLie)
    (fun _ => rfl) fun _ => rfl

theorem locates_tableElement (h : rules.Locates) :
    Locates [] TableElement.fragments (tableElement rules) :=
  .choose ((locates_columnDefinition h).bind fun _ => .pure fun _ hLie => hLie)
    ((locates_tableConstraint h).bind fun _ => .pure fun _ hLie => hLie)

theorem spans_createTable : Spans CreateTable.span (createTable rules) :=
  .of_consumes (.spanned (.bind .expectKeyword)) fun _ _ => rfl

theorem locates_createTable (h : rules.Locates) :
    Locates [] (fun c => (Statement.createTable c).fragments) (createTable rules) := by
  have hElements : Locates [] (List.flatMap TableElement.fragments) (tableElements rules) :=
    .choose ((locates_tableElement h).separated.bind fun _ => .behind fun _ => .pure fun _ hLie =>
      hLie)
      (.pure fun _ hLie => hLie)
  refine .node spans_createTable (.spanned fun _ => ?_) (fun _ => rfl) fun _ => rfl
  exact .behind fun _ => .behind fun _ => .behind fun _ => .behind fun _ => .behind fun _ =>
    hElements.bind fun _ => .behind fun _ => .pure fun _ hLie => hLie

theorem locates_addition (h : rules.Locates) : Locates [] AlterAction.fragments (addition rules) :=
  .choose ((locates_tableConstraint h).bind fun _ => .pure fun _ hLie => hLie)
    (.behind fun _ => (locates_columnDefinition h).bind fun _ => .pure fun _ hLie => hLie)

/-! ### Changes of columns -/

/-- The fragments of a change of a column, apart from a new definition as a whole. -/
def innerOfChange : ColumnChange → List Fragment
  | .redefine d => d.fragments.tail
  | change => change.fragments

theorem locates_columnChange (h : rules.Locates) (column : String) (first : Span) :
    Locates [] innerOfChange (columnChange rules column first) := by
  refine .choose (.behind fun _ => .behind fun _ => .pure fun _ hLie => hLie)
    (.choose ?_ (.choose ?_ ?_))
  · exact .choose ((locates_term h).bind fun _ => .pure fun _ hLie => hLie)
      (.choose (.behind fun _ => .pure fun _ hLie => hLie)
      (.behind fun _ => .pure fun _ hLie => hLie))
  · exact .choose (.pure fun _ hLie => hLie)
      (.behind fun _ => .behind fun _ => .pure fun _ hLie => hLie)
  · exact (locates_columnRest h column first).bind fun _ => .pure fun _ hLie => hLie

/-- A new definition has the span from where it is said to start. -/
theorem after_columnChange_span (column : String) (first : Span) (s : State) :
    After (columnChange rules column first) s fun change s' =>
      ∀ d, change = .redefine d → d.span = ((spanFrom first).run s').1 := by
  have hOther : ∀ {α : Type} {m : Parse α} {f : α → ColumnChange} {s₁ : State},
      (∀ a d, f a ≠ .redefine d) → After (m >>= fun a => pure (f a)) s₁ fun change s' =>
        ∀ d, change = .redefine d → d.span = ((spanFrom first).run s').1 :=
    fun hNot => After.behind fun a _ _ => .pure fun d hSame => (hNot a d hSame).elim
  refine After.eatIte (fun _ _ _ _ => ?_) fun _ => After.eatIte (fun _ _ _ _ => ?_) fun _ =>
    After.eatIte (fun _ _ _ _ => ?_) fun _ => ?_
  · exact After.behind fun _ _ _ => hOther fun _ _ => nofun
  · refine After.eatIte (fun _ _ _ _ => ?_) fun _ => After.eatIte (fun _ _ _ _ => ?_) fun _ => ?_
    · exact hOther fun _ _ => nofun
    · exact hOther fun _ _ => nofun
    · exact hOther fun _ _ => nofun
  · refine After.eatIte (fun _ _ _ _ => ?_) fun _ => ?_
    · exact .pure fun _ => nofun
    · exact After.behind fun _ _ _ => hOther fun _ _ => nofun
  · have hRest : After (columnRest rules column first) s fun d s' =>
        d.span = ((spanFrom first).run s').1 := fun _ => rfl
    refine hRest.bind fun d s' hSpan _ => .pure fun d' hSame => ?_
    obtain rfl := ColumnChange.redefine.inj hSame
    exact hSpan

/-- What is read behind `ALTER`, from the name of the column on. -/
def alterationOf (rules : Rules) : Parse AlterAction := do
  let first := (← current).span
  let column ← name .column
  return .alterColumn column (← columnChange rules column first)

/-- A new definition starts in front of the tokens that it is read from: with the name of the
column. -/
theorem locates_alterationOf (h : rules.Locates) :
    Locates [] AlterAction.fragments (alterationOf rules) := by
  intro s ts hAligned hBefore hError
  have hConsumes : Consumes (alterationOf rules) := .behind fun _ => .bind .ask
  have hInner : Locates [] (fun
      | .alterColumn _ change => innerOfChange change
      | action => action.fragments) (alterationOf rules) :=
    .behind fun _ => .behind fun column => (locates_columnChange h column _).bind fun _ =>
      .pure fun _ hLie => hLie
  have hRead : After (alterationOf rules) s fun action s' => ∃ column change,
      action = .alterColumn column change ∧
        ∀ d, change = .redefine d → d.span = ((spanFrom s.current.span).run s').1 :=
    After.look (After.behind fun column s₁ _ => (after_columnChange_span column _ s₁).bind
      fun change s' hSpan _ => .pure ⟨column, change, rfl, hSpan⟩)
  obtain ⟨us, hTokens, hCovers⟩ :=
    exists_covers hAligned ((alterationOf rules).moves s) (hConsumes s hError)
  obtain ⟨vs, hTokens', hLie⟩ := hInner s [] hAligned .nil hError
  obtain rfl : us = vs := List.append_cancel_right (hTokens.symm.trans hTokens')
  obtain ⟨column, change, hAction, hSpan⟩ := hRead hError
  refine ⟨us, hTokens, AllLie.mono ?_ (List.suffix_append _ _).isInfix⟩
  rw [hAction] at hLie ⊢
  cases change with
  | redefine d => exact AllLie.cons.mpr ⟨.of_covers rfl (hSpan d rfl ▸ hCovers) rfl hLie, hLie⟩
  | _ => exact hLie

theorem locates_alteration (h : rules.Locates) :
    Locates [] AlterAction.fragments (alteration rules) := by
  refine .behind fun seen => .behind fun next => ?_
  split
  · exact .behind fun _ => locates_alterationOf h
  · exact locates_alterationOf h

theorem locates_alterAction (h : rules.Locates) :
    Locates [] AlterAction.fragments (alterAction rules) := by
  refine .choose (locates_addition h)
    (.choose (locates_alteration h) (.choose ?_ (.choose ?_ .fail)))
  · exact .choose (.behind fun _ => .pure fun _ hLie => hLie)
      (.choose (.behind fun _ => .pure fun _ hLie => hLie)
        (.behind fun _ => .behind fun _ => .pure fun _ hLie => hLie))
  · exact .choose (.behind fun _ => .pure fun _ hLie => hLie)
      (.behind fun _ => .behind fun _ => .behind fun _ => .behind fun _ => .pure fun _ hLie => hLie)

theorem spans_alterTable : Spans AlterTable.span (alterTable rules) :=
  .of_consumes (.spanned (.bind .expectKeyword)) fun _ _ => rfl

theorem locates_alterTable (h : rules.Locates) :
    Locates [] (fun a => (Statement.alterTable a).fragments) (alterTable rules) :=
  .node spans_alterTable (.spanned fun _ => .behind fun _ => .behind fun _ => .behind fun _ =>
    (locates_alterAction h).bind fun _ => .pure fun _ hLie => hLie) (fun _ => rfl) fun _ => rfl

theorem spans_dropTable : Spans DropTable.span dropTable :=
  .of_consumes (.spanned (.bind .expectKeyword)) fun _ _ => rfl

theorem locates_dropTable : Locates [] (fun d => (Statement.dropTable d).fragments) dropTable :=
  .node spans_dropTable (.spanned fun _ => .behind fun _ => .behind fun _ => .behind fun _ =>
    .behind fun _ => .behind fun _ => .pure fun _ hLie => hLie) (fun _ => rfl) fun _ => rfl

/-! ## Rows -/

theorem locates_insertSource (h : rules.Locates) :
    Locates [] InsertSource.fragments (insertSource rules) :=
  .choose ((locates_valueRow h).separated.bind fun _ => .pure fun _ hLie => hLie)
    (.choose (.behind fun _ => .pure fun _ hLie => hLie)
      ((locates_select h).bind fun _ => .pure fun _ hLie => hLie))

theorem spans_insert : Spans Insert.span (insert rules) :=
  .of_consumes (.spanned (.bind (.choose (.bind .expectKeyword)))) fun _ _ => rfl

theorem locates_insert (h : rules.Locates) :
    Locates [] (fun i => (Statement.insert i).fragments) (insert rules) :=
  .node spans_insert (.spanned fun _ => .behind fun _ => .behind fun _ => .behind fun _ =>
    .behind fun _ => (locates_insertSource h).bind fun _ => .pure fun _ hLie => hLie)
    (fun _ => rfl) fun _ => rfl

theorem locates_assignment (h : rules.Locates) :
    Locates [] (fun a => a.value.fragments) (assignment rules) :=
  .behind fun _ => .behind fun _ => (locates_expr h).bind fun _ => .pure fun _ hLie => hLie

theorem spans_update : Spans Update.span (update rules) :=
  .of_consumes (.spanned (.bind .expectKeyword)) fun _ _ => rfl

theorem locates_update (h : rules.Locates) :
    Locates [] (fun u => (Statement.update u).fragments) (update rules) :=
  .node spans_update (.spanned fun _ => .behind fun _ => .behind fun _ => .behind fun _ =>
    .behind fun _ => (locates_assignment h).separated.bind fun _ => (locates_expr h).after.bind
      fun _ => .pure fun _ hLie => hLie) (fun _ => rfl) fun _ => rfl

theorem spans_delete : Spans Delete.span (delete rules) :=
  .of_consumes (.spanned (.bind .expectKeyword)) fun _ _ => rfl

theorem locates_delete (h : rules.Locates) :
    Locates [] (fun d => (Statement.delete d).fragments) (delete rules) :=
  .node spans_delete (.spanned fun _ => .behind fun _ => .behind fun _ => .behind fun _ =>
    (locates_expr h).after.bind fun _ => .pure fun _ hLie => hLie) (fun _ => rfl) fun _ => rfl

/-! ## Statements -/

/-- All fragments of a statement lie among its tokens. -/
theorem locates_statementOfKind (h : rules.Locates) :
    Locates [] Statement.fragments (statementOfKind rules) := by
  have hQuery : Locates [] (fun q => (Statement.select q).fragments) (select rules) :=
    .node spans_select (locates_select h) (fun _ => rfl) fun _ => rfl
  refine .behind fun kind => ?_
  split
  · exact .map (locates_createTable h) fun _ _ hLie => hLie
  · exact .map (locates_alterTable h) fun _ _ hLie => hLie
  · exact .map locates_dropTable fun _ _ hLie => hLie
  · exact .map (locates_insert h) fun _ _ hLie => hLie
  · exact .map (locates_insert h) fun _ _ hLie => hLie
  · exact .map (locates_update h) fun _ _ hLie => hLie
  · exact .map (locates_delete h) fun _ _ hLie => hLie
  · exact .map hQuery fun _ _ hLie => hLie

/-- The span of a statement is that of its tokens. -/
theorem spans_statementOfKind : Spans Statement.span (statementOfKind rules) := by
  intro s hAligned
  refine After.look ?_
  split
  · exact spans_createTable s hAligned
  · exact spans_alterTable s hAligned
  · exact spans_dropTable s hAligned
  · exact spans_insert s hAligned
  · exact spans_insert s hAligned
  · exact spans_update s hAligned
  · exact spans_delete s hAligned
  · exact spans_select s hAligned

end Grammar

end SqlKit
