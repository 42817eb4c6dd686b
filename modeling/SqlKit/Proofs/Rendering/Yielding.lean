import SqlKit.Proofs.Grammar.Unbounded
import SqlKit.Proofs.Grammar.Yielding
import SqlKit.Proofs.Rendering.Names
import SqlKit.Proofs.Rendering.Parameters
import SqlKit.Proofs.Rendering.Sound

/-!
# What readers yield is sound

A reader of tokens none of which is a quoted name yields a tree whose row is sound: the names of the
tree are those of its tokens, and they are words. Nothing else is asked of the tree; it may hold
binary numbers, limits with parameters and double minus signs.
-/

namespace SqlKit.Grammar

open Parse Script

variable {rules : Rules}

/-! ## Names -/

theorem yields_name (role : NameRole) : Yields Token.Bare (name role) IsName :=
  .ask fun _ _ ht hName => (isName_of_nameOf? ht hName).1

theorem yields_dottedRest (role : NameRole) :
    Yields Token.Bare (dottedRest role) fun names => ∀ m ∈ names, IsName m :=
  .chainOf (yields_name role)

theorem yields_qualifiedName (role : NameRole) :
    Yields Token.Bare (qualifiedName role) IsQualified :=
  (yields_name role).bind fun _ hFirst => .choose
    ((yields_name role).bind fun _ hSecond => .pure ⟨by rintro _ ⟨rfl⟩; exact hFirst, hSecond⟩)
    (.pure ⟨by simp [QualifiedName.unqualified], hFirst⟩)

theorem sound_qualifiedName {q : QualifiedName} (h : IsQualified q) : Script.Sound q.row := by
  have hLegal := legal_qualifiedName h legal_nil detached_nil
  rw [List.append_nil] at hLegal
  exact hLegal.sound

theorem yields_listedColumn : Yields Token.Bare listedColumn IsName :=
  (yields_name _).bind fun column hColumn => .behind fun ascending => by
    cases ascending with
    | true => exact .pure hColumn
    | false => exact .behind fun _ => .pure hColumn

theorem yields_columnList : Yields Token.Bare columnList fun names => ∀ m ∈ names, IsName m :=
  .choose ((Yields.separated yields_listedColumn).bind fun _ hNames => .behind fun _ =>
    .pure hNames.2) (.pure (by simp))

theorem yields_optionalColumnList :
    Yields Token.Bare optionalColumnList fun names => ∀ m ∈ names, IsName m :=
  .choose yields_columnList (.pure (by simp))

theorem sound_asNameRow {name : Option String} (h : ∀ m ∈ name, IsName m) :
    Script.Sound (asNameRow name) := by
  cases name with
  | none => simp [asNameRow]
  | some m => simpa [asNameRow] using h m rfl

theorem yields_asName? : Yields Token.Bare asName? fun name => Script.Sound (asNameRow name) :=
  .choose ((yields_name _).bind fun m hm => .pure (sound_asNameRow (by simpa using hm)))
    ((Yields.take? fun _ _ ht hName =>
      (isName_of_nameOf? ht (nameOf?_of_identifierOf? hName)).1).imp fun _ => sound_asNameRow)

/-! ## Leaves of terms -/

theorem yields_columnType : Yields Token.Bare columnType fun x => Script.Sound x.row := by
  rw [columnType_eq]
  refine (yields_name _).bind fun first hFirst => ?_
  refine (Yields.take? fun t word ht hWord => (secondWord?_spec ht hWord).1).bind
    fun second hSecond => ?_
  intro s _
  refine After.typeArguments.imp fun x s' hx => ?_
  obtain ⟨hName, hArguments, -⟩ := hx
  obtain ⟨hLegal, hDetached⟩ := legal_argumentsRow hArguments
  rw [ColumnType.row, hName, typeNameRow_eq hFirst hSecond, sound_append hDetached]
  refine ⟨?_, hLegal.sound⟩
  cases second with
  | none => simpa [typeRow] using hFirst
  | some word => simpa [typeRow] using ⟨hFirst, hSecond word rfl⟩

theorem sound_integerRow (value : Int) :
    Script.Sound (integerRow value) ↔ value.natAbs ≤ Numeral.maxInteger := by
  unfold integerRow
  split
  · have hSign := sound_sign [.integer value.natAbs] true
    rw [show signSymbol true = .minus from rfl] at hSign
    rw [hSign, sound_singleton]
    rfl
  · rw [sound_singleton]
    rfl

/-- A word that is no keyword is a name. -/
theorem isName_of_wordKind {text : String} {name : Identifier} (hWord : isWord text.toList = true)
    (hKind : wordKind text = .identifier name) : IsName text :=
  ⟨hWord, fun _ hw => nomatch hKind.symm.trans hw⟩

theorem isName_inf : IsName "inf" :=
  have hKind : wordKind "inf" = .identifier (.bare "inf") := by decide +kernel
  isName_of_wordKind (by decide +kernel) hKind

theorem isName_notANumber : IsName "NaN" :=
  have hKind : wordKind "NaN" = .identifier (.bare "NaN") := by decide +kernel
  isName_of_wordKind (by decide +kernel) hKind

theorem sound_float (x : Binary64) : Script.Sound x.row := by
  have hMinus : ∀ gs : Script, Script.Sound (.symbol .minus :: gs) ↔ Script.Sound gs :=
    fun gs => sound_sign gs true
  cases x with
  | finite negative significand scale =>
    have hDigits := Binary64.isPositional_numeral significand scale
    cases negative <;> simpa [Binary64.row, hMinus, Glyph.Fits] using hDigits
  | infinite negative => cases negative <;> simpa [Binary64.row, hMinus] using isName_inf
  | notANumber => simpa [Binary64.row] using isName_notANumber

theorem sound_literal {t : Token} {value : Literal} (ht : t.Bare) (h : literalOf? t = some value) :
    Script.Sound value.row := by
  have hKind := kind_of_literalOf? h
  cases value with
  | integer value =>
    have hPositive := ht.integer value hKind
    have hBound := toNat_toInt_le value
    rw [Literal.row, sound_integerRow]
    omega
  | float x => exact sound_float x
  | string value => simp [Literal.row, Glyph.Fits]
  | boolean value => cases value <;> simp [Literal.row]
  | null => simp [Literal.row]

theorem yields_placeholder : Yields Token.Bare placeholder fun x => Script.Sound x.row := by
  refine .behind fun mark => .behind fun _ => ?_
  have hNumber : Yields Token.Bare (take? fun t : Token =>
      if t.span.first.offset = mark.span.last.offset then unsigned? t else none)
      fun number => ∀ m ∈ number, m ≤ Numeral.maxInteger := by
    refine Yields.take? fun t m _ hAccept => ?_
    split at hAccept
    · exact (of_unsigned? hAccept).trans maxUnsigned_le
    · cases hAccept
  refine hNumber.bind fun number hFits => .behind fun position => .pure ?_
  cases number with
  | none => simp [Term.row, Placeholder.row, Glyph.Fits]
  | some m => simpa [Term.row, Placeholder.row, Glyph.Fits] using hFits m rfl

/-- A sign in front of a name is read with it. -/
theorem sound_atSign {m : String} {gs : Script} (h : Legal (.name m :: gs)) :
    Script.Sound (.symbol .atSign :: .name m :: gs) := by
  refine Legal.sound (legal_cons.mpr ⟨by simp, fun g hg => ?_, h⟩)
  obtain rfl := Option.some.inj hg
  rfl

theorem yields_namedParameter : Yields Token.Bare namedParameter fun x => Script.Sound x.row := by
  refine .behind fun mark => .behind fun _ => (yields_name _).bind fun m hm => ?_
  have hUse : ∀ typeName span, Script.Sound (Term.row (.parameter ⟨m, typeName, false, span⟩)) :=
    fun typeName span => sound_atSign (by simpa using hm)
  refine .choose ?_ (.behind fun typeName => ?_)
  · refine (yields_name _).bind fun first hFirst => (yields_dottedRest _).bind fun rest hRest => ?_
    refine .behind fun _ => .behind fun span => .pure ?_
    have hRow : Term.row (.parameter ⟨m, dottedText first rest, true, span⟩) =
        .symbol .atSign :: .name m :: .symbol .colon :: .name first :: dotted rest := by
      rw [Term.row, NamedParameter.row, if_pos rfl, dottedRow_dottedText hFirst hRest]
    have hType : Legal (.name m :: .symbol .colon :: .name first :: dotted rest) := by
      refine legal_cons.mpr ⟨hm, ?_, legal_cons.mpr ⟨by simp, ?_, legal_dotted hFirst hRest⟩⟩ <;>
        simp [Glyph.meets, Glyph.allows]
    exact hRow ▸ sound_atSign hType
  · cases typeName with
    | some typeName => exact .behind fun span => .pure (hUse typeName span)
    | none => exact .failUntyped

/-! ## Terms -/

/-- What the readers yield that the grammar comes back to is sound. -/
structure Rules.YieldSound (rules : Rules) : Prop where
  expr : Yields Token.Bare rules.expr fun x => Script.Sound x.row
  select : Yields Token.Bare rules.select fun x => Script.Sound x.row
  joinClause : Yields Token.Bare rules.joinClause fun x => Script.Sound x.row

/-- Expressions with sound rows. -/
theorem sound_rowAll {es : List Expr} (h : ∀ e ∈ es, Script.Sound e.row) :
    ∀ row ∈ Expr.rowAll es, Script.Sound row := by
  induction es with
  | nil => simp [Expr.rowAll]
  | cons e es ih =>
    obtain ⟨hHead, hTail⟩ := List.forall_mem_cons.mp h
    exact List.forall_mem_cons.mpr ⟨hHead, ih hTail⟩

theorem yields_callArguments (h : rules.YieldSound) {function : String} (hName : IsName function) :
    Yields Token.Bare (callArguments rules function) fun x => Script.Sound x.row := by
  refine .choose (.behind fun _ => .pure ?_) (.choose (.behind fun _ => .pure ?_) ?_)
  · simpa [Term.row] using hName
  · simpa [Term.row, Expr.rowAll, commaRow, optionalWord] using hName
  · refine .behind fun distinct => h.expr.separated.bind fun arguments hArguments => ?_
    refine .behind fun _ => .pure ?_
    simpa [Term.row] using ⟨hName, sound_rowAll hArguments.2⟩

theorem yields_pathOrCall (h : rules.YieldSound) :
    Yields Token.Bare (pathOrCall rules) fun x => Script.Sound x.row :=
  (yields_name _).bind fun _ hFirst => .choose (yields_callArguments h hFirst)
    ((yields_dottedRest _).bind fun _ hRest => .pure (legal_dotted hFirst hRest).sound)

theorem yields_branch (h : rules.YieldSound) : Yields Token.Bare (branch rules) fun b =>
    Script.Sound b.condition.row ∧ Script.Sound b.result.row :=
  h.expr.bind fun _ hCondition => .behind fun _ => h.expr.bind fun _ hResult =>
    .pure ⟨hCondition, hResult⟩

theorem sound_branches {bs : List Branch}
    (h : ∀ b ∈ bs, Script.Sound b.condition.row ∧ Script.Sound b.result.row) :
    Script.Sound (Branch.rowAll bs) := by
  induction bs with
  | nil => simp [Branch.rowAll]
  | cons b bs ih =>
    obtain ⟨⟨hCondition, hResult⟩, hTail⟩ := List.forall_mem_cons.mp h
    obtain ⟨condition, result⟩ := b
    rw [Branch.rowAll, sound_append (detached_branches bs)]
    simpa [hCondition, hResult] using ih hTail

/-- An optional expression behind words. -/
theorem sound_rowAfter {before : Script} (h : ∀ gs, Script.Sound (before ++ gs) ↔ Script.Sound gs)
    {o : Option Expr} (ho : ∀ e ∈ o, Script.Sound e.row) :
    Script.Sound (Expr.rowAfter before o) := by
  cases o with
  | none => simp [Expr.rowAfter]
  | some e => exact (h e.row).mpr (ho e rfl)

theorem yields_caseTerm (h : rules.YieldSound) :
    Yields Token.Bare (caseTerm rules) fun x => Script.Sound x.row := by
  have hOperand : Yields Token.Bare (caseOperand rules) fun o => ∀ e ∈ o, Script.Sound e.row :=
    .choose (.pure (by simp)) (.map (h.expr.imp fun e he => by simpa using he))
  have hBranches : Yields Token.Bare (caseBranches rules) fun bs =>
      ∀ b ∈ bs, Script.Sound b.condition.row ∧ Script.Sound b.result.row :=
    .choose (.chain fun _ _ _ _ => yields_branch h) .fail
  rw [caseTerm_eq]
  refine .behind fun _ => hOperand.bind fun operand hOperand =>
    hBranches.bind fun bs hBranches => ?_
  refine h.expr.after.bind fun otherwise hOtherwise => .behind fun _ => .pure ?_
  have hEnd : Detached (Expr.rowAfter [.blank, .keyword .ELSE, .blank] otherwise ++
      [.blank, .keyword .END]) := (detached_rowAfter _ _).append (detached_cons rfl)
  have hRest := (detached_branches bs).append hEnd
  rw [Term.row, sound_cons_detached ((detached_rowAfter _ _).append hRest), sound_append hRest,
    sound_append hEnd, sound_append_blank]
  exact ⟨fits_keyword _, sound_rowAfter (by simp) hOperand, sound_branches hBranches,
    sound_rowAfter (by simp) hOtherwise, by simp⟩

theorem yields_castTerm (h : rules.YieldSound) :
    Yields Token.Bare (castTerm rules) fun x => Script.Sound x.row :=
  .behind fun _ => .behind fun _ => h.expr.bind fun _ hInner => .behind fun _ =>
    yields_columnType.bind fun _ hTarget => .behind fun _ =>
      .pure (by simpa [Term.row] using ⟨hInner, hTarget⟩)

theorem yields_parenthesized (h : rules.YieldSound) :
    Yields Token.Bare (parenthesized rules) fun x => Script.Sound x.row := by
  refine .behind fun _ => .behind fun query => ?_
  cases query with
  | true =>
    exact .bind (.map (h.select.imp fun q hq => by simpa [Term.row] using hq))
      fun _ hx => .behind fun _ => .pure hx
  | false =>
    exact .bind (.map (h.expr.imp fun e he => by simpa [Term.row] using he))
      fun _ hx => .behind fun _ => .pure hx

theorem yields_unsignedTerm (h : rules.YieldSound) :
    Yields Token.Bare (unsignedTerm rules) fun x => Script.Sound x.row := by
  rw [unsignedTerm_eq]
  refine (Yields.take? fun t value ht hValue => sound_literal ht hValue).bind fun o ho => ?_
  cases o with
  | some value => exact .pure (ho value rfl)
  | none =>
    refine .behind fun kind => ?_
    unfold termOfKind
    split
    · exact yields_placeholder
    · exact yields_namedParameter
    · exact yields_parenthesized h
    · exact yields_caseTerm h
    · exact yields_castTerm h
    · exact .choose (yields_pathOrCall h) .fail

/-- A sign changes a number, or stands in front. -/
theorem sound_applySign (negative : Bool) {x : Term} (h : Script.Sound x.row) :
    Script.Sound (applySign negative x).row := by
  have hSigned : Script.Sound (Term.row (.signed negative x)) := by simpa [Term.row] using h
  cases x with
  | literal value =>
    cases value with
    | integer value =>
      cases negative with
      | false => exact h
      | true =>
        have hBound : value.toInt.natAbs ≤ Numeral.maxInteger := (sound_integerRow _).mp h
        have hNegative : (-value).toInt = -value.toInt := toInt_neg_of_le (by omega)
        refine (sound_integerRow _).mpr ?_
        rw [hNegative, Int.natAbs_neg]
        exact hBound
    | float x => cases negative <;> exact sound_float _
    | string | boolean | null => cases negative <;> exact hSigned
  | _ => cases negative <;> exact hSigned

theorem yields_term (h : rules.YieldSound) :
    Yields Token.Bare (term rules) fun x => Script.Sound x.row := by
  refine .behind fun signs => (yields_unsignedTerm h).bind fun x hx => .pure ?_
  induction signs with
  | nil => exact hx
  | cons negative signs ih => exact sound_applySign negative ih

/-! ## Operands -/

theorem yields_product (h : rules.YieldSound) :
    Yields Token.Bare (product rules) fun x => Script.Sound x.row :=
  .layer (M := fun entry => Script.Sound (Term.row entry.2)) (yields_term h) (fun _ _ _ _ =>
    .map (yields_term h)) (fun _ hx => hx) fun left entry hLeft hRight => by
      simpa [Product.row] using ⟨hLeft, by cases entry.1 <;> simp [MulOp.symbol], hRight⟩

theorem yields_sum (h : rules.YieldSound) :
    Yields Token.Bare (sum rules) fun x => Script.Sound x.row :=
  .layer (M := fun entry => Script.Sound (Product.row entry.2)) (yields_product h) (fun _ _ _ _ =>
    .map (yields_product h)) (fun _ hx => hx) fun left entry hLeft hRight => by
      simpa [Sum.row] using ⟨hLeft, by cases entry.1 <;> simp [AddOp.symbol], hRight⟩

theorem yields_operand (h : rules.YieldSound) :
    Yields Token.Bare (operand rules) fun x => Script.Sound x.row :=
  .layer (yields_sum h) (fun _ _ _ _ => yields_sum h) (fun _ hx => hx)
    fun left right hLeft hRight => by simpa [Operand.row] using ⟨hLeft, hRight⟩

/-! ## Conditions -/

theorem yields_membership (h : rules.YieldSound) {left : Operand} (hLeft : Script.Sound left.row)
    (negated : Bool) :
    Yields Token.Bare (membership rules left negated) fun x => Script.Sound x.row := by
  have hEnd : ∀ x : Condition, Script.Sound x.row →
      Yields Token.Bare (do expect .rightParen; return x) fun x => Script.Sound x.row :=
    fun x hx => .behind fun _ => .pure hx
  refine .behind fun _ => .behind fun query => .behind fun empty => ?_
  cases query with
  | true =>
    simp only [↓reduceIte, map_eq_pure_bind, bind_assoc, pure_bind]
    exact h.select.bind fun q hq => hEnd _ (by simpa [Condition.row] using ⟨hLeft, hq⟩)
  | false =>
    cases empty with
    | true => exact hEnd _ (by simpa [Condition.row, Expr.rowAll, commaRow] using hLeft)
    | false =>
      simp only [Bool.false_eq_true, ↓reduceIte, map_eq_pure_bind, bind_assoc, pure_bind]
      refine h.expr.separated.bind fun values hValues => hEnd _ ?_
      simpa [Condition.row] using ⟨hLeft, sound_rowAll hValues.2⟩

theorem yields_identity (h : rules.YieldSound) {left : Operand} (hLeft : Script.Sound left.row) :
    Yields Token.Bare (identity rules left) fun x => Script.Sound x.row :=
  .behind fun _ => .choose (.pure (by simpa [Condition.row] using hLeft))
    ((yields_operand h).bind fun _ hRight =>
      .pure (by simpa [Condition.row] using ⟨hLeft, hRight⟩))

theorem yields_test (h : rules.YieldSound) {left : Operand} (hLeft : Script.Sound left.row) :
    Yields Token.Bare (test rules left) fun x => Script.Sound x.row := by
  have hOperand := yields_operand h
  refine .behind fun operator => ?_
  cases operator with
  | some operator =>
    refine hOperand.bind fun right hRight => .pure ?_
    simpa [Condition.row] using ⟨hLeft, by cases operator <;> simp [CompareOp.symbol], hRight⟩
  | none =>
    refine .choose (yields_identity h hLeft) (.behind fun negated => ?_)
    refine .choose ?_ (.choose (yields_membership h hLeft negated) (.choose ?_ (.choose ?_ ?_)))
    · refine hOperand.bind fun low hLow => .behind fun _ => hOperand.bind fun high hHigh => .pure ?_
      simpa [Condition.row] using ⟨hLeft, hLow, hHigh⟩
    · refine hOperand.bind fun pattern hPattern => hOperand.after.bind fun escape hEscape => ?_
      cases escape with
      | none => exact .pure (by simpa [Condition.row] using ⟨hLeft, hPattern⟩)
      | some escape =>
        exact .pure (by simpa [Condition.row] using ⟨hLeft, hPattern, hEscape escape rfl⟩)
    · exact hOperand.bind fun pattern hPattern =>
        .pure (by simpa [Condition.row] using ⟨hLeft, hPattern⟩)
    · exact .pure (by simpa [Condition.row] using hLeft)

theorem yields_plainCondition (h : rules.YieldSound) :
    Yields Token.Bare (plainCondition rules) fun x => Script.Sound x.row :=
  .choose (.behind fun _ => h.select.bind fun _ hQuery => .behind fun _ =>
      .pure (by simpa [Condition.row] using hQuery))
    ((yields_operand h).bind fun _ hLeft => yields_test h hLeft)

theorem yields_condition (h : rules.YieldSound) :
    Yields Token.Bare (condition rules) fun x => Script.Sound x.row := by
  refine .behind fun negations => (yields_plainCondition h).bind fun c hc => .pure ?_
  induction negations with
  | nil => exact hc
  | cons _ negations ih => simpa [Condition.row] using ih

theorem yields_conjunction (h : rules.YieldSound) :
    Yields Token.Bare (conjunction rules) fun x => Script.Sound x.row :=
  .layer (yields_condition h) (fun _ _ _ _ => yields_condition h) (fun _ hx => hx)
    fun left right hLeft hRight => by simpa [Conjunction.row] using ⟨hLeft, hRight⟩

theorem yields_expr (h : rules.YieldSound) :
    Yields Token.Bare (expr rules) fun x => Script.Sound x.row :=
  .layer (yields_conjunction h) (fun _ _ _ _ => yields_conjunction h) (fun _ hx => hx)
    fun left right hLeft hRight => by simpa [Expr.row] using ⟨hLeft, hRight⟩

/-! ## Sources -/

theorem yields_parenthesizedSource (h : rules.YieldSound) :
    Yields Token.Bare (parenthesizedSource rules) fun x => Script.Sound x.row :=
  .choose (h.select.bind fun _ hQuery => .behind fun _ => yields_asName?.bind fun _ hName =>
      .pure (by simpa [Source.row] using ⟨hQuery, hName⟩))
    (h.joinClause.bind fun _ hClause => .behind fun _ =>
      .pure (by simpa [Source.row] using hClause))

theorem yields_source (h : rules.YieldSound) :
    Yields Token.Bare (source rules) fun x => Script.Sound x.row := by
  refine .choose (yields_parenthesizedSource h) ?_
  refine (yields_qualifiedName _).bind fun table hTable => yields_asName?.bind fun name hName => ?_
  exact .pure ((sound_append (detached_asNameRow name)).mpr ⟨sound_qualifiedName hTable, hName⟩)

theorem sound_joinOperator (o : JoinOperator) : Script.Sound o.row := by
  obtain ⟨natural, kind, outer⟩ := o
  unfold JoinOperator.row
  split
  · simp
  · cases kind <;> simp [JoinKind.row]

theorem yields_joinConstraint (h : rules.YieldSound) :
    Yields Token.Bare (joinConstraint rules) fun x => Script.Sound x.row :=
  .choose ((yields_expr h).bind fun _ hCondition =>
      .pure (by simpa [JoinConstraint.row] using hCondition))
    (.choose (yields_columnList.bind fun _ hNames =>
      .pure (by simpa [JoinConstraint.row] using hNames)) (.pure (by simp [JoinConstraint.row])))

theorem yields_joinClause (h : rules.YieldSound) :
    Yields Token.Bare (joinClause rules) fun x => Script.Sound x.row := by
  refine .layer (M := fun j => Script.Sound j.source.row ∧ Script.Sound j.constraint.row)
    (yields_source h)
    (fun _ _ _ _ => ?_) (fun _ hx => hx) fun left j hLeft hRight => ?_
  · exact .behind fun _ => (yields_source h).bind fun _ hSource =>
      (yields_joinConstraint h).bind fun _ hConstraint => .pure ⟨hSource, hConstraint⟩
  · rw [JoinClause.row, sound_append ((JoinOperator.apart_row _).1.append (detached_cons rfl)),
      sound_append (detached_cons rfl), sound_blank, sound_append j.constraint.detached_row]
    exact ⟨hLeft, sound_joinOperator j.operator, hRight⟩

/-! ## Bodies -/

theorem yields_resultColumn (h : rules.YieldSound) :
    Yields Token.Bare (resultColumn rules) fun x => Script.Sound x.row := by
  refine .choose (.pure (by simp [ResultColumn.row])) (.choose ?_ ?_)
  · refine (yields_name _).bind fun table hTable => .behind fun _ => .behind fun _ => .pure ?_
    refine Legal.sound (legal_cons.mpr ⟨hTable, ?_, legal_cons.mpr ⟨by simp, ?_, by simp⟩⟩) <;>
      simp [Glyph.meets, Glyph.allows]
  · refine (yields_expr h).bind fun value hValue => yields_asName?.bind fun name hName => ?_
    exact .pure ((sound_append (detached_asNameRow name)).mpr ⟨hValue, hName⟩)

theorem yields_valueRow (h : rules.YieldSound) :
    Yields Token.Bare (valueRow rules) fun es => ∀ e ∈ es, Script.Sound e.row :=
  .behind fun _ => (yields_expr h).separated.bind fun _ hValues => .behind fun _ => .pure hValues.2

theorem sound_rowRows {rows : List (List Expr)} (h : ∀ es ∈ rows, ∀ e ∈ es, Script.Sound e.row) :
    ∀ row ∈ Expr.rowRows rows, Script.Sound row := by
  induction rows with
  | nil => simp [Expr.rowRows]
  | cons es rows ih =>
    obtain ⟨hHead, hTail⟩ := List.forall_mem_cons.mp h
    refine List.forall_mem_cons.mpr ⟨?_, ih hTail⟩
    simpa using sound_rowAll hHead

theorem sound_columns {columns : List ResultColumn} (h : ∀ c ∈ columns, Script.Sound c.row) :
    ∀ row ∈ ResultColumn.rowAll columns, Script.Sound row := by
  induction columns with
  | nil => simp [ResultColumn.rowAll]
  | cons c columns ih =>
    obtain ⟨hHead, hTail⟩ := List.forall_mem_cons.mp h
    exact List.forall_mem_cons.mpr ⟨hHead, ih hTail⟩

/-- A list behind two words. -/
theorem sound_listed {α : Type} {xs : List α} {first second : Keyword} {rows : List Script}
    (h : ∀ row ∈ rows, Script.Sound row) : Script.Sound (if xs.isEmpty then [] else
      [.blank, .keyword first, .blank, .keyword second, .blank] ++ commaRow rows) := by
  split
  · simp
  · simpa using h

theorem yields_body (h : rules.YieldSound) :
    Yields Token.Bare (body rules) fun x => Script.Sound x.row := by
  have hExpr := yields_expr h
  refine .choose ((yields_valueRow h).separated.bind fun rows hRows => .pure ?_)
    (.behind fun _ => .behind fun distinct => ?_)
  · simpa [Body.row] using sound_rowRows hRows.2
  have hGroupBy : Yields Token.Bare (groupBy rules) fun es => ∀ e ∈ es, Script.Sound e.row :=
    .choose (.behind fun _ => hExpr.separated.imp fun _ => And.right) (.pure (by simp))
  refine (yields_resultColumn h).separated.bind fun columns hColumns => ?_
  refine (yields_joinClause h).after.bind fun source hSource => ?_
  refine hExpr.after.bind fun condition hCondition => ?_
  refine hGroupBy.bind fun groupBy hGroupBy => hExpr.after.bind fun having hHaving => .pure ?_
  have hBehindGroups := detached_rowAfter [.keyword .HAVING, .blank] having
  have hBehindCondition := (detached_listed groupBy [.keyword .GROUP, .blank, .keyword .BY, .blank]
    (commaRow (Expr.rowAll groupBy))).append hBehindGroups
  have hBehindSource := (detached_rowAfter [.keyword .WHERE, .blank] condition).append
    hBehindCondition
  have hBehindColumns := (detached_rowAfterFrom source).append hBehindSource
  rw [Body.row, List.cons_append, List.cons_append, List.nil_append, sound_cons_blank,
    sound_optionalWord, sound_append hBehindColumns, sound_append hBehindSource,
    sound_append hBehindCondition, sound_append hBehindGroups, sound_commaRow]
  refine ⟨fits_keyword _, sound_columns hColumns.2, ?_, sound_rowAfter (by simp) hCondition,
    sound_listed (sound_rowAll hGroupBy), sound_rowAfter (by simp) hHaving⟩
  cases source with
  | none => simp [JoinClause.rowAfterFrom]
  | some clause => simpa [JoinClause.rowAfterFrom] using hSource clause rfl

theorem yields_compound (h : rules.YieldSound) (operator : SetOperator) :
    Yields Token.Bare (compound rules operator) fun x => Script.Sound x.2.row := by
  have hBody : ∀ operator : SetOperator, Yields Token.Bare
      (do return (operator, ← body rules)) fun x => Script.Sound x.2.row :=
    fun _ => (yields_body h).bind fun _ hBody => .pure hBody
  unfold compound
  split
  · refine .behind fun all => ?_
    cases all with
    | true => exact hBody .unionAll
    | false => exact hBody .union
  · exact hBody operator

theorem sound_setOperator (o : SetOperator) : Script.Sound o.row := by
  cases o <;> simp [SetOperator.row]

theorem yields_bodies (h : rules.YieldSound) :
    Yields Token.Bare (bodies rules) fun x => Script.Sound x.row :=
  .layer (M := fun entry => Script.Sound (Body.row entry.2)) (yields_body h) (fun _ operator _ _ =>
    yields_compound h operator) (fun _ hx => hx) fun left entry hLeft hRight => by
      simpa [Bodies.row] using ⟨hLeft, sound_setOperator entry.1, hRight⟩

/-! ## Queries -/

theorem yields_commonTable (h : rules.YieldSound) :
    Yields Token.Bare (commonTable rules) fun t =>
      ∀ row ∈ CommonTable.rowAll [t], Script.Sound row := by
  refine (yields_name _).bind fun name hName =>
    yields_optionalColumnList.bind fun columns hColumns =>
    .behind fun _ => .behind fun _ => h.select.bind fun query hQuery => .behind fun _ => .pure ?_
  cases columns <;> simp_all [CommonTable.rowAll]

theorem sound_commonTables {tables : List CommonTable}
    (h : ∀ t ∈ tables, ∀ row ∈ CommonTable.rowAll [t], Script.Sound row) :
    ∀ row ∈ CommonTable.rowAll tables, Script.Sound row := by
  induction tables with
  | nil => simp [CommonTable.rowAll]
  | cons t tables ih =>
    obtain ⟨hHead, hTail⟩ := List.forall_mem_cons.mp h
    obtain ⟨name, columns, query⟩ := t
    refine List.forall_mem_cons.mpr ⟨hHead _ List.mem_cons_self, ih hTail⟩

theorem sound_orderTerms {terms : List OrderTerm} (h : ∀ t ∈ terms, Script.Sound t.key.row) :
    ∀ row ∈ OrderTerm.rowAll terms, Script.Sound row := by
  induction terms with
  | nil => simp [OrderTerm.rowAll]
  | cons t terms ih =>
    obtain ⟨hHead, hTail⟩ := List.forall_mem_cons.mp h
    obtain ⟨key, direction, nulls⟩ := t
    refine List.forall_mem_cons.mpr ⟨?_, ih hTail⟩
    cases nulls with
    | none => simpa using hHead
    | some placement => cases placement <;> simpa [NullPlacement.row] using hHead

theorem yields_orderBy (h : rules.YieldSound) :
    Yields Token.Bare (orderBy rules) fun terms => ∀ t ∈ terms, Script.Sound t.key.row := by
  refine .choose (.behind fun _ => (Yields.separated ?_).imp fun _ => And.right) (.pure (by simp))
  refine (yields_expr h).bind fun key hKey => .behind fun _ => .behind fun _ => ?_
  exact .pure hKey

theorem yields_limit (h : rules.YieldSound) :
    Yields Token.Bare (limit rules) fun x => Script.Sound x.row := by
  have hExpr := yields_expr h
  refine .choose (hExpr.bind fun first hFirst => ?_) (.pure (by simp [Limit.row]))
  refine .choose (hExpr.bind fun second hSecond => .pure ?_)
    (.choose (hExpr.bind fun second hSecond => .pure ?_) (.pure ?_))
  · simpa [Limit.row] using ⟨hFirst, hSecond⟩
  · simpa [Limit.row] using ⟨hSecond, hFirst⟩
  · simpa [Limit.row] using hFirst

theorem yields_select (h : rules.YieldSound) :
    Yields Token.Bare (select rules) fun x => Script.Sound x.row := by
  have hParts : ∀ (recursive : Bool) (tables : List CommonTable),
      (∀ t ∈ tables, ∀ row ∈ CommonTable.rowAll [t], Script.Sound row) →
      Yields Token.Bare (do
        let bodies ← bodies rules
        let orderBy ← orderBy rules
        let limit ← limit rules
        return fun span => (⟨recursive, tables, bodies, orderBy, limit, span⟩ : Select))
        fun f => ∀ span, Script.Sound (f span).row := by
    intro recursive tables hTables
    refine (yields_bodies h).bind fun bodies hBodies => (yields_orderBy h).bind fun terms hTerms =>
      (yields_limit h).bind fun limit hLimit => .pure fun span => ?_
    have hOrder : Script.Sound (if terms.isEmpty then [] else [.blank, .keyword .ORDER, .blank,
        .keyword .BY, .blank] ++ commaRow (OrderTerm.rowAll terms)) :=
      sound_listed (sound_orderTerms hTerms)
    have hBehind : Detached ((if terms.isEmpty then [] else [.blank, .keyword .ORDER, .blank,
        .keyword .BY, .blank] ++ commaRow (OrderTerm.rowAll terms)) ++ limit.row) :=
      (detached_listed terms _ _).append limit.detached_row
    have hRest := (sound_append hBehind).mpr ⟨hBodies, (sound_append limit.detached_row).mpr
      ⟨hOrder, hLimit⟩⟩
    cases tables with
    | nil => exact hRest
    | cons t tables =>
      have hList := (sound_commaRow _).mpr (sound_commonTables hTables)
      rw [Select.row, List.isEmpty_cons, if_neg Bool.false_ne_true]
      simpa only [List.cons_append, List.nil_append, List.append_assoc, sound_cons_blank,
        sound_optionalWord, sound_append_blank, fits_keyword, true_and] using ⟨hList, hRest⟩
  refine .spanned (.behind fun hasTables => ?_)
  cases hasTables with
  | true =>
    exact .behind fun recursive => (yields_commonTable h).separated.bind fun tables hTables =>
      hParts recursive tables hTables.2
  | false => exact hParts false [] (by simp)

/-- The grammar yields what is sound. The readers at the bound of the recursion do not, but they are
out of reach: rules that fail in place of them do the same. -/
theorem exists_yieldSound {n depth : Nat} (h : n ≤ depth) :
    ∃ rules : Rules, rules.YieldSound ∧ rules.SameBelow n (.upTo depth) :=
  Rules.exists_sameBelow ⟨.fail, .fail, .fail⟩
    (fun _ h => ⟨yields_expr h, yields_select h, yields_joinClause h⟩) h

end SqlKit.Grammar
