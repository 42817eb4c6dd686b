import SqlKit.Proofs.Simulation.Query

/-!
# Like texts read as table definitions

The readers of `CREATE TABLE`, `ALTER TABLE` and `DROP TABLE` keep every simulation.
-/

namespace SqlKit.Grammar

open Grammar.Similar

variable {e : Erasure} {S : Simulation e} {rules : Rules}

/-! ## Columns -/

theorem similar_signed (expected : Expected) :
    Similar S Eq (signed expected) (signed expected) := by
  refine (eat (by simp)).bind ?_
  rintro negative _ rfl
  exact askFor ⟨fun _ => rfl, fun _ _ => rfl, rfl, rfl⟩

theorem similar_sequence : Similar S Eq sequence sequence := by
  refine (eat (by simp)).ite ((similar_signed _).bind ?_) (pure rfl)
  rintro start _ rfl
  refine (eat (by simp)).iteBind (R := Eq) (similar_signed _) (pure rfl) ?_
  rintro increment _ rfl
  exact (expect (by simp)).bind fun _ _ _ => pure rfl

theorem similar_nullability : Similar S Eq nullability nullability :=
  (eatKeyword .NOT).ite ((expectKeyword .NULL).bind fun _ _ _ => pure rfl)
    ((eatKeyword .NULL).ite (pure rfl) (pure rfl))

theorem similar_numbering (implied : Bool) :
    Similar S Eq (numbering implied) (numbering implied) := by
  have hSequence : Similar S Eq (do return Numbering.automatic (← sequence))
      (do return Numbering.automatic (← sequence)) := by
    refine similar_sequence.bind ?_
    rintro sequence _ rfl
    exact pure rfl
  exact (eatKeyword .AUTOINCREMENT).ite hSequence ((eatKeyword .IDENTITY).ite hSequence (pure rfl))

theorem similar_columnKey : Similar S Eq columnKey columnKey := by
  refine (eatKeyword .PRIMARY).ite ((expectKeyword .KEY).bind fun _ _ _ =>
    (eatKeyword .HASH).bind ?_) (pure rfl)
  rintro hash _ rfl
  exact pure rfl

theorem similar_checkCondition (h : rules.Keep S) :
    Similar S (Like e) (checkCondition rules) (checkCondition rules) :=
  (expect (by simp)).bind fun _ _ _ => (similar_expr h).bind fun _ _ hCondition =>
    (expect (by simp)).bind fun _ _ _ => pure hCondition

theorem impliesIdentity_alike (S : Simulation e) {m n : String} (h : Like e m n) :
    SqlType.impliesIdentity m = SqlType.impliesIdentity n := by
  unfold SqlType.impliesIdentity
  rw [S.lower h]

theorem similar_columnRest (h : rules.Keep S) {m n : String} {first first' : Span}
    (hName : Like e m n)
    (hSpan : Similar S (Like e) (Parse.spanFrom first) (Parse.spanFrom first')) :
    Similar S (Like e) (columnRest rules m first) (columnRest rules n first') := by
  refine similar_columnType.bind fun type type' hType => (after (similar_term h)).bind
    fun _ _ hDefault => similar_nullability.bind ?_
  rintro nullability _ rfl
  have hImplied : SqlType.impliesIdentity type.name = SqlType.impliesIdentity type'.name :=
    impliesIdentity_alike S (congrArg ColumnType.name hType)
  rw [hImplied]
  refine (similar_numbering _).bind ?_
  rintro numbering _ rfl
  refine (eatKeyword .UNIQUE).bind ?_
  rintro unique _ rfl
  refine similar_columnKey.bind ?_
  rintro primaryKey _ rfl
  refine (after (similar_checkCondition h)).bind fun _ _ hCheck => hSpan.bind
    fun _ _ hSpan => pure ?_
  simp_all [Like, Erasable.erase, ColumnDefinition.erase]

theorem similar_columnDefinition (h : rules.Keep S) :
    Similar S (Like e) (columnDefinition rules) (columnDefinition rules) :=
  current_bind fun hs => (name .column).bind fun _ _ hName =>
    similar_columnRest h hName (spanFrom hs)

/-! ## Constraints -/

def OnClause.erase (_ : Erasure) (c : OnClause) : OnClause := c

instance : Erasable OnClause := ⟨OnClause.erase⟩

theorem similar_referentialAction : Similar S Eq referentialAction referentialAction :=
  (eatKeyword .CASCADE).ite (pure rfl) ((eatKeyword .RESTRICT).ite (pure rfl)
    ((eatKeyword .NO).ite ((expectKeyword .ACTION).bind fun _ _ _ => pure rfl)
    ((eatKeyword .SET).ite ((eatKeyword .DEFAULT).ite (pure rfl)
      ((expectKeyword .NULL).bind fun _ _ _ => pure rfl))
    ((fail _).bind fun _ _ _ => pure rfl))))

theorem similar_onClause : Similar S Eq onClause onClause := by
  refine (eatKeyword .DELETE).ite (similar_referentialAction.bind ?_)
    ((askKind (TokenKind.isFixed_keyword .UPDATE)).ite (similar_referentialAction.bind ?_)
    (pure rfl))
  · rintro action _ rfl
    exact pure rfl
  · rintro action _ rfl
    exact pure rfl

theorem like_applyOnClause (c : OnClause) {a b : Reference} (h : Like e a b) :
    Like e (applyOnClause a c) (applyOnClause b c) := by
  cases c <;> simp_all [Like, Erasable.erase, Reference.erase, applyOnClause]

theorem similar_reference : Similar S (Like e) reference reference := by
  refine (expectKeyword .REFERENCES).bind fun _ _ _ => (qualifiedName .table).bind
    fun _ _ hTable => optionalColumnList.bind fun _ _ hColumns =>
    (chainKind (TokenKind.isFixed_keyword .ON) fun _ => ?_).bind fun xs ys hClauses => pure ?_
  · intro s t hs
    obtain ⟨hResult, hState⟩ := similar_onClause hs
    exact ⟨congrArg (Erasable.erase e) hResult, hState⟩
  · refine like_foldl (fun a b x y hLeft hClause => ?_) ?_ hClauses
    · obtain rfl : x = y := hClause
      exact like_applyOnClause x hLeft
    · simp_all [Like, Erasable.erase, Reference.erase]

theorem similar_demand (h : rules.Keep S) :
    Similar S (Like e) (demand rules) (demand rules) := by
  refine (eatKeyword .PRIMARY).ite ((expectKeyword .KEY).bind fun _ _ _ =>
    (eatKeyword .HASH).bind ?_) ((eatKeyword .UNIQUE).ite ((eatKeyword .KEY).bind fun _ _ _ =>
    columnList.bind fun _ _ hColumns => pure ?_) ((eatKeyword .CHECK).ite
    ((similar_checkCondition h).bind fun _ _ hCondition => pure ?_) ((eatKeyword .FOREIGN).ite
    ((expectKeyword .KEY).bind fun _ _ _ => columnList.bind fun _ _ hColumns =>
      similar_reference.bind fun _ _ hReference => pure ?_)
    ((fail _).bind fun _ _ _ => pure rfl))))
  · rintro hash _ rfl
    refine columnList.bind fun _ _ hColumns => pure ?_
    simp_all [Like, Erasable.erase, Demand.erase]
  · simp_all [Like, Erasable.erase, Demand.erase]
  · simp_all [Like, Erasable.erase, Demand.erase]
  · simp_all [Like, Erasable.erase, Demand.erase]

theorem similar_tableConstraint (h : rules.Keep S) :
    Similar S (Like e) (tableConstraint rules) (tableConstraint rules) := by
  refine spanned ((after (name .constraint)).bind fun _ _ hName => (similar_demand h).bind
    fun _ _ hDemand => pure fun _ _ hSpan => ?_)
  simp_all [Like, Erasable.erase, Constraint.erase]

/-! ## Statements about tables -/

theorem similar_tableElement (h : rules.Keep S) :
    Similar S (Like e) (tableElement rules) (tableElement rules) := by
  refine seesName.ite ((similar_columnDefinition h).bind fun _ _ hColumn => pure ?_)
    ((similar_tableConstraint h).bind fun _ _ hConstraint => pure ?_)
  · simp_all [Like, Erasable.erase, TableElement.erase]
  · simp_all [Like, Erasable.erase, TableElement.erase]

theorem similar_tableElements (h : rules.Keep S) :
    Similar S (Like e) (tableElements rules) (tableElements rules) :=
  (askKind (TokenKind.isFixed_symbol (by simp))).ite
    ((separated (similar_tableElement h)).bind fun _ _ hElements =>
      (expect (by simp)).bind fun _ _ _ => pure hElements) (pure rfl)

theorem similar_temporary : Similar S Eq temporary temporary :=
  (eatKeyword .TEMP).ite (pure rfl) (eatKeyword .TEMPORARY)

theorem similar_ifNotExists : Similar S Eq ifNotExists ifNotExists :=
  (eatKeyword .IF).ite ((expectKeyword .NOT).bind fun _ _ _ => (expectKeyword .EXISTS).bind
    fun _ _ _ => pure rfl) (pure rfl)

theorem similar_wordPair (first second : Keyword) :
    Similar S Eq (wordPair first second) (wordPair first second) :=
  (eatKeyword first).ite ((expectKeyword second).bind fun _ _ _ => pure rfl) (pure rfl)

theorem similar_createTable (h : rules.Keep S) :
    Similar S (Like e) (createTable rules) (createTable rules) := by
  refine spanned ((expectKeyword .CREATE).bind fun _ _ _ => similar_temporary.bind ?_)
  rintro temporary _ rfl
  refine (expectKeyword .TABLE).bind fun _ _ _ => similar_ifNotExists.bind ?_
  rintro ifNotExists _ rfl
  refine (qualifiedName .table).bind fun _ _ hName => (similar_tableElements h).bind
    fun _ _ hElements => (similar_wordPair .WITHOUT .ROWID).bind ?_
  rintro withoutRowid _ rfl
  refine pure fun _ _ hSpan => ?_
  simp_all [Like, Erasable.erase, CreateTable.erase]

theorem similar_startsConstraint : Similar S Eq startsConstraint startsConstraint :=
  look fun hs => TokenKind.form_elim (S.kind hs) (fun _ _ => rfl) rfl rfl fun _ => rfl

theorem similar_addition (h : rules.Keep S) :
    Similar S (Like e) (addition rules) (addition rules) := by
  refine similar_startsConstraint.ite
    ((similar_tableConstraint h).bind fun _ _ hConstraint => pure ?_)
    ((eatKeyword .COLUMN).bind fun _ _ _ => (similar_columnDefinition h).bind
      fun _ _ hColumn => pure ?_)
  · simp_all [Like, Erasable.erase, AlterAction.erase]
  · simp_all [Like, Erasable.erase, AlterAction.erase]

theorem similar_columnChange (h : rules.Keep S) {m n : String} {first first' : Span}
    (hName : Like e m n)
    (hSpan : Similar S (Like e) (Parse.spanFrom first) (Parse.spanFrom first')) :
    Similar S (Like e) (columnChange rules m first) (columnChange rules n first') := by
  refine (eatKeyword .RENAME).ite ?_ ((eatKeyword .SET).ite ?_ ((eatKeyword .DROP).ite ?_ ?_))
  · refine (expectKeyword .TO).bind fun _ _ _ => (name .column).bind fun _ _ hNew => pure ?_
    simp_all [Like, Erasable.erase, ColumnChange.erase]
  · refine (eatKeyword .DEFAULT).ite ((similar_term h).bind fun _ _ hValue => pure ?_)
      ((eatKeyword .NOT).ite ((expectKeyword .NULL).bind fun _ _ _ => pure rfl)
      ((expectKeyword .NULL).bind fun _ _ _ => pure rfl))
    simp_all [Like, Erasable.erase, ColumnChange.erase]
  · exact (eatKeyword .DEFAULT).ite (pure rfl) ((expectKeyword .NOT).bind fun _ _ _ =>
      (expectKeyword .NULL).bind fun _ _ _ => pure rfl)
  · refine (similar_columnRest h hName hSpan).bind fun _ _ hDefinition => pure ?_
    simp_all [Like, Erasable.erase, ColumnChange.erase]

theorem similar_alterationBehind (h : rules.Keep S) :
    Similar S (Like e) (alterationBehind rules) (alterationBehind rules) := by
  refine current_bind fun hs => (name .column).bind fun _ _ hName =>
    (similar_columnChange h hName (spanFrom hs)).bind fun _ _ hChange => pure ?_
  simp_all [Like, Erasable.erase, AlterAction.erase]

/-- Where the word `COLUMN` is next, the token behind it is looked at on both sides. -/
theorem announces_eq {s t : State} (hs : S.state s t) : s.announces = t.announces := by
  have hWords := (TokenKind.isFixed_keyword .COLUMN).iff (S.kind hs)
  by_cases hColumn : s.current.kind = .keyword .COLUMN
  · have hNext : ¬ s.current.kind.IsEnd := by simp [hColumn, TokenKind.IsEnd]
    rw [State.announces, State.announces, hColumn, hWords.mp hColumn]
    exact congrArg _ (TokenKind.form_congr isName (fun _ _ => rfl) rfl (S.kindAt_one hs hNext))
  · rw [State.announces, State.announces, beq_eq_false_iff_ne.mpr hColumn,
      beq_eq_false_iff_ne.mpr fun h => hColumn (hWords.mpr h), Bool.false_and, Bool.false_and]

theorem similar_alteration (h : rules.Keep S) :
    Similar S (Like e) (alteration rules) (alteration rules) := by
  intro s t hs
  rw [run_alteration, run_alteration, ← announces_eq hs]
  split
  · next hAnnounces =>
    have hColumn : s.current.kind = .keyword .COLUMN :=
      beq_iff_eq.mp (Bool.and_eq_true_iff.mp hAnnounces).1
    exact advance_bind (similar_alterationBehind h) hs (by simp [hColumn, TokenKind.IsEnd])
  · exact similar_alterationBehind h hs

theorem similar_removal : Similar S (Like e) removal removal := by
  refine (eatKeyword .CONSTRAINT).ite ((name .constraint).bind fun _ _ hName => pure ?_)
    ((eatKeyword .PRIMARY).ite ((expectKeyword .KEY).bind fun _ _ _ => pure rfl)
    ((eatKeyword .COLUMN).bind fun _ _ _ => (name .column).bind fun _ _ hName => pure ?_))
  · simp_all [Like, Erasable.erase, AlterAction.erase]
  · simp_all [Like, Erasable.erase, AlterAction.erase]

theorem similar_renameAction : Similar S (Like e) renameAction renameAction := by
  refine (eatKeyword .TO).ite ((name .table).bind fun _ _ hName => pure ?_)
    ((eatKeyword .COLUMN).bind fun _ _ _ => (name .column).bind fun _ _ hColumn =>
      (expectKeyword .TO).bind fun _ _ _ => (name .column).bind fun _ _ hName => pure ?_)
  · simp_all [Like, Erasable.erase, AlterAction.erase]
  · simp_all [Like, Erasable.erase, AlterAction.erase]

theorem similar_alterAction (h : rules.Keep S) :
    Similar S (Like e) (alterAction rules) (alterAction rules) :=
  (eatKeyword .ADD).ite (similar_addition h) ((eatKeyword .ALTER).ite (similar_alteration h)
    ((eatKeyword .DROP).ite similar_removal ((eatKeyword .RENAME).ite similar_renameAction
    ((fail _).bind fun _ _ _ => pure rfl))))

theorem similar_alterTable (h : rules.Keep S) :
    Similar S (Like e) (alterTable rules) (alterTable rules) := by
  refine spanned ((expectKeyword .ALTER).bind fun _ _ _ => (expectKeyword .TABLE).bind fun _ _ _ =>
    (qualifiedName .table).bind fun _ _ hTable => (similar_alterAction h).bind
    fun _ _ hAction => pure fun _ _ hSpan => ?_)
  simp_all [Like, Erasable.erase, AlterTable.erase]

theorem similar_dropBehavior : Similar S Eq dropBehavior dropBehavior :=
  (eatKeyword .CASCADE).ite (pure rfl) ((eatKeyword .RESTRICT).ite (pure rfl) (pure rfl))

theorem similar_dropTable : Similar S (Like e) dropTable dropTable := by
  refine spanned ((expectKeyword .DROP).bind fun _ _ _ => (expectKeyword .TABLE).bind fun _ _ _ =>
    (similar_wordPair .IF .EXISTS).bind ?_)
  rintro ifExists _ rfl
  refine (separated (qualifiedName .table)).bind fun _ _ hNames => similar_dropBehavior.bind ?_
  rintro behavior _ rfl
  refine pure fun _ _ hSpan => ?_
  simp_all [Like, Erasable.erase, DropTable.erase]

end SqlKit.Grammar
