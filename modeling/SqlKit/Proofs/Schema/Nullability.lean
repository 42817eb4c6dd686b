import SqlKit.Proofs.Schema.KeyColumns

/-!
# Columns of the primary key hold no missing values

Whether a column may hold missing values and whether it is a part of the primary key are kept in two
marks of the column, and each of them is set by itself: by a definition, by a constraint, by a
change of the column, and when the primary key is dropped. `Column.KeyFilled` is what all of them
keep to, and so every schema that can be reached does (`Schema.Reachable.keyFilled`).

A change that allows missing values looks at the other mark first. A new definition sets both anew,
and its own two agree already; for a column that was in the key they are set once more.
-/

namespace SqlKit

namespace Column

/-- A column that is a part of the primary key holds no missing values. -/
def KeyFilled (c : Column) : Prop := c.primaryKey = true → c.nullable = false

theorem keyFilled_ofDefinition (d : ColumnDefinition) : (ofDefinition d).KeyFilled := by
  intro hKey
  have hMarked : d.isPrimaryKey = true := hKey
  change d.isNullable = false
  rw [ColumnDefinition.isNullable, hMarked, Bool.not_true, Bool.and_false]

theorem keyFilled_asPrimaryKey (c : Column) : c.asPrimaryKey.KeyFilled := fun _ => rfl

/-- What the column was before does not matter. -/
theorem keyFilled_redefined (d : ColumnDefinition) (c : Column) : (c.redefined d).KeyFilled := by
  unfold redefined
  dsimp only
  split
  · exact keyFilled_asPrimaryKey _
  · exact keyFilled_ofDefinition d

end Column

/-- The columns of the primary key of a table hold no missing values. -/
def Table.KeyFilled (t : Table) : Prop := ∀ c ∈ t.columns, c.KeyFilled

namespace Table.KeyFilled

variable {t : Table}

theorem updateColumn (h : t.KeyFilled) (name : String) {f : Column → Column}
    (hf : ∀ c, c.KeyFilled → (f c).KeyFilled) : (t.updateColumn name f).KeyFilled :=
  forall_mem_updateFirst h hf

theorem addUniqueKey (h : t.KeyFilled) (name : Option String) (columns : List String) :
    (t.addUniqueKey name columns).KeyFilled := by
  rwa [KeyFilled, addUniqueKey_columns]

theorem addColumn (h : t.KeyFilled) (d : ColumnDefinition) : (t.addColumn d).KeyFilled := by
  rw [KeyFilled, addColumn_columns]
  exact List.forall_mem_append.mpr ⟨h, by simpa using Column.keyFilled_ofDefinition d⟩

theorem setPrimaryKey (h : t.KeyFilled) (columns : List String) :
    (t.setPrimaryKey columns).KeyFilled := by
  refine List.forall_mem_map.mpr fun c hc => ?_
  split
  · exact c.keyFilled_asPrimaryKey
  · exact h c hc

theorem addUnique (h : t.KeyFilled) (name : Option String) (columns : List String) :
    (t.addUnique name columns).KeyFilled := by
  unfold Table.addUnique
  split
  · next single =>
    have hMarked : (t.updateColumn single ({ · with unique := true })).KeyFilled :=
      h.updateColumn single fun _ hc => hc
    exact hMarked.addUniqueKey name [single]
  · exact h.addUniqueKey name columns

theorem addConstraint (h : t.KeyFilled) (c : Constraint) : (t.addConstraint c).KeyFilled := by
  unfold Table.addConstraint
  split
  · exact h.setPrimaryKey _
  · exact h.addUnique _ _
  · exact h
  · exact h

theorem dropPrimaryKey (t : Table) : t.dropPrimaryKey.KeyFilled := by
  refine List.forall_mem_map.mpr fun c _ hKey => ?_
  cases hKey

theorem redefineColumn (h : t.KeyFilled) (column : String) (d : ColumnDefinition) :
    (t.redefineColumn column d).KeyFilled := by
  rw [KeyFilled, redefineColumn_columns]
  exact forall_mem_updateFirst h fun c _ => c.keyFilled_redefined d

theorem alterColumn (h : t.KeyFilled) (column : String) (change : ColumnChange) :
    (t.alterColumn column change).KeyFilled := by
  cases change with
  | rename newName => exact h.updateColumn column fun _ hc => hc
  | setNotNull => exact h.updateColumn column fun _ _ _ => rfl
  | dropNotNull | setNull =>
    refine h.updateColumn column fun c _ hKey => ?_
    have hMarked : c.primaryKey = true := hKey
    dsimp only
    rw [hMarked, Bool.not_true]
  | redefine d => exact h.redefineColumn column d
  | setDefault | dropDefault => exact h

theorem alter (h : t.KeyFilled) (action : AlterAction) : (t.alter action).KeyFilled := by
  cases action with
  | addColumn d => exact h.addColumn d
  | addConstraint c => exact h.addConstraint c
  | alterColumn column change => exact h.alterColumn column change
  | dropColumn column => exact fun c hc => h c (List.mem_filter.mp hc).1
  | dropPrimaryKey => exact dropPrimaryKey t
  | renameColumn column newName => exact h.updateColumn column fun _ hc => hc
  | dropConstraint | renameTable => exact h

end Table.KeyFilled

theorem Table.keyFilled_ofCreateTable (c : CreateTable) : (ofCreateTable c).KeyFilled := by
  refine List.foldlRecOn c.elements addElement (by simp [KeyFilled]) fun t ht e _ => ?_
  cases e with
  | column d => exact ht.addColumn d
  | constraint constraint => exact ht.addConstraint constraint

/-- **Columns of the primary key hold no missing values**, whatever statements were applied to the
schema and whatever properties were given to its columns. -/
theorem Schema.Reachable.keyFilled {s : Schema} (h : s.Reachable) :
    ∀ t ∈ s.tables, ∀ c ∈ t.columns, c.primaryKey = true → c.nullable = false :=
  h.forall_tables (Q := Table.KeyFilled) Table.keyFilled_ofCreateTable
    (fun _ action ht => ht.alter action) fun _ column _ ht => ht.updateColumn column fun _ hc => hc

/-- A table with a primary key whose column is to hold missing values, before and after it takes
another name. -/
def sampleAllowed : List Statement :=
  let change (action : AlterAction) : Statement := .alterTable ⟨⟨none, "t"⟩, action, .atStart⟩
  [.createTable ⟨false, false, ⟨none, "t"⟩,
      [.column { sampleColumn "a" with primaryKey := .plain }], false, .atStart⟩,
    change (.alterColumn "a" .dropNotNull), change (.renameColumn "a" "c"),
    change (.alterColumn "c" .setNull), change (.alterColumn "c" (.redefine (sampleColumn "c")))]

/-- Its column is still in the key then. -/
theorem Schema.Reachable.keyFilled_sampleAllowed :
    let s := (ofStatements sampleAllowed).updateTable "t" (·.mapProperty "c" "p")
    s.Reachable ∧ s.tables.flatMap (·.columns) = [⟨"p", "c", "INT", false, true, false, false⟩] ∧
      ∀ t ∈ s.tables, ∀ c ∈ t.columns, c.primaryKey = true → c.nullable = false := by
  intro s
  have hReachable : s.Reachable := (Reachable.empty.applyAll sampleAllowed).mapProperty "t" "c" "p"
  refine ⟨hReachable, ?_, hReachable.keyFilled⟩
  simp [s, ofStatements, sampleAllowed, Schema.applyAll, Schema.apply, define, Schema.empty, table?,
    updateTable, updateFirst, Schema.isNamed, Table.ofCreateTable, Table.addElement,
    Table.addColumn,
    Table.alter, Table.alterColumn, Table.renameColumn, Table.redefineColumn, Table.updateColumn,
    Table.mapProperty, sampleColumn, Column.ofDefinition, Column.isNamed, Column.renamed,
    Column.redefined, Column.asPrimaryKey, ColumnDefinition.isPrimaryKey,
    ColumnDefinition.isNumbered]

end SqlKit
