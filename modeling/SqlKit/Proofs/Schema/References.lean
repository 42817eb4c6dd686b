import SqlKit.Batch
import SqlKit.Proofs.Schema.KeyColumns
import SqlKit.Proofs.Schema.TableNames

/-!
# What foreign keys refer to

A foreign key names a table and columns of it, and it stands in the table that refers. A change of a
table touches that table alone: another name for a table or for a column is not written into the
foreign keys that refer to it, not even into those of the table itself.
`Schema.targetsExist_rename_iff` says when such a name leaves no foreign key without its target:
exactly if none refers to what is renamed, or another table or column of the old name stands in.
-/

namespace SqlKit

open Text

/-! ## Targets -/

namespace Schema

variable {s : Schema}

/-- A table of this name is there, and has these columns. -/
def Resolves (s : Schema) (table : String) (columns : List String) : Prop :=
  ∃ t ∈ s.table? table, ∀ n ∈ columns, (t.column? n).isSome

/-- Every foreign key refers to a table that is there, and to columns that this table has. -/
def TargetsExist (s : Schema) : Prop :=
  ∀ t ∈ s.tables, ∀ k ∈ t.foreignKeys, s.Resolves k.table k.referencedColumns

instance (s : Schema) (table : String) (columns : List String) :
    Decidable (s.Resolves table columns) :=
  decidable_of_iff ((s.table? table).any fun t => columns.all fun n => (t.column? n).isSome) (by
    simp only [Resolves, Option.any_eq_true, List.all_eq_true, Option.mem_def])

instance (s : Schema) : Decidable s.TargetsExist :=
  inferInstanceAs (Decidable (∀ t ∈ s.tables, ∀ k ∈ t.foreignKeys,
    s.Resolves k.table k.referencedColumns))

theorem isNamed_congr {name other : String} (h : sameName name other = true) :
    isNamed name = isNamed other := by
  funext t
  rw [isNamed, isNamed, sameName, sameName, sameName_iff.mp h]

/-- Tables are found under every spelling of their names. -/
theorem table?_congr {name other : String} (h : sameName name other = true) :
    s.table? name = s.table? other := by
  rw [table?, table?, isNamed_congr h]

theorem resolves_of_some {table : String} {t : Table} (ht : s.table? table = some t)
    (columns : List String) : s.Resolves table columns ↔ ∀ n ∈ columns, (t.column? n).isSome := by
  simp only [Resolves, ht, Option.mem_some_iff, exists_eq_left']

/-- Only the table that a name stands for counts. -/
theorem resolves_congr {s' : Schema} {table : String} (h : s'.table? table = s.table? table)
    (columns : List String) : s'.Resolves table columns ↔ s.Resolves table columns := by
  rw [Resolves, h, Resolves]

end Schema

/-- What the foreign keys of a table refer to. -/
def Table.targets (t : Table) : List (String × List String) :=
  t.foreignKeys.map fun k => (k.table, k.referencedColumns)

theorem Table.targets_renameColumn (t : Table) (column newName : String) :
    (t.renameColumn column newName).targets = t.targets :=
  List.map_map

namespace Schema

variable {s : Schema}

theorem targetsExist_iff :
    s.TargetsExist ↔ ∀ r ∈ s.tables.flatMap Table.targets, s.Resolves r.1 r.2 := by
  simp only [List.forall_mem_flatMap, Table.targets, List.forall_mem_map]
  rfl

/-- After a change that leaves the foreign keys of a table where they are. -/
theorem targetsExist_updateTable_iff {name : String} {t : Table} (ht : s.table? name = some t)
    {f : Table → Table} (hf : (f t).targets = t.targets) :
    (s.updateTable name f).TargetsExist ↔ ∀ u ∈ s.tables, ∀ k ∈ u.foreignKeys,
      (s.updateTable name f).Resolves k.table k.referencedColumns := by
  obtain ⟨before, behind, hTables, -, hUpdated, -⟩ := exists_split ht
  have hTargets : (s.updateTable name f).tables.flatMap Table.targets =
      s.tables.flatMap Table.targets := by
    rw [hUpdated, hTables, List.flatMap_append, List.flatMap_cons, List.flatMap_append,
      List.flatMap_cons, hf]
  rw [targetsExist_iff, hTargets]
  simp only [List.forall_mem_flatMap, Table.targets, List.forall_mem_map]

theorem find?_append_cons_of_not {α : Type} {p : α → Bool} {a : α} (ha : p a = false)
    (before behind : List α) : (before ++ a :: behind).find? p = (before ++ behind).find? p := by
  rw [List.find?_append, List.find?_append, List.find?_cons, ha]

/-! ## Another name for a table -/

/-- Under a name that is not the new one, a table is looked up as if the renamed one were gone. -/
theorem table?_renamed {name newName other : String} {t : Table} (ht : s.table? name = some t)
    (hOther : sameName newName other = false) :
    (s.updateTable name fun t => { t with name := newName }).table? other =
      (s.dropTable name).table? other := by
  obtain ⟨before, behind, -, -, hUpdated, hDropped⟩ := exists_split ht
  have hNot : isNamed other { t with name := newName } = false := hOther
  rw [table?, table?, hUpdated, hDropped, find?_append_cons_of_not hNot]

theorem table?_dropTable {name other : String} {t : Table} (ht : s.table? name = some t)
    (hOther : sameName t.name other = false) :
    (s.dropTable name).table? other = s.table? other := by
  obtain ⟨before, behind, hTables, -, -, hDropped⟩ := exists_split ht
  have hNot : isNamed other t = false := hOther
  rw [table?, table?, hTables, hDropped, find?_append_cons_of_not hNot]

/-- A foreign key with a target keeps it under a free name for a table, unless it refers to that
table and no other one of the old name stands in. -/
theorem Resolves.renamed_iff {name newName table : String} {columns : List String} {t : Table}
    (h : s.Resolves table columns) (ht : s.table? name = some t) (hFree : s.table? newName = none) :
    (s.updateTable name fun t => { t with name := newName }).Resolves table columns ↔
      (sameName t.name table = true → (s.dropTable name).Resolves table columns) := by
  obtain ⟨u, hu, -⟩ := id h
  have hOther : sameName newName table = false := by
    rw [Bool.eq_false_iff]
    intro hNew
    have hNamed : sameName u.name newName = true :=
      sameName_trans (sameName_of_table? hu) ((sameName_comm _ _).trans hNew)
    exact List.find?_eq_none.mp hFree u (List.mem_of_find?_eq_some hu) hNamed
  rw [resolves_congr (table?_renamed ht hOther)]
  cases hSame : sameName t.name table with
  | true => exact ⟨fun hResolves _ => hResolves, fun hResolves => hResolves rfl⟩
  | false =>
    refine iff_of_true ?_ nofun
    exact (resolves_congr (table?_dropTable ht hSame) columns).mpr h

end Schema

/-! ## Another name for a column -/

theorem exists_mem_updateFirst_iff {α : Type} {P : α → Prop} {p : α → Bool} {f : α → α}
    {as : List α} : (∃ a ∈ updateFirst p f as, P a) ↔
      (∃ a ∈ as.find? p, P (f a)) ∨ ∃ a ∈ as.eraseP p, P a := by
  have hNot : ¬ (∀ a ∈ updateFirst p f as, ¬ P a) ↔
      ¬ ((∀ a ∈ as.find? p, ¬ P (f a)) ∧ ∀ a ∈ as.eraseP p, ¬ P a) :=
    not_congr forall_mem_updateFirst_iff
  simpa only [not_forall, not_not, not_and_or, exists_prop] using hNot

/-- Under a free name for the first column of a name, the other columns are found as before, and a
column of the old name is found if there is another one. -/
theorem Table.isSome_column?_renameColumn {t : Table} {column newName n : String}
    (hFree : t.column? newName = none) (hThere : (t.column? n).isSome) :
    ((t.renameColumn column newName).column? n).isSome ↔
      (sameName n column = true →
        ∃ c ∈ t.columns.eraseP (Column.isNamed column), c.isNamed column = true) := by
  obtain ⟨c, hc, hNamed⟩ := List.find?_isSome.mp hThere
  cases hOld : sameName n column with
  | false =>
    have hNot : c.isNamed column = false := by
      rw [Column.isNamed, sameName, sameName_iff.mp hNamed]
      exact hOld
    exact iff_of_true (List.find?_isSome.mpr ⟨c, mem_updateFirst_of_not hc hNot _, hNamed⟩)
      (by simp)
  | true =>
    have hSame : ∀ d : Column, d.isNamed n = d.isNamed column := fun d => by
      rw [Column.isNamed, sameName, sameName_iff.mp hOld]
      rfl
    have hNew : sameName newName n = false := by
      rw [Bool.eq_false_iff]
      intro hNew
      refine List.find?_eq_none.mp hFree c hc ?_
      exact sameName_trans hNamed ((sameName_comm _ _).trans hNew)
    have hFirst : ¬ ∃ d ∈ t.columns.find? (Column.isNamed column),
        (d.renamed newName).isNamed n = true := by
      rintro ⟨d, -, hRenamed⟩
      rw [Column.isNamed, Column.renamed, hNew] at hRenamed
      cases hRenamed
    have hFound : (∃ d ∈ (t.renameColumn column newName).columns, d.isNamed n = true) ↔ _ :=
      exists_mem_updateFirst_iff
    rw [or_iff_right hFirst] at hFound
    rw [column?, List.find?_isSome]
    refine hFound.trans ?_
    simp only [hSame, true_imp_iff]

namespace Schema

variable {s : Schema}

/-- A table that keeps its name is found under it as it was changed, and the others as they were. -/
theorem table?_updateTable {name other : String} {t : Table} (ht : s.table? name = some t)
    {f : Table → Table} (hf : (f t).name = t.name) :
    (s.updateTable name f).table? other =
      if sameName t.name other then some (f t) else s.table? other := by
  obtain ⟨before, behind, hTables, hBefore, hUpdated, -⟩ := exists_split ht
  rw [table?, table?, hTables, hUpdated]
  split
  · next hSame =>
    refine List.find?_eq_some_iff_append.mpr ⟨?_, before, behind, rfl, fun u hu => ?_⟩
    · rw [isNamed, hf]
      exact hSame
    · rw [isNamed, sameName, ← sameName_iff.mp hSame, ← sameName, hBefore u hu, Bool.not_false]
  · next hOther =>
    have hNot : isNamed other t = false := Bool.eq_false_iff.mpr hOther
    have hNotChanged : isNamed other (f t) = false := by rwa [isNamed, hf]
    rw [find?_append_cons_of_not hNot, find?_append_cons_of_not hNotChanged]

/-- A foreign key with a target keeps it under a free name for a column, unless it refers to that
column and no other one of the old name stands in. -/
theorem Resolves.renamedColumn_iff {name column newName table : String} {columns : List String}
    {t : Table} (h : s.Resolves table columns) (ht : s.table? name = some t)
    (hFree : t.column? newName = none) :
    (s.updateTable name (·.renameColumn column newName)).Resolves table columns ↔
      (sameName t.name table = true → hasName columns column = true →
        ∃ c ∈ t.columns.eraseP (Column.isNamed column), c.isNamed column = true) := by
  have hLookup : (s.updateTable name (·.renameColumn column newName)).table? table = _ :=
    table?_updateTable ht rfl
  cases hSame : sameName t.name table with
  | false =>
    rw [hSame, if_neg Bool.false_ne_true] at hLookup
    exact iff_of_true ((resolves_congr hLookup columns).mpr h) nofun
  | true =>
    have hFirst : s.table? table = some t := by
      rw [← table?_congr (sameName_trans ((sameName_comm _ _).trans (sameName_of_table? ht)) hSame),
        ht]
    rw [hSame, if_pos rfl] at hLookup
    have hColumns := (resolves_of_some hFirst columns).mp h
    rw [resolves_of_some hLookup, hasName, List.any_eq_true]
    constructor
    · rintro hAll - ⟨n, hn, hOld⟩
      exact (Table.isSome_column?_renameColumn hFree (hColumns n hn)).mp (hAll n hn) hOld
    · intro hOther n hn
      refine (Table.isSome_column?_renameColumn hFree (hColumns n hn)).mpr fun hOld => ?_
      exact hOther rfl ⟨n, hn, hOld⟩

end Schema

/-! ## Renaming -/

/-- A change that gives a table, or a column of the table of this name, a name that is not in
use. -/
def AlterAction.TakesFreeName (s : Schema) (table : String) : AlterAction → Prop
  | .renameTable newName => s.table? newName = none
  | .renameColumn _ newName | .alterColumn _ (.rename newName) =>
    ∀ t ∈ s.table? table, t.column? newName = none
  | _ => False

/-- When another name leaves no foreign key without its target: none refers to the table, or what it
refers to is there without the table; none refers to the column, or there is another column of its
name. -/
def AlterAction.LeavesTargets (s : Schema) (t : Table) : AlterAction → Prop
  | .renameTable _ => ∀ u ∈ s.tables, ∀ k ∈ u.foreignKeys, sameName t.name k.table = true →
    (s.dropTable t.name).Resolves k.table k.referencedColumns
  | .renameColumn column _ | .alterColumn column (.rename _) =>
    ∀ u ∈ s.tables, ∀ k ∈ u.foreignKeys, sameName t.name k.table = true →
      hasName k.referencedColumns column = true →
        ∃ c ∈ t.columns.eraseP (Column.isNamed column), c.isNamed column = true
  | _ => True

/-- **Other names and foreign keys.** Where every foreign key refers to a table that is there and to
columns of it, another name for a table or for a column that is not in use leaves it so if and only
if no foreign key refers to what is renamed, or another table or column of the old name stands
in. -/
theorem Schema.targetsExist_rename_iff {s : Schema} (h : s.TargetsExist) (a : AlterTable)
    (hFree : a.action.TakesFreeName s a.table.name) :
    (s.apply (.alterTable a)).TargetsExist ↔
      ∀ t ∈ s.table? a.table.name, a.action.LeavesTargets s t := by
  obtain ⟨⟨schema, name⟩, action, span⟩ := a
  change (s.updateTable name (·.alter action)).TargetsExist ↔ ∀ t ∈ s.table? name, _
  cases hFind : s.table? name with
  | none => exact iff_of_true (by rwa [updateTable_of_none hFind]) nofun
  | some t =>
    have hColumn : ∀ column newName, t.column? newName = none →
        ((s.updateTable name (·.renameColumn column newName)).TargetsExist ↔
          (AlterAction.renameColumn column newName).LeavesTargets s t) := by
      intro column newName hNew
      rw [targetsExist_updateTable_iff hFind (t.targets_renameColumn column newName)]
      exact forall₄_congr fun u hu k hk => (h u hu k hk).renamedColumn_iff hFind hNew
    simp only [Option.mem_some_iff, forall_eq']
    cases action with
    | renameTable newName =>
      have hTable : s.dropTable t.name = s.dropTable name := by
        rw [dropTable, dropTable, isNamed_congr (sameName_of_table? hFind)]
      refine (targetsExist_updateTable_iff hFind rfl).trans ?_
      rw [AlterAction.LeavesTargets, hTable]
      exact forall₄_congr fun u hu k hk => (h u hu k hk).renamed_iff hFind hFree
    | renameColumn column newName => exact hColumn column newName (hFree t hFind)
    | alterColumn column change =>
      cases change with
      | rename newName => exact hColumn column newName (hFree t hFind)
      | setDefault | dropDefault | setNotNull | dropNotNull | setNull | redefine => cases hFree
    | addColumn | addConstraint | dropColumn | dropConstraint | dropPrimaryKey => cases hFree

/-! ### A reference between two tables -/

/-- A table, and one that refers to it. -/
def sampleSchema : Schema where
  tables := [⟨"t", none, [.ofDefinition (sampleColumn "a")], [], [], []⟩,
    ⟨"u", none, [.ofDefinition (sampleColumn "b")], [], [],
      [⟨none, ["b"], "t", ["a"], .restrict, .restrict⟩]⟩]

theorem sampleSchema_reached :
    (parse .standard
      "CREATE TABLE t (a INT); CREATE TABLE u (b INT, FOREIGN KEY (b) REFERENCES t (a))"
      ).errors = [] ∧
    Schema.ofStatements (parse .standard
      "CREATE TABLE t (a INT); CREATE TABLE u (b INT, FOREIGN KEY (b) REFERENCES t (a))"
      ).statements = sampleSchema := by
  decide +kernel

/-- Another name for the table that refers. -/
theorem Schema.targetsExist_rename_sampleSchema :
    sampleSchema.TargetsExist ∧
      (AlterAction.renameTable "v").TakesFreeName sampleSchema "u" ∧
      (sampleSchema.apply
        (.alterTable ⟨⟨none, "u"⟩, .renameTable "v", .atStart⟩)).TargetsExist := by
  have hTargets : sampleSchema.TargetsExist := by decide +kernel
  have hFree : sampleSchema.table? "v" = none := by decide +kernel
  have hNone : ∀ t ∈ sampleSchema.table? "u", ∀ u ∈ sampleSchema.tables, ∀ k ∈ u.foreignKeys,
      sameName t.name k.table = false := by
    decide +kernel
  refine ⟨hTargets, hFree, (targetsExist_rename_iff hTargets
    ⟨⟨none, "u"⟩, .renameTable "v", .atStart⟩ hFree).mpr fun t ht u hu k hk hSame => ?_⟩
  rw [hNone t ht u hu k hk] at hSame
  cases hSame

/-- Another name for the table that is referred to. -/
theorem Schema.not_targetsExist_renamed :
    (parse .standard
      "CREATE TABLE t (a INT); CREATE TABLE u (b INT, FOREIGN KEY (b) REFERENCES t (a))"
      ).errors = [] ∧
    (parse .standard "ALTER TABLE t RENAME TO v").errors = [] ∧
    (ofStatements (parse .standard
      "CREATE TABLE t (a INT); CREATE TABLE u (b INT, FOREIGN KEY (b) REFERENCES t (a))"
      ).statements).TargetsExist ∧
    (ofStatements (parse .standard
      "CREATE TABLE t (a INT); CREATE TABLE u (b INT, FOREIGN KEY (b) REFERENCES t (a))"
      ).statements).table? "v" = none ∧
    ¬ ((ofStatements (parse .standard
      "CREATE TABLE t (a INT); CREATE TABLE u (b INT, FOREIGN KEY (b) REFERENCES t (a))"
      ).statements).applyAll
        (parse .standard "ALTER TABLE t RENAME TO v").statements).TargetsExist := by
  obtain ⟨hErrors, hSchema⟩ := sampleSchema_reached
  rw [hSchema]
  exact ⟨hErrors, by decide +kernel⟩

end SqlKit
