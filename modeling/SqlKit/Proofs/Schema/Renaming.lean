import SqlKit.Proofs.Schema.DistinctKeys
import Mathlib.Data.List.Forall2

/-!
# Renaming a column and back

Another name is given to the first column of the old name, and it is written into the keys wherever
the old name stands. Nothing else of the table changes (`Table.equalBut_renameColumn`). Under a name
that is not in use the change can be taken back: the way there and back is the same as giving the
column the old name at once (`Table.renameColumn_back`), which changes at most its letters.

The columns that a foreign key refers to are those of another table, and they keep their names.
-/

namespace SqlKit

open Text

/-! ## Tables that differ in a name -/

/-- The name, or in place of the old name, in whatever letters, the new one. -/
def Replaces (column newName a b : String) : Prop := b = a ∨ sameName a column = true ∧ b = newName

section EqualBut

variable (R : String → String → Prop)

/-- Two columns that are equal but for their names. -/
structure Column.EqualBut (c d : Column) : Prop where
  property : R c.property d.property
  name : R c.name d.name
  others : d = { c with property := d.property, name := d.name }

/-- Two unique keys that are equal but for the names of their columns. -/
structure UniqueKey.EqualBut (k l : UniqueKey) : Prop where
  columns : List.Forall₂ R k.columns l.columns
  others : l = { k with columns := l.columns }

/-- Two foreign keys that are equal but for the names of their columns. -/
structure ForeignKey.EqualBut (k l : ForeignKey) : Prop where
  columns : List.Forall₂ R k.columns l.columns
  others : l = { k with columns := l.columns }

/-- Two tables that are equal but for the names of columns. -/
structure Table.EqualBut (t u : Table) : Prop where
  name : u.name = t.name
  schema : u.schema = t.schema
  columns : List.Forall₂ (Column.EqualBut R) t.columns u.columns
  primaryKey : List.Forall₂ R t.primaryKey u.primaryKey
  uniqueKeys : List.Forall₂ (UniqueKey.EqualBut R) t.uniqueKeys u.uniqueKeys
  foreignKeys : List.Forall₂ (ForeignKey.EqualBut R) t.foreignKeys u.foreignKeys

end EqualBut

/-- A name that no column of a table has, neither as its name nor as its property, and that no key
lists. -/
structure Table.Unused (t : Table) (name : String) : Prop where
  columns : ∀ c ∈ t.columns, sameName c.name name = false ∧ sameName c.property name = false
  keys : hasName t.listedNames name = false

/-- The two changes that give a column another name. -/
def AlterAction.Renames (a : AlterAction) (column newName : String) : Prop :=
  a = .renameColumn column newName ∨ a = .alterColumn column (.rename newName)

theorem AlterAction.Renames.alter_eq {a : AlterAction} {column newName : String}
    (h : a.Renames column newName) (t : Table) : t.alter a = t.renameColumn column newName := by
  obtain rfl | rfl := h <;> rfl

variable {column newName : String}

/-! ## Names -/

theorem forall₂_replaceName (names : List String) :
    List.Forall₂ (Replaces column newName) names (replaceName column newName names) := by
  refine List.forall₂_map_right_iff.mpr (List.forall₂_same.mpr fun n _ => ?_)
  unfold Replaces
  split
  · next hOld => exact Or.inr ⟨hOld, rfl⟩
  · exact Or.inl rfl

/-- A name that was not in use is replaced where it was put. -/
theorem replaceName_back {names : List String} (hUnused : hasName names newName = false) :
    replaceName newName column (replaceName column newName names) =
      replaceName column column names := by
  rw [replaceName, replaceName, List.map_map, replaceName]
  refine List.map_congr_left fun n hn => ?_
  have hOther := hasName_eq_false_iff.mp hUnused n hn
  rw [Function.comp_apply]
  split
  · rw [if_pos (sameName_refl newName)]
  · rw [hOther, if_neg Bool.false_ne_true]

/-! ## Columns -/

namespace Column

variable {c : Column}

theorem equalBut_refl {R : String → String → Prop} (hR : ∀ a, R a a) (c : Column) :
    c.EqualBut R c := ⟨hR _, hR _, rfl⟩

theorem equalBut_renamed (h : c.isNamed column = true) :
    c.EqualBut (Replaces column newName) (c.renamed newName) := by
  refine ⟨?_, Or.inr ⟨h, rfl⟩, rfl⟩
  rw [renamed]
  dsimp only
  split
  · next hSame => exact Or.inr ⟨by rw [hSame]; exact h, rfl⟩
  · exact Or.inl rfl

/-- The property follows the name back, since it was not the new name before. -/
theorem renamed_back (h : c.property ≠ newName) :
    (c.renamed newName).renamed column = c.renamed column := by
  by_cases hSame : c.property = c.name <;> simp [renamed, hSame, h]

end Column

/-! ## Tables -/

namespace Table

variable {t : Table} {c : Column}

theorem listedNames_renameColumn : (t.renameColumn column newName).listedNames =
    replaceName column newName t.listedNames := by
  simp only [listedNames, renameColumn, replaceName, List.map_append, List.map_flatten,
    List.map_map, Function.comp_def]

/-- The first column of the old name takes the new one. -/
theorem columns_renameColumn (hColumn : t.column? column = some c) :
    ∃ before behind, t.columns = before ++ c :: behind ∧
      (∀ d ∈ before, d.isNamed column = false) ∧
      ∀ name, (t.renameColumn column name).columns = before ++ c.renamed name :: behind := by
  obtain ⟨hNamed, before, behind, hColumns, hOthers⟩ := List.find?_eq_some_iff_append.mp hColumn
  have hBefore : ∀ d ∈ before, d.isNamed column = false := fun d hd => by simpa using hOthers d hd
  refine ⟨before, behind, hColumns, hBefore, fun name => ?_⟩
  rw [renameColumn, updateColumn]
  dsimp only
  rw [hColumns]
  exact updateFirst_append_cons hBefore hNamed (Column.renamed name) behind

theorem equalBut_renameColumn (hColumn : t.column? column = some c) (newName : String) :
    t.EqualBut (Replaces column newName) (t.renameColumn column newName) where
  name := rfl
  schema := rfl
  columns := by
    obtain ⟨before, behind, hColumns, -, hRenamed⟩ := columns_renameColumn hColumn
    rw [hRenamed, hColumns]
    have hSelf (cs : List Column) :
      List.Forall₂ (Column.EqualBut (Replaces column newName)) cs cs :=
      List.forall₂_same.mpr fun d _ => d.equalBut_refl fun _ => Or.inl rfl
    exact List.rel_append (hSelf before)
      (.cons (Column.equalBut_renamed (List.find?_some hColumn)) (hSelf behind))
  primaryKey := forall₂_replaceName _
  uniqueKeys := List.forall₂_map_right_iff.mpr
    (List.forall₂_same.mpr fun _ _ => ⟨forall₂_replaceName _, rfl⟩)
  foreignKeys := List.forall₂_map_right_iff.mpr
    (List.forall₂_same.mpr fun _ _ => ⟨forall₂_replaceName _, rfl⟩)

/-- No key of its own lists a name that is not in use. -/
theorem Unused.keyLists {name : String} (h : t.Unused name) : hasName t.primaryKey name = false ∧
    (∀ k ∈ t.uniqueKeys, hasName k.columns name = false) ∧
    ∀ k ∈ t.foreignKeys, hasName k.columns name = false := by
  have hKeys := hasName_eq_false_iff.mp h.keys
  simp only [listedNames, List.forall_mem_append, List.forall_mem_flatten,
    List.forall_mem_map] at hKeys
  simp only [hasName_eq_false_iff]
  exact hKeys

/-- A name that is not in use is no other spelling of a name that is. -/
theorem Unused.apart (hUnused : t.Unused newName) (hColumn : t.column? column = some c) :
    sameName newName column = false := by
  have hNamed : sameName c.name column = true :=
    List.find?_some (p := Column.isNamed column) hColumn
  rw [← sameName_congr_right hNamed, sameName_comm]
  exact (hUnused.columns c (List.mem_of_find?_eq_some hColumn)).1

/-- Another name that was not in use, and the old one again, is the old one at once. -/
theorem renameColumn_back (hColumn : t.column? column = some c) (hUnused : t.Unused newName) :
    (t.renameColumn column newName).renameColumn newName column = t.renameColumn column column := by
  obtain ⟨before, behind, hColumns, -, hRenamed⟩ := columns_renameColumn hColumn
  obtain ⟨hPrimary, hUnique, hForeign⟩ := hUnused.keyLists
  have hBefore : ∀ d ∈ before, d.isNamed newName = false := fun d hd =>
    (hUnused.columns d (by rw [hColumns]; exact List.mem_append_left _ hd)).1
  have hNew : (c.renamed newName).isNamed newName = true := sameName_refl newName
  have hProperty : c.property ≠ newName := by
    rintro rfl
    have hApart := (hUnused.columns c (List.mem_of_find?_eq_some hColumn)).2
    rw [sameName_refl] at hApart
    cases hApart
  have hBack : ((t.renameColumn column newName).renameColumn newName column).columns =
      (t.renameColumn column column).columns := by
    rw [hRenamed, renameColumn, updateColumn]
    dsimp only
    rw [hRenamed, updateFirst_append_cons hBefore hNew, Column.renamed_back hProperty]
  simp only [renameColumn, updateColumn, Table.mk.injEq, true_and, List.map_map] at hBack ⊢
  refine ⟨hBack, replaceName_back hPrimary, ?_, ?_⟩
  · refine List.map_congr_left fun k hk => ?_
    rw [Function.comp_apply, replaceName_back (hUnique k hk)]
  · refine List.map_congr_left fun k hk => ?_
    rw [Function.comp_apply, replaceName_back (hForeign k hk)]

/-- The columns of the old name are one fewer. -/
theorem countP_renameColumn (hColumn : t.column? column = some c) (hUnused : t.Unused newName) :
    (t.renameColumn column newName).columns.countP (Column.isNamed column) + 1 =
      t.columns.countP (Column.isNamed column) := by
  obtain ⟨before, behind, hColumns, -, hRenamed⟩ := columns_renameColumn hColumn
  have hNew : ¬ (c.renamed newName).isNamed column = true :=
    Bool.eq_false_iff.mp (hUnused.apart hColumn)
  rw [hRenamed, hColumns, List.countP_append, List.countP_append, List.countP_cons_of_neg hNew,
    List.countP_cons_of_pos (List.find?_some hColumn), Nat.add_assoc]

/-- No key lists the old name. -/
theorem hasName_renameColumn (hColumn : t.column? column = some c) (hUnused : t.Unused newName) :
    hasName (t.renameColumn column newName).listedNames column = false := by
  rw [listedNames_renameColumn, hasName_replaceName, renamedHolds, sameName_refl,
    hUnused.apart hColumn, Bool.and_false, Bool.not_true, Bool.and_false, Bool.or_false]

/-- The column is found under its new name. -/
theorem column?_renameColumn (hColumn : t.column? column = some c) (hUnused : t.Unused newName) :
    (t.renameColumn column newName).column? newName = some (c.renamed newName) := by
  obtain ⟨before, behind, hColumns, -, hRenamed⟩ := columns_renameColumn hColumn
  rw [column?, hRenamed]
  refine List.find?_eq_some_iff_append.mpr
    ⟨sameName_refl newName, before, behind, rfl, fun d hd => ?_⟩
  rw [Column.isNamed, (hUnused.columns d (by rw [hColumns]; exact List.mem_append_left _ hd)).1,
    Bool.not_false]

/-- **A column can be renamed and renamed back.** Let `c` be the first column of a name, and the new
name one that is not in use. Then `c` is found under the new name; the columns of the old name are
one fewer, and no key lists it; the other columns are as they were, and so is everything else but
the replaced names. Renaming back leads to the table that there was, up to the spelling of the old
name. -/
theorem alter_rename_back (hColumn : t.column? column = some c) (hUnused : t.Unused newName)
    {there back : AlterAction} (hThere : there.Renames column newName)
    (hBack : back.Renames newName column) :
    (t.alter there).column? newName = some (c.renamed newName) ∧
    (t.alter there).columns.countP (Column.isNamed column) + 1 =
      t.columns.countP (Column.isNamed column) ∧
    hasName (t.alter there).listedNames column = false ∧
    (∃ before behind, t.columns = before ++ c :: behind ∧
      (t.alter there).columns = before ++ c.renamed newName :: behind) ∧
    t.EqualBut (Replaces column newName) (t.alter there) ∧
    t.EqualBut (Replaces column column) ((t.alter there).alter back) := by
  rw [hBack.alter_eq, hThere.alter_eq, renameColumn_back hColumn hUnused]
  obtain ⟨before, behind, hColumns, -, hRenamed⟩ := columns_renameColumn hColumn
  exact ⟨column?_renameColumn hColumn hUnused, countP_renameColumn hColumn hUnused,
    hasName_renameColumn hColumn hUnused, ⟨before, behind, hColumns, hRenamed newName⟩,
    equalBut_renameColumn hColumn newName, equalBut_renameColumn hColumn column⟩

/-- A column that the keys list in other letters, and that another table has too. -/
def sampleSpelled : Table where
  name := "t"
  schema := none
  columns := [⟨"Id", "Id", "INT", false, true, false, true⟩,
    ⟨"x", "owner", "INT", true, false, false, false⟩]
  primaryKey := ["ID"]
  uniqueKeys := [⟨some "both", ["owner", "id"]⟩]
  foreignKeys := [⟨none, ["iD"], "u", ["id"], .restrict, .restrict⟩]

theorem alter_rename_back_sampleSpelled :
    (sampleSpelled.alter (.renameColumn "id" "key")).column? "key" =
      some ⟨"key", "key", "INT", false, true, false, true⟩ ∧
    sampleSpelled.EqualBut (Replaces "id" "id")
      ((sampleSpelled.alter (.renameColumn "id" "key")).alter
        (.alterColumn "key" (.rename "id"))) := by
  have hSpelled : sameName "Id" "id" = true := by
    rw [sameName_iff, ← String.toList_inj]
    unfold String.toLower
    rw [String.toList_map, String.toList_map]
    decide
  have hColumn : sampleSpelled.column? "id" = some ⟨"Id", "Id", "INT", false, true, false, true⟩ :=
    List.find?_cons_of_pos hSpelled
  have hUnused : sampleSpelled.Unused "key" := ⟨by decide +kernel, by decide +kernel⟩
  have hThere : (AlterAction.renameColumn "id" "key").Renames "id" "key" := Or.inl rfl
  have hBack : (AlterAction.alterColumn "key" (.rename "id")).Renames "key" "id" := Or.inr rfl
  have hAll := alter_rename_back hColumn hUnused hThere hBack
  exact ⟨hAll.1, hAll.2.2.2.2.2⟩

/-- A property that is the new name is taken for the column's own name on the way back. -/
example : ((Table.mk "t" none [⟨"b", "a", "INT", true, false, false, false⟩] [] [] []).renameColumn
    "a" "b").renameColumn "b" "a" =
      ⟨"t", none, [⟨"a", "a", "INT", true, false, false, false⟩], [], [], []⟩ := by
  decide +kernel

end Table

end SqlKit
