import SqlKit.Batch
import SqlKit.Proofs.Schema.Runs
import Mathlib.Data.List.Basic

/-!
# Tables under one name

Tables are looked up by name, and of several tables of one name the first is meant, so that the
others are out of reach: no query finds them, and no statement changes or drops them. As long as the
names are distinct, each table is the one that its name stands for
(`Schema.DistinctTables.reached`).

A definition takes the place of an earlier one of its name, and so adds no second table of that
name. Another name for a table is not looked up beforehand. `Schema.distinctTables_states_iff` says
that the names are distinct after each statement of a run exactly if no table is given the name of
another one.
-/

namespace SqlKit

open Text

/-! ## Reach -/

/-- No two tables of a schema have one name, up to letter case. -/
def Schema.DistinctTables (s : Schema) : Prop :=
  s.tables.Pairwise fun t u => sameName t.name u.name = false

instance (s : Schema) : Decidable s.DistinctTables :=
  inferInstanceAs (Decidable (s.tables.Pairwise fun t u => sameName t.name u.name = false))

/-- Under every spelling of its name a table is found, changed and dropped, and none of the tables
in front of it and behind it is. -/
structure Schema.Reached (s : Schema) (before : List Table) (t : Table) (behind : List Table) :
    Prop where
  found : ∀ name, sameName t.name name = true → s.table? name = some t
  altered : ∀ a : AlterTable, sameName t.name a.table.name = true →
    (s.apply (.alterTable a)).tables = before ++ t.alter a.action :: behind
  dropped : ∀ (d : DropTable) (name : QualifiedName), d.names = [name] →
    sameName t.name name.name = true → (s.apply (.dropTable d)).tables = before ++ behind

theorem updateFirst_append_cons {α : Type} {p : α → Bool} {before : List α} {a : α}
    (hBefore : ∀ b ∈ before, p b = false) (ha : p a = true) (f : α → α) (behind : List α) :
    updateFirst p f (before ++ a :: behind) = before ++ f a :: behind := by
  induction before with
  | nil => rw [List.nil_append, updateFirst, if_pos ha, List.nil_append]
  | cons b before ih =>
    obtain ⟨hb, hRest⟩ := List.forall_mem_cons.mp hBefore
    rw [List.cons_append, updateFirst, hb, if_neg Bool.false_ne_true, ih hRest, List.cons_append]

theorem updateFirst_of_find?_eq_none {α : Type} {p : α → Bool} {as : List α}
    (h : as.find? p = none) (f : α → α) : updateFirst p f as = as := by
  induction as with
  | nil => rfl
  | cons a as ih =>
    obtain ⟨hHead, hTail⟩ := List.forall_mem_cons.mp (List.find?_eq_none.mp h)
    rw [updateFirst, if_neg hHead, ih (List.find?_eq_none.mpr hTail)]

namespace Schema

variable {s : Schema}

theorem sameName_of_table? {name : String} {t : Table} (ht : s.table? name = some t) :
    sameName t.name name = true :=
  List.find?_some (p := isNamed name) ht

/-- The first table of a name, with those in front of it, which have other names, and those behind
it. A change and a removal concern no other table. -/
theorem exists_split {name : String} {t : Table} (ht : s.table? name = some t) :
    ∃ before behind, s.tables = before ++ t :: behind ∧
      (∀ u ∈ before, sameName u.name t.name = false) ∧
      (∀ f, (s.updateTable name f).tables = before ++ f t :: behind) ∧
      (s.dropTable name).tables = before ++ behind := by
  obtain ⟨hName, before, behind, hTables, hOthers⟩ := List.find?_eq_some_iff_append.mp ht
  have hBefore : ∀ u ∈ before, isNamed name u = false := fun u hu => by simpa using hOthers u hu
  refine ⟨before, behind, hTables, fun u hu => ?_, fun f => ?_, ?_⟩
  · rw [sameName, sameName_iff.mp hName]
    exact hBefore u hu
  · rw [updateTable, hTables]
    exact updateFirst_append_cons hBefore hName f behind
  · rw [dropTable, hTables, List.eraseP_append_right, List.eraseP_cons_of_pos hName]
    intro u hu
    rw [hBefore u hu]
    exact Bool.false_ne_true

theorem updateTable_of_none {name : String} (h : s.table? name = none) (f : Table → Table) :
    s.updateTable name f = s := by
  rw [updateTable, updateFirst_of_find?_eq_none h]

/-- The tables in front of a table have other names. -/
theorem DistinctTables.isNamed_eq_false (h : s.DistinctTables) {before behind : List Table}
    {t : Table}
    (hTables : s.tables = before ++ t :: behind) {name : String}
    (hName : sameName t.name name = true) :
    ∀ u ∈ before, isNamed name u = false := by
  intro u hu
  rw [DistinctTables, hTables] at h
  have hOther := (List.pairwise_append.mp h).2.2 u hu t List.mem_cons_self
  rw [isNamed, ← hOther, sameName, sameName, sameName_iff.mp hName]

/-- Where the names are distinct, each table is the one that its name stands for. -/
theorem DistinctTables.reached (h : s.DistinctTables) : EachSplit s.Reached s.tables := by
  intro before t behind hTables
  have hBefore {name : String} (hName : sameName t.name name = true) :
      ∀ u ∈ before, isNamed name u = false := h.isNamed_eq_false hTables hName
  refine ⟨fun name hName => ?_, fun a hName => ?_, fun d name hDropped hName => ?_⟩
  · refine List.find?_eq_some_iff_append.mpr ⟨hName, before, behind, hTables, fun u hu => ?_⟩
    rw [hBefore hName u hu, Bool.not_false]
  · change updateFirst _ _ s.tables = _
    rw [hTables, updateFirst_append_cons (hBefore hName) hName]
  · have hFirst : isNamed name.name t = true := hName
    rw [apply, hDropped, List.foldl_cons, List.foldl_nil, dropTable, hTables,
      List.eraseP_append_right, List.eraseP_cons_of_pos hFirst]
    intro u hu
    rw [hBefore hName u hu]
    exact Bool.false_ne_true

/-! ## What a statement keeps -/

/-- Where the names are distinct, they are so with another table in the place of one exactly if that
table has none of the other names. -/
theorem pairwise_replace_iff {before behind : List Table} {t : Table}
    (h : (before ++ t :: behind).Pairwise fun t u => sameName t.name u.name = false) (u : Table) :
    ((before ++ u :: behind).Pairwise fun t u => sameName t.name u.name = false) ↔
      ∀ v ∈ before ++ behind, sameName u.name v.name = false := by
  have hMiddle : ∀ w : Table,
      ((before ++ w :: behind).Pairwise fun t u => sameName t.name u.name = false) ↔
        (∀ v ∈ before ++ behind, sameName w.name v.name = false) ∧
          (before ++ behind).Pairwise fun t u => sameName t.name u.name = false := fun w =>
    (List.pairwise_middle fun hSame => sameName_comm _ _ ▸ hSame).trans List.pairwise_cons
  rw [hMiddle, and_iff_left ((hMiddle t).mp h).2]

end Schema

/-! ### The name of a table -/

namespace Table

variable (t : Table)

@[simp] theorem addUniqueKey_name (name : Option String) (columns : List String) :
    (t.addUniqueKey name columns).name = t.name := by
  unfold addUniqueKey
  split <;> rfl

@[simp] theorem addColumn_name (d : ColumnDefinition) : (t.addColumn d).name = t.name := by
  unfold addColumn
  dsimp only
  split <;> split <;> simp

@[simp] theorem addConstraint_name (c : Constraint) : (t.addConstraint c).name = t.name := by
  unfold addConstraint addUnique
  split
  · rfl
  · split <;> simp [updateColumn]
  · rfl
  · rfl

@[simp] theorem addElement_name (e : TableElement) : (t.addElement e).name = t.name := by
  cases e with
  | column d => exact t.addColumn_name d
  | constraint c => exact t.addConstraint_name c

@[simp] theorem ofCreateTable_name (c : CreateTable) : (ofCreateTable c).name = c.name.name :=
  List.foldlRecOn (motive := fun u => u.name = c.name.name) c.elements addElement rfl
    fun u hu e _ => (u.addElement_name e).trans hu

@[simp] theorem alterColumn_name (column : String) (change : ColumnChange) :
    (t.alterColumn column change).name = t.name := by
  cases change with
  | redefine d =>
    change (t.redefineColumn column d).name = t.name
    unfold redefineColumn
    split <;> simp [updateColumn]
  | rename | setDefault | dropDefault | setNotNull | dropNotNull | setNull => rfl

/-- The name that a change leaves to a table. -/
theorem alter_name (action : AlterAction) : (t.alter action).name =
    match action with
    | .renameTable newName => newName
    | _ => t.name := by
  cases action with
  | addColumn d => exact t.addColumn_name d
  | addConstraint c => exact t.addConstraint_name c
  | alterColumn column change => exact t.alterColumn_name column change
  | dropColumn | dropConstraint | dropPrimaryKey | renameTable | renameColumn => rfl

end Table

/-! ### Steps -/

/-- When a change leaves a table a name of its own: where it gives the table the name of a table
that is there, this is its own name, in other letters at most. -/
def AlterAction.KeepsApart (s : Schema) (t : Table) : AlterAction → Prop
  | .renameTable newName => (s.table? newName).isSome → sameName t.name newName = true
  | _ => True

/-- When a statement leaves the names of tables distinct. -/
def Statement.KeepsApart (s : Schema) : Statement → Prop
  | .alterTable a => ∀ t ∈ s.table? a.table.name, a.action.KeepsApart s t
  | _ => True

namespace Schema.DistinctTables

variable {s : Schema}

/-- A table that is changed keeps apart from the others exactly if its new name is none of
theirs. -/
theorem updateTable_iff (h : s.DistinctTables) {name : String} {t : Table}
    (ht : s.table? name = some t) (f : Table → Table) :
    (s.updateTable name f).DistinctTables ↔
      ((s.table? (f t).name).isSome → sameName t.name (f t).name = true) := by
  obtain ⟨before, behind, hTables, -, hUpdated, -⟩ := exists_split ht
  have hSplit := h
  rw [DistinctTables, hTables] at hSplit
  have hOthers : ∀ v ∈ before ++ behind, sameName t.name v.name = false :=
    (pairwise_replace_iff hSplit t).mp hSplit
  rw [DistinctTables, hUpdated, pairwise_replace_iff hSplit]
  constructor
  · intro hApart hThere
    obtain ⟨w, hw⟩ := Option.isSome_iff_exists.mp hThere
    have hNamed := sameName_of_table? hw
    have hMem : w ∈ before ++ t :: behind := hTables ▸ List.mem_of_find?_eq_some hw
    rcases List.mem_cons.mp (List.perm_middle.subset hMem) with rfl | hOther
    · exact hNamed
    · rw [sameName_comm, hApart w hOther] at hNamed
      cases hNamed
  · intro hFree v hv
    rw [Bool.eq_false_iff]
    intro hSame
    have hMem : v ∈ s.tables := by
      rw [hTables]
      exact List.perm_middle.symm.subset (List.mem_cons_of_mem _ hv)
    have hThere : (s.table? (f t).name).isSome :=
      List.find?_isSome.mpr ⟨v, hMem, (sameName_comm _ _).trans hSame⟩
    have hOther := hOthers v hv
    rw [sameName_trans (hFree hThere) hSame] at hOther
    cases hOther

theorem define (h : s.DistinctTables) (u : Table) : (s.define u).DistinctTables := by
  unfold Schema.define
  split
  · next hThere =>
    obtain ⟨t, ht⟩ := Option.isSome_iff_exists.mp hThere
    exact (h.updateTable_iff ht _).mpr fun _ => sameName_of_table? ht
  · next hNone =>
    refine List.pairwise_append.mpr ⟨h, List.pairwise_singleton _ _, fun t ht w hw => ?_⟩
    obtain rfl := List.mem_singleton.mp hw
    have hOther : ∀ t ∈ s.tables, ¬ isNamed w.name t = true := by simpa [table?] using hNone
    exact Bool.eq_false_iff.mpr (hOther t ht)

theorem dropTables (h : s.DistinctTables) (names : List QualifiedName) :
    (names.foldl (fun s name => s.dropTable name.name) s).DistinctTables :=
  List.foldlRecOn names _ h fun _ hs _ _ => List.Pairwise.sublist List.eraseP_sublist hs

theorem apply_iff (h : s.DistinctTables) (x : Statement) :
    (s.apply x).DistinctTables ↔ x.KeepsApart s := by
  cases x with
  | createTable c => exact iff_of_true (h.define _) trivial
  | dropTable d => exact iff_of_true (h.dropTables d.names) trivial
  | insert | update | delete | select => exact iff_of_true h trivial
  | alterTable a =>
    rw [apply, Statement.KeepsApart]
    cases hFind : s.table? a.table.name with
    | none => exact iff_of_true (by rwa [updateTable_of_none hFind]) nofun
    | some t =>
      simp only [h.updateTable_iff hFind, Option.mem_some_iff, forall_eq', t.alter_name]
      cases a.action with
      | renameTable newName => exact Iff.rfl
      | addColumn | addConstraint | alterColumn | dropColumn | dropConstraint | dropPrimaryKey
      | renameColumn => exact iff_of_true (fun _ => sameName_refl _) trivial

end Schema.DistinctTables

/-! ## Runs -/

/-- After each statement of a run the tables have distinct names, and each of them is the one that
its name stands for, if and only if no statement gives a table the name of another one. -/
theorem Schema.distinctTables_states_iff (xs : List Statement) :
    (∀ s ∈ empty.states xs, s.DistinctTables ∧ EachSplit s.Reached s.tables) ↔
      empty.Throughout Statement.KeepsApart xs := by
  have hReached :
    ∀ s : Schema, s.DistinctTables ∧ EachSplit s.Reached s.tables ↔ s.DistinctTables :=
    fun _ => and_iff_left_of_imp DistinctTables.reached
  simp only [hReached]
  exact states_iff (R := DistinctTables) (fun _ x _ hs => hs.apply_iff x) .nil

/-- A table is given the name of another one, which is out of reach from then on. -/
theorem Schema.not_distinctTables_renamed :
    (parse .standard "CREATE TABLE t (a INT); CREATE TABLE u (b INT); ALTER TABLE u RENAME TO T"
      ).errors = [] ∧
    ¬ ∀ s ∈ empty.states (parse .standard
        "CREATE TABLE t (a INT); CREATE TABLE u (b INT); ALTER TABLE u RENAME TO T").statements,
      s.DistinctTables := by
  decide +kernel

end SqlKit
