import SqlKit.Proofs.Schema.Marks
import SqlKit.Proofs.Schema.TableNames

/-!
# Statements about different tables

A statement mentions the names of the tables that it defines, changes and drops, and the name that
it gives to a table. The tables of other names stay as they are, and they have no influence on the
tables that the statement is about. So what is left of the tables of some names can be followed on
its own (`Schema.among_applyAll`), although all tables share one list, in which definitions come
last, other tables move up behind a removal, and several tables may have one name.

`Schema.table?_apply_comm` draws the conclusion that statements without a common name can change
places: the tables may end up in another order, but under every name the same one is found.
-/

namespace SqlKit

open Text

/-! ## The names that a statement mentions -/

/-- The name that a change gives to a table. -/
def AlterAction.tableNames : AlterAction → List String
  | .renameTable newName => [newName]
  | _ => []

/-- The names of the tables that a statement defines, changes or drops, before and after it. -/
def Statement.tableNames : Statement → List String
  | .createTable c => [c.name.name]
  | .alterTable a => a.table.name :: a.action.tableNames
  | .dropTable d => d.names.map (·.name)
  | .insert _ | .update _ | .delete _ | .select _ => []

/-- All names that a statement mentions are among some names. -/
def Statement.Within (names : List String) (x : Statement) : Prop :=
  ∀ n ∈ x.tableNames, hasName names n = true

/-- No name that a statement mentions is among some names. -/
def Statement.Outside (names : List String) (x : Statement) : Prop :=
  ∀ n ∈ x.tableNames, hasName names n = false

instance (names : List String) (x : Statement) : Decidable (x.Within names) :=
  inferInstanceAs (Decidable (∀ n ∈ x.tableNames, hasName names n = true))

instance (names : List String) (x : Statement) : Decidable (x.Outside names) :=
  inferInstanceAs (Decidable (∀ n ∈ x.tableNames, hasName names n = false))

/-- The tables of some names, in the order of the schema. -/
def Schema.among (names : List String) (s : Schema) : Schema :=
  ⟨s.tables.filter (hasName names ·.name)⟩

/-! ## Lists of which a part is looked at -/

section Filter

variable {α : Type} {p q : α → Bool} {f : α → α}

/-- A change within the part that is looked at can be made there. -/
theorem filter_updateFirst_of_inside {as : List α} (hp : ∀ a ∈ as, p a = true → q a = true)
    (hf : ∀ a ∈ as, p a = true → q (f a) = true) :
    (updateFirst p f as).filter q = updateFirst p f (as.filter q) := by
  induction as with
  | nil => rfl
  | cons a as ih =>
    obtain ⟨hpHead, hpTail⟩ := List.forall_mem_cons.mp hp
    obtain ⟨hfHead, hfTail⟩ := List.forall_mem_cons.mp hf
    by_cases hFirst : p a = true
    · rw [updateFirst, if_pos hFirst, List.filter_cons_of_pos (hfHead hFirst),
        List.filter_cons_of_pos (hpHead hFirst), updateFirst, if_pos hFirst]
    · rw [updateFirst, if_neg hFirst, List.filter_cons, List.filter_cons, ih hpTail hfTail]
      split
      · rw [updateFirst, if_neg hFirst]
      · rfl

/-- A change outside the part that is looked at is not seen there. -/
theorem filter_updateFirst_of_outside {as : List α} (hp : ∀ a ∈ as, p a = true → q a = false)
    (hf : ∀ a ∈ as, p a = true → q (f a) = false) :
    (updateFirst p f as).filter q = as.filter q := by
  induction as with
  | nil => rfl
  | cons a as ih =>
    obtain ⟨hpHead, hpTail⟩ := List.forall_mem_cons.mp hp
    obtain ⟨hfHead, hfTail⟩ := List.forall_mem_cons.mp hf
    by_cases hFirst : p a = true
    · rw [updateFirst, if_pos hFirst, List.filter_cons, hfHead hFirst, List.filter_cons,
        hpHead hFirst, if_neg Bool.false_ne_true, if_neg Bool.false_ne_true]
    · rw [updateFirst, if_neg hFirst, List.filter_cons, List.filter_cons, ih hpTail hfTail]

theorem filter_eraseP_of_inside (as : List α) (hp : ∀ a, p a = true → q a = true) :
    (as.eraseP p).filter q = (as.filter q).eraseP p := by
  have hBoth : (fun a => p a && q a) = p := by
    funext a
    cases h : p a
    · rfl
    · rw [hp a h, Bool.and_self]
  rw [List.eraseP_filter, hBoth]

theorem filter_eraseP_of_outside (as : List α) (hp : ∀ a, p a = true → q a = false) :
    (as.eraseP p).filter q = as.filter q := by
  induction as with
  | nil => rfl
  | cons a as ih =>
    by_cases hFirst : p a = true
    · rw [List.eraseP_cons_of_pos hFirst, List.filter_cons, hp a hFirst, if_neg Bool.false_ne_true]
    · rw [List.eraseP_cons_of_neg hFirst, List.filter_cons, List.filter_cons, ih]

end Filter

namespace Schema

variable {names : List String} {s : Schema}

/-! ## Looking at the tables of some names -/

/-- The tables of some names are found among them. -/
theorem table?_among {name : String} (h : hasName names name = true) :
    (s.among names).table? name = s.table? name := by
  have hBoth : (fun t : Table => decide (hasName names t.name = true ∧ isNamed name t = true)) =
      isNamed name := by
    funext t
    cases hNamed : isNamed name t
    · simp
    · simp [caseBlind_hasName names hNamed, h]
  rw [table?, among, List.find?_filter, hBoth, table?]

theorem among_updateTable_of_inside {name : String} {f : Table → Table}
    (h : hasName names name = true)
    (hf : ∀ t, isNamed name t = true → hasName names (f t).name = true) :
    (s.updateTable name f).among names = (s.among names).updateTable name f :=
  congrArg Schema.mk (filter_updateFirst_of_inside
    (fun _ _ hNamed => (caseBlind_hasName names hNamed).trans h) fun t _ => hf t)

theorem among_updateTable_of_outside {name : String} {f : Table → Table}
    (h : hasName names name = false)
    (hf : ∀ t, isNamed name t = true → hasName names (f t).name = false) :
    (s.updateTable name f).among names = s.among names :=
  congrArg Schema.mk (filter_updateFirst_of_outside
    (fun _ _ hNamed => (caseBlind_hasName names hNamed).trans h) fun t _ => hf t)

theorem among_dropTable_of_inside {name : String} (h : hasName names name = true) :
    (s.dropTable name).among names = (s.among names).dropTable name :=
  congrArg Schema.mk
    (filter_eraseP_of_inside _ fun _ hNamed => (caseBlind_hasName names hNamed).trans h)

theorem among_dropTable_of_outside {name : String} (h : hasName names name = false) :
    (s.dropTable name).among names = s.among names :=
  congrArg Schema.mk
    (filter_eraseP_of_outside _ fun _ hNamed => (caseBlind_hasName names hNamed).trans h)

theorem among_define_of_inside {u : Table} (h : hasName names u.name = true) :
    (s.define u).among names = (s.among names).define u := by
  rw [define, define, table?_among h]
  split
  · exact among_updateTable_of_inside h fun _ _ => h
  · simp [among, h]

theorem among_define_of_outside {u : Table} (h : hasName names u.name = false) :
    (s.define u).among names = s.among names := by
  rw [define]
  split
  · exact among_updateTable_of_outside h fun _ _ => h
  · simp [among, h]

theorem among_dropTables_of_inside {dropped : List QualifiedName}
    (h : ∀ n ∈ dropped, hasName names n.name = true) :
    (dropped.foldl (fun s name => s.dropTable name.name) s).among names =
      dropped.foldl (fun s name => s.dropTable name.name) (s.among names) := by
  induction dropped generalizing s with
  | nil => rfl
  | cons name rest ih =>
    obtain ⟨hName, hRest⟩ := List.forall_mem_cons.mp h
    rw [List.foldl_cons, List.foldl_cons, ih hRest, among_dropTable_of_inside hName]

theorem among_dropTables_of_outside {dropped : List QualifiedName}
    (h : ∀ n ∈ dropped, hasName names n.name = false) :
    (dropped.foldl (fun s name => s.dropTable name.name) s).among names = s.among names := by
  induction dropped generalizing s with
  | nil => rfl
  | cons name rest ih =>
    obtain ⟨hName, hRest⟩ := List.forall_mem_cons.mp h
    rw [List.foldl_cons, ih hRest, among_dropTable_of_outside hName]

/-! ## Steps -/

/-- After a change a table has the name that it had, or one that the change mentions. -/
theorem hasName_alter {a : AlterTable} {t : Table} {b : Bool}
    (h : ∀ n ∈ (Statement.alterTable a).tableNames, hasName names n = b)
    (ht : isNamed a.table.name t = true) : hasName names (t.alter a.action).name = b := by
  obtain ⟨hTable, hAction⟩ := List.forall_mem_cons.mp h
  have hKept : hasName names t.name = b := (caseBlind_hasName names ht).trans hTable
  rw [t.alter_name]
  revert hAction
  cases a.action with
  | renameTable newName => exact fun hAction => hAction newName List.mem_cons_self
  | addColumn | addConstraint | alterColumn | dropColumn | dropConstraint | dropPrimaryKey
  | renameColumn => exact fun _ => hKept

/-- What a statement leaves of the tables that it is about does not depend on the other tables. -/
theorem among_apply_of_within {x : Statement} (h : x.Within names) :
    (s.apply x).among names = (s.among names).apply x := by
  cases x with
  | createTable c =>
    refine among_define_of_inside ?_
    rw [Table.ofCreateTable_name]
    exact h _ List.mem_cons_self
  | alterTable a =>
    exact among_updateTable_of_inside (h _ List.mem_cons_self) fun _ => hasName_alter h
  | dropTable d => exact among_dropTables_of_inside (List.forall_mem_map.mp h)
  | insert | update | delete | select => rfl

/-- A statement leaves the tables that it does not mention as they are. -/
theorem among_apply_of_outside {x : Statement} (h : x.Outside names) :
    (s.apply x).among names = s.among names := by
  cases x with
  | createTable c =>
    refine among_define_of_outside ?_
    rw [Table.ofCreateTable_name]
    exact h _ List.mem_cons_self
  | alterTable a =>
    exact among_updateTable_of_outside (h _ List.mem_cons_self) fun _ => hasName_alter h
  | dropTable d => exact among_dropTables_of_outside (List.forall_mem_map.mp h)
  | insert | update | delete | select => rfl

/-! ## Runs -/

/-- Where each statement of a run is about tables of some names only, or about none of them, the
statements of the first kind alone leave the same tables of these names. -/
theorem among_applyAll {xs : List Statement} (h : ∀ x ∈ xs, x.Within names ∨ x.Outside names) :
    (s.applyAll xs).among names =
      (s.among names).applyAll (xs.filter fun x => decide (x.Within names)) := by
  induction xs generalizing s with
  | nil => rfl
  | cons x xs ih =>
    obtain ⟨hHead, hTail⟩ := List.forall_mem_cons.mp h
    rw [applyAll, List.foldl_cons]
    refine (ih hTail).trans ?_
    by_cases hWithin : x.Within names
    · rw [List.filter_cons, if_pos (decide_eq_true hWithin), among_apply_of_within hWithin]
      rfl
    · rw [List.filter_cons, if_neg (by rwa [decide_eq_true_iff]),
        among_apply_of_outside (hHead.resolve_left hWithin)]

/-- Of two statements, one of which is about the tables of some names and the other about other
tables, either may come first. -/
theorem among_apply_comm {x y : Statement} (hx : x.Within names) (hy : y.Outside names) :
    ((s.apply x).apply y).among names = ((s.apply y).apply x).among names := by
  rw [among_apply_of_outside hy, among_apply_of_within hx, among_apply_of_within hx,
    among_apply_of_outside hy]

end Schema

namespace Statement

variable {x y : Statement}

theorem within_of_subset {names : List String} (h : x.tableNames ⊆ names) : x.Within names :=
  fun n hn => List.any_eq_true.mpr ⟨n, h hn, sameName_refl n⟩

theorem Outside.symm (h : x.Outside y.tableNames) : y.Outside x.tableNames := by
  intro n hn
  rw [hasName, List.any_eq_false]
  intro m hm hSame
  have hApart := List.any_eq_false.mp (h m hm) n hn
  exact hApart ((sameName_comm n m).trans hSame)

end Statement

/-- Two statements that mention no common name leave the same table under every name, whichever of
them comes first. -/
theorem Schema.table?_apply_comm (s : Schema) {x y : Statement} (h : x.Outside y.tableNames)
    (name : String) :
    ((s.apply x).apply y).table? name = ((s.apply y).apply x).table? name := by
  cases hName : hasName x.tableNames name with
  | true =>
    rw [← table?_among hName,
      among_apply_comm (Statement.within_of_subset (List.Subset.refl _)) h.symm,
      table?_among hName]
  | false =>
    -- The name is none of those of `x`, which is therefore a statement about other tables for `y`.
    have hFound : hasName (name :: y.tableNames) name = true := by
      rw [hasName_cons, sameName_refl, Bool.true_or]
    have hx : x.Outside (name :: y.tableNames) := by
      intro n hn
      rw [hasName_cons, h n hn, Bool.or_false, sameName_comm]
      exact Bool.eq_false_iff.mpr (List.any_eq_false.mp hName n hn)
    have hy : y.Within (name :: y.tableNames) :=
      Statement.within_of_subset (List.subset_cons_self _ _)
    rw [← table?_among hFound, ← among_apply_comm hy hx, table?_among hFound]

/-- Two tables of one name, with another one between them. -/
def sampleTwins : Schema where
  tables := [⟨"t", none, [], [], [], []⟩, ⟨"u", none, [], [], [], []⟩, ⟨"T", none, [], [], [], []⟩]

/-- The first of two tables of one name gets another one, and the table between them is removed. -/
theorem Schema.table?_apply_comm_sampleTwins :
    (Statement.alterTable ⟨⟨none, "T"⟩, .renameTable "w", .atStart⟩).Outside
        (Statement.dropTable ⟨false, [⟨none, "U"⟩, ⟨none, "v"⟩], none, .atStart⟩).tableNames ∧
      ∀ name : String,
        ((sampleTwins.apply (.alterTable ⟨⟨none, "T"⟩, .renameTable "w", .atStart⟩)).apply
          (.dropTable ⟨false, [⟨none, "U"⟩, ⟨none, "v"⟩], none, .atStart⟩)).table? name =
        ((sampleTwins.apply (.dropTable ⟨false, [⟨none, "U"⟩, ⟨none, "v"⟩], none, .atStart⟩)).apply
          (.alterTable ⟨⟨none, "T"⟩, .renameTable "w", .atStart⟩)).table? name :=
  have hApart : (Statement.alterTable ⟨⟨none, "T"⟩, .renameTable "w", .atStart⟩).Outside
      (Statement.dropTable ⟨false, [⟨none, "U"⟩, ⟨none, "v"⟩], none, .atStart⟩).tableNames := by
    decide +kernel
  ⟨hApart, Schema.table?_apply_comm sampleTwins hApart⟩

end SqlKit
