import SqlKit.Proofs.Schema.Marks

/-!
# Schemas step by step

A statement touches one table at most, the first one of its name, apart from those that it drops. So
what is known of all tables of a schema is known of them after a statement exactly if it is known of
the table that the statement made or changed (`Schema.forall_apply_iff`), and it is known after each
of several statements exactly if no step goes wrong (`Schema.forall_states_iff`). What no step can
undo is known of every schema that can be reached (`Schema.Reachable.forall_tables`).

A table that is defined is made entry by entry, and what becomes of a column depends on the entries
in front of it and on those behind it. `EachColumn` speaks of the columns with these two.
-/

namespace SqlKit

/-! ## Entries with those around them -/

/-- Something holds of every entry of a list and of those in front of it and behind it. -/
def EachSplit {α : Type} (P : List α → α → List α → Prop) (as : List α) : Prop :=
  ∀ before a behind, as = before ++ a :: behind → P before a behind

namespace EachSplit

variable {α : Type} {P : List α → α → List α → Prop}

@[simp] theorem nil : EachSplit P [] := fun before a behind h => by simp at h

@[simp] theorem cons {a : α} {as : List α} : EachSplit P (a :: as) ↔
    P [] a as ∧ EachSplit (fun before => P (a :: before)) as := by
  constructor
  · intro h
    refine ⟨h [] a as rfl, fun before b behind hSplit => ?_⟩
    exact h (a :: before) b behind (by rw [hSplit]; rfl)
  · rintro ⟨hHead, hTail⟩ before b behind hSplit
    cases before with
    | nil =>
      obtain ⟨rfl, rfl⟩ := List.cons.inj hSplit
      exact hHead
    | cons c before =>
      obtain ⟨rfl, hRest⟩ := List.cons.inj hSplit
      exact hTail before b behind hRest

theorem forall_iff {Q : α → Prop} (as : List α) :
    EachSplit (fun _ a _ => Q a) as ↔ ∀ a ∈ as, Q a := by
  induction as with
  | nil => simp
  | cons a as ih => rw [cons, ih, List.forall_mem_cons]

theorem concat {Q : List α → α → Prop} {as : List α} {a : α} :
    EachSplit (fun before b _ => Q before b) (as ++ [a]) ↔
      EachSplit (fun before b _ => Q before b) as ∧ Q as a := by
  induction as generalizing Q with
  | nil => simp
  | cons b as ih =>
    rw [List.cons_append, cons, cons, ih (Q := fun before => Q (b :: before)), and_assoc]

end EachSplit

/-- Something holds of every column of a table definition and of the entries in front of it and
behind it. -/
def EachColumn (P : List TableElement → ColumnDefinition → List TableElement → Prop) :
    List TableElement → Prop :=
  EachSplit fun before e behind => ∀ d, e = .column d → P before d behind

/-! ## Schemas -/

namespace Schema

variable {s : Schema} {Q : Table → Prop}

/-- Of the tables of a schema only the one that is changed counts. -/
theorem forall_updateTable_iff (h : ∀ t ∈ s.tables, Q t) (name : String) (f : Table → Table) :
    (∀ t ∈ (s.updateTable name f).tables, Q t) ↔ ∀ t ∈ s.table? name, Q (f t) := by
  rw [updateTable, forall_mem_updateFirst_iff, table?]
  exact and_iff_left ((forall_mem_iff_find?_eraseP _ _).mp h).2

theorem forall_define_iff (h : ∀ t ∈ s.tables, Q t) (u : Table) :
    (∀ t ∈ (s.define u).tables, Q t) ↔ Q u := by
  rw [define]
  split
  · next hThere =>
    rw [forall_updateTable_iff h]
    obtain ⟨t, ht⟩ := Option.isSome_iff_exists.mp hThere
    simp [ht]
  · simp only [List.forall_mem_append, List.forall_mem_singleton]
    exact and_iff_right h

theorem forall_dropTables (h : ∀ t ∈ s.tables, Q t) (names : List QualifiedName) :
    ∀ t ∈ (names.foldl (fun s name => s.dropTable name.name) s).tables, Q t := by
  induction names generalizing s with
  | nil => exact h
  | cons name names ih => exact ih fun t ht => h t (List.mem_of_mem_eraseP ht)

/-- What must be known of a statement for something to be known of all tables after it. -/
def Leaves (Q : Table → Prop) (s : Schema) : Statement → Prop
  | .createTable c => Q (.ofCreateTable c)
  | .alterTable a => ∀ t ∈ s.table? a.table.name, Q (t.alter a.action)
  | .dropTable _ | .insert _ | .update _ | .delete _ | .select _ => True

/-- What is known of all tables is known of them after a statement, if it is known of the table that
the statement made or changed. -/
theorem forall_apply_iff (h : ∀ t ∈ s.tables, Q t) (x : Statement) :
    (∀ t ∈ (s.apply x).tables, Q t) ↔ s.Leaves Q x := by
  cases x with
  | createTable c => exact forall_define_iff h _
  | alterTable a => exact forall_updateTable_iff h _ _
  | dropTable d => exact iff_of_true (forall_dropTables h d.names) trivial
  | insert | update | delete | select => exact iff_of_true h trivial

/-- Each of several statements, in the schema that it meets. -/
def Throughout (P : Schema → Statement → Prop) (s : Schema) : List Statement → Prop
  | [] => True
  | x :: xs => P s x ∧ (s.apply x).Throughout P xs

instance decidableThroughout (P : Schema → Statement → Prop) [∀ s x, Decidable (P s x)] :
    (s : Schema) → (xs : List Statement) → Decidable (s.Throughout P xs)
  | _, [] => isTrue trivial
  | s, x :: xs =>
    have := decidableThroughout P (s.apply x) xs
    inferInstanceAs (Decidable (P s x ∧ (s.apply x).Throughout P xs))

/-- Something holds in every state of a run if no step of the run goes wrong. -/
theorem states_iff {R : Schema → Prop} {P : Schema → Statement → Prop} {xs : List Statement}
    (hStep : ∀ s x, x ∈ xs → R s → (R (s.apply x) ↔ P s x)) (h : R s) :
    (∀ s' ∈ s.states xs, R s') ↔ s.Throughout P xs := by
  induction xs generalizing s with
  | nil => simp [states, Throughout]
  | cons x xs ih =>
    have hHead := hStep s x List.mem_cons_self h
    rw [states, List.forall_mem_cons, Throughout, hHead]
    refine and_congr_right fun hKept => ih (fun s y hy => hStep s y (List.mem_cons_of_mem _ hy)) ?_
    exact hHead.mpr hKept

/-- All tables are well in every state of a run, if no step of the run goes wrong. -/
theorem forall_states_iff {P : Schema → Statement → Prop} {xs : List Statement}
    (hStep : ∀ s x, x ∈ xs → (∀ t ∈ s.tables, Q t) → (s.Leaves Q x ↔ P s x))
    (h : ∀ t ∈ s.tables, Q t) :
    (∀ s' ∈ s.states xs, ∀ t ∈ s'.tables, Q t) ↔ s.Throughout P xs :=
  states_iff (R := fun s => ∀ t ∈ s.tables, Q t)
    (fun s x hx hs => (forall_apply_iff hs x).trans (hStep s x hx hs)) h

/-- All tables are well in every state of a run in which each step leaves the table that it makes or
changes well. -/
theorem forall_states {P : Schema → Statement → Prop} {xs : List Statement}
    (hStep : ∀ s x, (∀ t ∈ s.tables, Q t) → P s x → s.Leaves Q x) (h : ∀ t ∈ s.tables, Q t)
    (hRun : s.Throughout P xs) : ∀ s' ∈ s.states xs, ∀ t ∈ s'.tables, Q t := by
  induction xs generalizing s with
  | nil => simp [states]
  | cons x xs ih =>
    have hNext := (forall_apply_iff h x).mpr (hStep s x h hRun.1)
    exact List.forall_mem_cons.mpr ⟨hNext, ih hNext hRun.2⟩

/-! ### Whatever is done -/

/-- What can become of a schema without tables: statements are applied to it, and columns are given
other properties. -/
inductive Reachable : Schema → Prop where
  | empty : Reachable .empty
  | apply {s : Schema} (h : Reachable s) (x : Statement) : Reachable (s.apply x)
  | mapProperty {s : Schema} (h : Reachable s) (table column property : String) :
    Reachable (s.updateTable table (·.mapProperty column property))

theorem Reachable.applyAll (h : s.Reachable) (xs : List Statement) : (s.applyAll xs).Reachable :=
  List.foldlRecOn xs Schema.apply h fun _ hs x _ => hs.apply x

/-- What is known of every table as it is defined, and stays known whatever is changed of it, is
known of all tables of a schema that can be reached. -/
theorem Reachable.forall_tables (h : s.Reachable) (hDefined : ∀ c, Q (.ofCreateTable c))
    (hChanged : ∀ t action, Q t → Q (t.alter action))
    (hMapped : ∀ t column property, Q t → Q (t.mapProperty column property)) :
    ∀ t ∈ s.tables, Q t := by
  induction h with
  | empty => simp [Schema.empty]
  | @apply s _ x ih =>
    refine (forall_apply_iff ih x).mpr ?_
    cases x with
    | createTable c => exact hDefined c
    | alterTable a => exact fun t ht => hChanged t a.action (ih t (List.mem_of_find?_eq_some ht))
    | dropTable | insert | update | delete | select => trivial
  | @mapProperty s _ table column property ih =>
    refine (forall_updateTable_iff ih table _).mpr fun t ht => ?_
    exact hMapped t column property (ih t (List.mem_of_find?_eq_some ht))

end Schema

end SqlKit
