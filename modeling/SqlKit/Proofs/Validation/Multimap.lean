import SqlKit.Proofs.Text.Spellings
import SqlKit.Validation.Failures

/-!
# Failures as an ordered multimap

Failures are made by adding messages one at a time and by taking in other failures, which were made
in the same way (`Findings`). However the columns are spelled and in whatever order the two are
mixed, the result is the list of the messages that arrived, grouped by their columns
(`Failures.Groups`): the columns stand in the order of their first messages and under the spellings
of these, and each with all of its messages in the order of their arrival.

Taking in is described by what it does to the columns (`Failures.columns_extend`) and to the
messages of each (`Failures.get?_extend`). Both are associative, and so is taking in itself.
-/

namespace SqlKit

open Text

/-! ## Taking in other failures -/

namespace Failures

/-- Other failures are taken in column by column. -/
theorem messages_extend (f g : Failures) : (f.extend g).messages =
    g.messages.entries.foldl
      (fun m e => m.alter e.1 fun earlier => earlier.getD [] ++ e.2) f.messages :=
  (List.foldl_hom messages fun _ _ => rfl).symm

theorem columns_append (f : Failures) (column : String) (messages : List String) :
    (f.append column messages).columns = firstSpellings (f.columns ++ [column]) :=
  f.messages.names_alter column _

theorem columns_extend (f g : Failures) :
    (f.extend g).columns = firstSpellings (f.columns ++ g.columns) := by
  rw [columns, messages_extend]
  exact NameMap.names_foldl_alter
    (fun ms earlier => earlier.getD [] ++ ms) f.messages g.messages.entries

/-- The messages of a column are those of the one failures, and behind them those of the other. -/
theorem get?_extend (f g : Failures) (column : String) :
    (f.extend g).get? column = Option.merge (· ++ ·) (f.get? column) (g.get? column) := by
  have hRun : (f.extend g).get? column =
      (valuesUnder column g.messages.entries).foldl
        (fun earlier ms => some (earlier.getD [] ++ ms)) (f.get? column) := by
    rw [get?, messages_extend]
    exact NameMap.find?_foldl_alter (fun ms earlier => earlier.getD [] ++ ms) _ _ column
  rw [hRun, valuesUnder_of_distinct g.messages.distinct]
  change (g.get? column).toList.foldl _ _ = _
  cases f.get? column <;> cases g.get? column <;> rfl

theorem extend_assoc (f g h : Failures) : (f.extend g).extend h = f.extend (g.extend h) := by
  have hColumns : ((f.extend g).extend h).columns = (f.extend (g.extend h)).columns := by
    simp only [columns_extend, firstSpellings_append_left, firstSpellings_append_right,
      List.append_assoc]
  have hMessages (column : String) :
      ((f.extend g).extend h).get? column = (f.extend (g.extend h)).get? column := by
    simp only [get?_extend]
    exact Std.Associative.assoc _ _ _
  exact congrArg Failures.mk (NameMap.eq_of_names_of_find? hColumns hMessages)

end Failures

/-! ## How failures come about -/

/-- The steps by which failures are made. -/
inductive Findings where
  | empty
  | add (earlier : Findings) (column message : String)
  | extend (earlier other : Findings)

namespace Findings

/-- The failures that are made. -/
def failures : Findings → Failures
  | empty => .empty
  | add earlier column message => earlier.failures.add column message
  | extend earlier other => earlier.failures.extend other.failures

/-- The messages that were added, each under the column as it was spelled then, in the order of
their arrival. -/
def arrived : Findings → List (String × String)
  | empty => []
  | add earlier column message => earlier.arrived ++ [(column, message)]
  | extend earlier other => earlier.arrived ++ other.arrived

theorem columns_failures (x : Findings) :
    x.failures.columns = firstSpellings (x.arrived.map (·.1)) := by
  induction x with
  | empty => rfl
  | add earlier column message ih =>
    rw [failures, Failures.add, Failures.columns_append, ih, firstSpellings_append_left, arrived,
      List.map_append, List.map_singleton]
  | extend earlier other ih ihOther =>
    rw [failures, Failures.columns_extend, ih, ihOther, firstSpellings_append_left,
      firstSpellings_append_right, arrived, List.map_append]

/-- Messages one behind another, where none are nothing. -/
theorem merge_guard (xs ys : List String) :
    Option.merge (· ++ ·) (Option.guard (!·.isEmpty) xs) (Option.guard (!·.isEmpty) ys) =
      Option.guard (!·.isEmpty) (xs ++ ys) := by
  cases xs <;> cases ys <;> simp [Option.guard]

theorem get?_failures (x : Findings) (column : String) :
    x.failures.get? column = Option.guard (!·.isEmpty) (valuesUnder column x.arrived) := by
  induction x with
  | empty => rfl
  | add earlier other message ih =>
    rw [failures, Failures.add, Failures.get?_append, arrived, valuesUnder_append, ← merge_guard,
      ← ih, valuesUnder_cons]
    split
    · next hSame =>
      rw [Failures.get?, NameMap.find?_congr hSame, ← Failures.get?]
      cases earlier.failures.get? column <;> rfl
    · exact Option.merge_none_right.symm
  | extend earlier other ih ihOther =>
    rw [failures, Failures.get?_extend, ih, ihOther, merge_guard, arrived, valuesUnder_append]

end Findings

/-! ## Grouped messages -/

/-- Failures are the messages that arrived, grouped by their columns. -/
structure Failures.Groups (f : Failures) (arrived : List (String × String)) : Prop where
  distinct : f.columns.Pairwise fun a b => sameName a b = false
  filled : ∀ entry ∈ f.messages.entries, entry.2 ≠ []
  columns : f.columns = firstSpellings (arrived.map (·.1))
  messages : ∀ column, f.get? column = Option.guard (!·.isEmpty) (valuesUnder column arrived)

theorem Findings.groups (x : Findings) : x.failures.Groups x.arrived where
  distinct := NameMap.pairwise_names _
  filled entry hEntry hEmpty := by
    have hFound := NameMap.find?_of_mem hEntry
    rw [← Failures.get?, x.get?_failures, hEmpty] at hFound
    obtain ⟨hMessages, hSome⟩ := Option.guard_eq_some_iff.mp hFound
    rw [hMessages] at hSome
    cases hSome
  columns := x.columns_failures
  messages := x.get?_failures

/-- **Failures are an ordered multimap.** However they are made, they are the messages that arrived,
grouped by column. Failures that are taken in put their messages behind those of the same column,
and it does not matter which of three failures are brought together first. -/
theorem Failures.ordered_multimap :
    (∀ x : Findings, x.failures.Groups x.arrived) ∧
      (∀ (f g : Failures) (column : String),
        (f.extend g).get? column = Option.merge (· ++ ·) (f.get? column) (g.get? column)) ∧
      ∀ f g h : Failures, (f.extend g).extend h = f.extend (g.extend h) :=
  ⟨Findings.groups, get?_extend, extend_assoc⟩

end SqlKit
