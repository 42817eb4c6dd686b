import SqlKit.Data.Row
import SqlKit.Proofs.Text.Spellings

/-!
# Rows with repeated names

The columns of a row may repeat a name, as those of a join do. The row is read by the first column
of a name. A record that is made from it has the names of the row, each once and as it is first
spelled, but it is filled column by column, so that the value of the last column of a name is what
it holds.

`Record.ofRow_reads_iff` says when nobody can tell the two apart: exactly if the first and the last
column of each repeated name hold the same value (`Row.RepeatsAgree`).
-/

namespace SqlKit

open Text

namespace Row

variable {r : Row}

/-- The value of the last column of a name. -/
def findLast? (r : Row) (name : String) : Option Value := (valuesUnder name r.columns).getLast?

theorem find?_eq_head? (r : Row) (name : String) :
    r.find? name = (valuesUnder name r.columns).head? := by
  rw [valuesUnder, List.head?_map, List.head?_filter, find?]

/-- Of every name that is repeated the first and the last column hold the same value. -/
def RepeatsAgree (r : Row) : Prop :=
  ∀ before first middle last behind, r.columns = before ++ first :: (middle ++ last :: behind) →
    sameName first.1 last.1 = true → hasName (before.map (·.1)) first.1 = false →
      hasName (behind.map (·.1)) last.1 = false → first.2 = last.2

theorem RepeatsAgree.find?_eq (h : r.RepeatsAgree) (name : String) :
    r.find? name = r.findLast? name := by
  rw [find?_eq_head?, findLast?, valuesUnder]
  cases hShown : r.columns.filter (isUnder name) with
  | nil => rfl
  | cons first others =>
    rcases others.eq_nil_or_concat with rfl | ⟨between, last, rfl⟩
    · rfl
    · obtain ⟨before, rest, hColumns, hBefore, hFirst, hRest⟩ := List.filter_eq_cons_iff.mp hShown
      rw [List.concat_eq_append] at hRest
      obtain ⟨middle, tail, rfl, -, hTail⟩ := List.filter_eq_append_iff.mp hRest
      obtain ⟨skipped, behind, rfl, -, hLast, hBehind⟩ := List.filter_eq_cons_iff.mp hTail
      have hSame : sameName first.1 last.1 = true :=
        sameName_trans hFirst ((sameName_comm _ _).trans hLast)
      have hNone {entries : List (String × Value)} {n : String} (hName : sameName n name = true)
          (hOthers : ∀ e ∈ entries, ¬ isUnder name e = true) :
          hasName (entries.map (·.1)) n = false := by
        rw [← valuesUnder_eq_nil_iff, valuesUnder, List.map_eq_nil_iff, List.filter_eq_nil_iff]
        intro e he
        rw [isUnder, sameName_congr_right hName]
        exact hOthers e he
      have hValues := h before first (middle ++ skipped) last behind
        (by rw [hColumns, List.append_assoc]) hSame (hNone hFirst hBefore)
        (hNone hLast (List.filter_eq_nil_iff.mp hBehind))
      rw [List.map_cons, List.concat_eq_append, List.map_append, List.map_singleton,
        List.head?_cons, ← List.cons_append, List.getLast?_concat, hValues]

theorem repeatsAgree_iff : r.RepeatsAgree ↔ ∀ name, r.find? name = r.findLast? name := by
  refine ⟨RepeatsAgree.find?_eq, fun h => ?_⟩
  intro before first middle last behind hColumns hSame hBefore hBehind
  have hValues : valuesUnder last.1 r.columns =
      first.2 :: (valuesUnder last.1 middle ++ [last.2]) := by
    have hFirst : valuesUnder last.1 before = [] := by
      rw [valuesUnder_eq_nil_iff, ← caseBlind_hasName _ hSame, hBefore]
    rw [hColumns, valuesUnder_append, hFirst, valuesUnder_cons, if_pos hSame, valuesUnder_append,
      valuesUnder_cons, if_pos (sameName_refl _), valuesUnder_eq_nil_iff.mpr hBehind,
      List.nil_append]
  have hRead := h last.1
  rw [find?_eq_head?, findLast?, hValues, List.head?_cons, ← List.cons_append,
    List.getLast?_concat] at hRead
  exact Option.some.inj hRead

end Row

namespace Record

/-- A record has the names of its row, each as it is first spelled. -/
theorem names_ofRow (row : Row) :
    (ofRow row).values.names = firstSpellings (row.columns.map (·.1)) :=
  NameMap.names_foldl_alter (fun value _ => value) .empty row.columns

theorem foldl_some_eq_getLast? {α : Type} (as : List α) :
    as.foldl (fun _ a => some a) none = as.getLast? := by
  rcases as.eq_nil_or_concat with rfl | ⟨before, last, rfl⟩
  · rfl
  · simp

theorem get_ofRow (row : Row) (column : String) :
    (ofRow row).get column = (row.findLast? column).getD .null := by
  have hFound : (ofRow row).values.find? column =
      (valuesUnder column row.columns).foldl (fun _ value => some value) none :=
    NameMap.find?_foldl_alter (fun value _ => value) .empty row.columns column
  rw [get, hFound, foldl_some_eq_getLast?, Row.findLast?]

/-- **A record and its row.** The record has an entry for every name of the row, one for each and in
the order of their first occurrences, with the value of the last column of the name. So it reads
like the row if and only if the row holds the same value in the first and the last column of each
name. -/
theorem ofRow_reads_iff (row : Row) :
    (ofRow row).values.names = firstSpellings (row.columns.map (·.1)) ∧
      (∀ column, (ofRow row).get column = (row.findLast? column).getD .null) ∧
      ((∀ column, (ofRow row).get column = (row.find? column).getD .null) ↔ row.RepeatsAgree) := by
  refine ⟨names_ofRow row, get_ofRow row, ?_⟩
  have hBoth (column : String) : (row.findLast? column).getD .null = (row.find? column).getD .null ↔
      row.find? column = row.findLast? column := by
    rw [Row.find?_eq_head?, Row.findLast?]
    cases valuesUnder column row.columns with
    | nil => exact iff_of_true rfl rfl
    | cons value values => simp [List.getLast?_cons, eq_comm]
  simp only [get_ofRow, hBoth, Row.repeatsAgree_iff]

end Record

/-- A row of a join of two tables with keys of the same name. -/
def sampleJoined : Row := ⟨[("id", .integer 1), ("total", .integer 30), ("ID", .integer 2)]⟩

/-- The row gives the first key, and its record the second one. -/
theorem Record.not_reads_sampleJoined :
    ¬ ∀ column, (ofRow sampleJoined).get column = (sampleJoined.find? column).getD .null := by
  intro hReads
  have hLower : "id".toLower = "id" := by decide +kernel
  have hUpper : "ID".toLower = "id" := by decide +kernel
  have hOther : "total".toLower = "total" := by decide +kernel
  have hId := hReads "id"
  rw [get_ofRow, Row.findLast?, Row.find?_eq_head?] at hId
  simp [sampleJoined, valuesUnder, isUnder, sameName, hLower, hUpper, hOther] at hId

end SqlKit
