import SqlKit.Data.Value
import SqlKit.Text.NameMap

/-!
# Rows and records

A row is what a query gives back: values under column names in the order of the query, where several
may have one name. A record holds at most one value for each name, and reads as missing what it does
not hold (`Record.get_set`).
-/

namespace SqlKit

open Text

/-! ## Rows -/

/-- A row of a result. -/
structure Row where
  columns : List (String × Value)
  deriving Repr, DecidableEq, Inhabited

namespace Row

/-- The value of the first column of a name. -/
def find? (r : Row) (name : String) : Option Value :=
  (r.columns.find? (isUnder name)).map (·.2)

/-- The value at a place, counted from zero. -/
def at? (r : Row) (index : Nat) : Option Value := (r.columns[index]?).map (·.2)

end Row

/-! ## Records -/

/-- Values of the columns of one row. -/
structure Record where
  values : NameMap Value
  deriving DecidableEq, Inhabited

namespace Record

/-- No values. -/
def empty : Record := ⟨.empty⟩

/-- The value of a column, null if the record has none. -/
def get (r : Record) (column : String) : Value := (r.values.find? column).getD .null

/-- The record with this value for a column. -/
def set (r : Record) (column : String) (value : Value) : Record := ⟨r.values.set column value⟩

/-- The record that arises when values are set one after another. -/
def ofValues (values : List (String × Value)) : Record := ⟨.ofEntries values⟩

/-- The record of a row. Of several columns with one name the last one counts. -/
def ofRow (row : Row) : Record := ofValues row.columns

@[simp] theorem get_empty (column : String) : empty.get column = .null := rfl

/-- A column reads as what it was set to, under every spelling, and the others remain. -/
theorem get_set (r : Record) (column other : String) (value : Value) :
    (r.set column value).get other = if sameName column other then value else r.get other := by
  unfold set get
  rw [NameMap.find?_set]
  split <;> rfl

end Record

end SqlKit
