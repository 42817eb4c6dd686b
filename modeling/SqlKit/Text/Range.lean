/-!
# Ranges of code points

A character class beyond ASCII is a list of closed ranges of code points, in increasing order. Sets
of characters are added and complemented range by range.
-/

namespace SqlKit.Text

/-- A closed range of code points, first and last. -/
abbrev CodeRange := Nat × Nat

/-- Whether a character lies in one of the ranges. -/
def inRanges (ranges : List CodeRange) (c : Char) : Bool :=
  ranges.any fun range => range.1 ≤ c.toNat && c.toNat ≤ range.2

theorem inRanges_iff {ranges : List CodeRange} {c : Char} :
    inRanges ranges c = true ↔ ∃ r ∈ ranges, r.1 ≤ c.toNat ∧ c.toNat ≤ r.2 := by
  simp [inRanges]

@[simp] theorem inRanges_nil (c : Char) : inRanges [] c = false := rfl

/-- Ranges in increasing order, with gaps between them, and one more range, which takes in all that
it meets. -/
def addRange (low high : Nat) : List CodeRange → List CodeRange
  | [] => [(low, high)]
  | (a, b) :: rest =>
    if high + 1 < a then (low, high) :: (a, b) :: rest
    else if b + 1 < low then (a, b) :: addRange low high rest
    else addRange (min low a) (max high b) rest

/-- The fewest ranges that cover the same code points, in increasing order. -/
def joinedRanges (ranges : List CodeRange) : List CodeRange :=
  ranges.foldr (fun r joined => addRange r.1 r.2 joined) []

/-- The greatest code point. -/
def lastCode : Nat := 0x10FFFF

/-- What joined ranges leave out, from a code point upward. -/
def gapsFrom (start : Nat) : List CodeRange → List CodeRange
  | [] => if start ≤ lastCode then [(start, lastCode)] else []
  | (a, b) :: rest =>
    if start < a then (start, a - 1) :: gapsFrom (b + 1) rest else gapsFrom (b + 1) rest

/-- All code points outside some ranges. -/
def otherRanges (ranges : List CodeRange) : List CodeRange := gapsFrom 0 (joinedRanges ranges)

/-- The code points of some ranges that are in none of some others. -/
def rangesWithout (ranges excluded : List CodeRange) : List CodeRange :=
  otherRanges (otherRanges ranges ++ excluded)

end SqlKit.Text
