/-!
# Length ranges

Bounds on the number of characters of a text, both inclusive. Bounds come in as integers, where `-1`
leaves the upper end open.
-/

namespace SqlKit

/-- Bounds on a length, without an upper one if `most` is missing. -/
structure LengthRange where
  least : Nat
  most : Option Nat
  deriving Repr, DecidableEq, Inhabited

/-- Bounds that no range has. -/
structure InvalidLengthRange where
  least : Int
  most : Int
  deriving Repr, DecidableEq, Inhabited

/-- The bounds in words. -/
def InvalidLengthRange.message (e : InvalidLengthRange) : String :=
  s!"invalid length range [{e.least}, {e.most}]"

namespace LengthRange

/-- The range between two bounds. Neither may be negative, except for the `-1` of an open end, and
the upper one may not be below the lower one. -/
def ofBounds (least most : Int) : Except InvalidLengthRange LengthRange :=
  if least < 0 then .error ⟨least, most⟩
  else if most = -1 then .ok ⟨least.toNat, none⟩
  else if most < least then .error ⟨least, most⟩
  else .ok ⟨least.toNat, some most.toNat⟩

/-- Whether a length lies in the range. -/
def contains (r : LengthRange) (length : Nat) : Bool :=
  r.least ≤ length && r.most.all (length ≤ ·)

/-- What a text of another length is told. -/
def advice (r : LengthRange) : String :=
  match r.most with
  | none => s!"Ensure this value has at least {r.least} characters."
  | some most =>
    if most = r.least then s!"Ensure this value has exactly {most} characters."
    else s!"Ensure this value has between {r.least} and {most} characters."

/-- Valid bounds contain just the lengths between them. -/
theorem contains_of_ofBounds {least most : Int} {r : LengthRange}
    (h : ofBounds least most = .ok r) (length : Nat) :
    r.contains length = true ↔ least ≤ length ∧ (most = -1 ∨ length ≤ most) := by
  unfold ofBounds at h
  split at h
  · cases h
  split at h
  · cases h
    simp only [contains, Option.all_none, Bool.and_true, decide_eq_true_eq]
    omega
  split at h
  · cases h
  · cases h
    simp only [contains, Option.all_some, Bool.and_eq_true, decide_eq_true_eq]
    omega

end LengthRange

end SqlKit
