/-!
# Binary floating-point numbers

The numbers of the 64-bit binary format, as exact values: a sign and a natural significand times a
power of two. Nothing here computes in floating point. The format enters in two places: `nearest`
rounds an exact fraction to the nearest number of the format, ties to the even significand, and
`ofDecimal` reads a decimal numeral through it.
-/

namespace SqlKit

/-- A number of the 64-bit binary format. A finite one is `significand * 2 ^ scale` units, a unit
being `2 ^ -1074`, the least positive number of the format. -/
inductive Binary64 where
  | finite (negative : Bool) (significand scale : Nat)
  | infinite (negative : Bool)
  | notANumber
  deriving Repr, DecidableEq, Inhabited

namespace Binary64

/-- The number of units in one: `2 ^ 1074`. -/
def unitsPerOne : Nat := Nat.pow 2 1074

/-- Significands are below this bound. -/
def significandBound : Nat := Nat.pow 2 53

/-- The scale of the greatest finite numbers. -/
def maxScale : Nat := 2045

/-- Negation changes the sign, of zero and infinity too. -/
def neg : Binary64 → Binary64
  | finite negative significand scale => finite (!negative) significand scale
  | infinite negative => infinite (!negative)
  | notANumber => notANumber

@[simp] theorem neg_neg (x : Binary64) : x.neg.neg = x := by
  cases x <;> simp [neg]

/-- A quotient rounded to the nearest natural number, ties to the even one. -/
def roundHalfEven (num den : Nat) : Nat :=
  let below := num / den
  let rest := num % den
  if 2 * rest < den then below
  else if den < 2 * rest then below + 1
  else below + below % 2

/-- The scale at which a quotient of units has a significand of 53 binary digits, or zero when it
has fewer. -/
def scaleOf (units : Nat) : Nat := units.log2 - 52

/-- The number with a significand and a scale, which is infinite where the scale is too great. -/
def ofScale (negative : Bool) (significand scale : Nat) : Binary64 :=
  if maxScale < scale then infinite negative else finite negative significand scale

/-- The number of the format nearest to the fraction `num / den`. A significand that was rounded up
may have one binary digit too many. -/
def nearest (negative : Bool) (num den : Nat) : Binary64 :=
  let units := num * unitsPerOne
  let scale := scaleOf (units / den)
  let significand := roundHalfEven units (den * Nat.pow 2 scale)
  if significand = significandBound then ofScale negative (significandBound / 2) (scale + 1)
  else ofScale negative significand scale

/-- The count of decimal digits of a natural number. -/
def digitCount (n : Nat) : Nat := (Nat.toDigits 10 n).length

/-- The number nearest to `digits * 10 ^ exponent`. Beyond the decimal orders of magnitude that the
format reaches the answer needs no division. -/
def ofDecimal (negative : Bool) (digits : Nat) (exponent : Int) : Binary64 :=
  let magnitude := (digitCount digits : Int) + exponent
  if digits = 0 then finite negative 0 0
  else if 310 < magnitude then infinite negative
  else if magnitude < -330 then finite negative 0 0
  else nearest negative (digits * Nat.pow 10 exponent.toNat) (Nat.pow 10 (-exponent).toNat)

end Binary64

end SqlKit
