import SqlKit.Number.Binary64

/-!
# Shortest decimal text

A finite binary number is written with the fewest decimal digits that read back as the same number.
`Binary64.shortest` looks for them on the grids of multiples of powers of ten, the coarsest first:
the first grid that has a point in the interval of values rounding to the number gives the digits,
and of two such points the nearer one is taken, the upper one when both are equally near.

`Binary64.text` writes those digits positionally, never with an exponent, and with a point only
where a fraction follows it.
-/

namespace SqlKit

/-- The decimal fraction `digits * 10 ^ exponent`. -/
structure Decimal where
  digits : Nat
  exponent : Int
  deriving Repr, DecidableEq, Inhabited

namespace Binary64

/-- Four times the distance, in units of the last binary place, from a significand down to the
boundary below it. The gap below a power of two is half as wide as the one above. -/
def quartersBelow (significand scale : Nat) : Nat :=
  if significand = significandBound / 2 ∧ 0 < scale then 1 else 2

/-- Whether the exact value `point`, counted in quarters of units times `grain`, rounds to the
number. The ends of the interval do so exactly when the significand is even. -/
def roundsTo (significand scale grain point : Nat) : Bool :=
  let low := (4 * significand - quartersBelow significand scale) * Nat.pow 2 scale * grain
  let high := (4 * significand + 2) * Nat.pow 2 scale * grain
  if significand % 2 = 0 then low ≤ point && point ≤ high else low < point && point < high

/-- The point of the grid of multiples of `10 ^ exponent` that lies nearest to the number, if a
neighbour of the number on that grid rounds to it. -/
def onGrid (significand scale : Nat) (exponent : Int) : Option Decimal :=
  let grain := Nat.pow 10 (-exponent).toNat
  let step := 4 * unitsPerOne * Nat.pow 10 exponent.toNat
  let value := 4 * significand * Nat.pow 2 scale * grain
  let below := value / step
  let lower := roundsTo significand scale grain (below * step)
  let upper := roundsTo significand scale grain ((below + 1) * step)
  if lower && (!upper || 2 * (value % step) < step) then some ⟨below, exponent⟩
  else if upper then some ⟨below + 1, exponent⟩
  else none

/-- The fewest decimal digits that round to a positive number. Every number of the format is a
multiple of `10 ^ -1074`, so the search ends with a hit. -/
def shortest (significand scale : Nat) : Decimal :=
  ((List.range 1384).findSome? fun (i : Nat) => onGrid significand scale (309 - (i : Int))).getD
    ⟨0, 0⟩

end Binary64

/-- Positional notation: the digits with as many zeros as the exponent asks for, or a point before
the last `-exponent` of them. -/
def Decimal.positional (d : Decimal) : String :=
  let places := (-d.exponent).toNat
  if places = 0 then toString (d.digits * Nat.pow 10 d.exponent.toNat)
  else
    let fraction := Nat.toDigits 10 (d.digits % Nat.pow 10 places)
    toString (d.digits / Nat.pow 10 places) ++ "." ++
      String.ofList (List.replicate (places - fraction.length) '0' ++ fraction)

/-- The text of a number: shortest digits in positional notation, `-0` for negative zero, and words
for what is not finite. -/
def Binary64.text : Binary64 → String
  | .finite negative significand scale =>
    (if negative then "-" else "") ++
      (if significand = 0 then "0" else (shortest significand scale).positional)
  | .infinite negative => if negative then "-inf" else "inf"
  | .notANumber => "NaN"

end SqlKit
