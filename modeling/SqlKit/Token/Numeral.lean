import SqlKit.Token.Basic

/-!
# Numerals

An unsigned numeral is a run of digits, a fraction, and an exponent:
`D+ [. D+] [(e|E) [+|-] D+]`, or the same without the first run where a fraction follows.
`Numeral.ofChars` splits the longest numeral off a text that starts with one. A fraction or an
exponent without digits is no part of the numeral, so `1.e` is read as `1`.
-/

namespace SqlKit

/-- An exponent as it is written: its letter, its sign and its digits. -/
structure Exponent where
  letter : Char
  sign : Option Char
  digits : List Char
  deriving Repr, DecidableEq, Inhabited

/-- A numeral in its parts. -/
structure Numeral where
  whole : List Char
  fraction : Option (List Char)
  exponent : Option Exponent
  deriving Repr, DecidableEq, Inhabited

/-- The characters of an exponent. -/
def Exponent.chars (e : Exponent) : List Char := e.letter :: (e.sign.toList ++ e.digits)

/-- The power of ten that an exponent stands for. -/
def Exponent.value (e : Exponent) : Int :=
  let magnitude : Int := Nat.ofDigitChars 10 e.digits 0
  if e.sign = some '-' then -magnitude else magnitude

namespace Numeral

/-- The run of ASCII digits at the start of a text. -/
def digits (cs : List Char) : List Char := cs.takeWhile Char.isDigit

/-- Whether a text starts with an ASCII digit. -/
def startsWithDigit (cs : List Char) : Bool := cs.head?.any Char.isDigit

/-- The digits of a fraction at the start of a text: those after a point, if there are any. -/
def fraction? : List Char → Option (List Char)
  | '.' :: cs => if startsWithDigit cs then some (digits cs) else none
  | _ => none

/-- The exponent at the start of a text. -/
def exponent? : List Char → Option Exponent
  | [] => none
  | letter :: cs =>
    if letter = 'e' ∨ letter = 'E' then
      let sign := cs.head?.filter fun c => c = '+' || c = '-'
      let rest := cs.drop sign.toList.length
      if startsWithDigit rest then some ⟨letter, sign, digits rest⟩ else none
    else none

/-- The characters of a fraction with its point. -/
def fractionChars (fraction : Option (List Char)) : List Char :=
  match fraction with
  | none => []
  | some cs => '.' :: cs

/-- The characters of a numeral. -/
def chars (n : Numeral) : List Char :=
  n.whole ++ fractionChars n.fraction ++ (n.exponent.map Exponent.chars).getD []

/-- The longest numeral at the start of a text. -/
def ofChars (cs : List Char) : Numeral :=
  let whole := digits cs
  let afterWhole := cs.drop whole.length
  let fraction := fraction? afterWhole
  ⟨whole, fraction, exponent? (afterWhole.drop (fractionChars fraction).length)⟩

/-- The greatest integer literal. -/
def maxInteger : Nat := Nat.pow 2 63 - 1

/-- The value of a numeral as a binary number. -/
def toBinary64 (n : Numeral) : Binary64 :=
  let fraction := n.fraction.getD []
  .ofDecimal false (Nat.ofDigitChars 10 (n.whole ++ fraction) 0)
    ((n.exponent.map Exponent.value).getD 0 - fraction.length)

/-- The token of a numeral: an integer when it has digits only and fits into 64 bits with a sign,
and otherwise a binary number. -/
def kind (n : Numeral) : TokenKind :=
  let value := Nat.ofDigitChars 10 n.whole 0
  if n.fraction.isNone && n.exponent.isNone && value ≤ maxInteger then
    .integer (Int64.ofNat value)
  else .float n.toBinary64

/-- Whether a numeral starts with these characters: a digit, or a point before a digit. -/
def startsAt : List Char → Bool
  | [] => false
  | c :: cs => c.isDigit || (c = '.' && startsWithDigit cs)

end Numeral

end SqlKit
