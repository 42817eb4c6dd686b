import SqlKit.Text.Alphabetic
import SqlKit.Text.Numeric

/-!
# Character classes

The classes that identifiers and blanks are made of. Each is decided on ASCII directly and beyond
ASCII by the table of its property.
-/

namespace SqlKit.Text

/-- Whether a character is ASCII. -/
def isAscii (c : Char) : Bool := c.toNat < 128

/-- Alphabetic characters of all scripts. -/
def isAlphabetic (c : Char) : Bool :=
  if isAscii c then c.isAlpha else inRanges alphabeticRanges c

/-- Decimal digits of all scripts. -/
def isDecimalDigit (c : Char) : Bool :=
  if isAscii c then c.isDigit else inRanges decimalDigitRanges c

/-- Characters that stand for a number, alone or as a digit. -/
def isNumeric (c : Char) : Bool :=
  isDecimalDigit c || (!isAscii c && inRanges otherNumberRanges c)

/-- Alphabetic and numeric characters. -/
def isAlphanumeric (c : Char) : Bool := isAlphabetic c || isNumeric c

/-- White space beyond ASCII. -/
def blankRanges : List CodeRange := [
  (0x85, 0x85), (0xA0, 0xA0), (0x1680, 0x1680), (0x2000, 0x200A), (0x2028, 0x2029),
  (0x202F, 0x202F), (0x205F, 0x205F), (0x3000, 0x3000)]

/-- White space: the blank, the five controls from tab to carriage return, and the spaces and
separators of `blankRanges`. -/
def isBlank (c : Char) : Bool :=
  c = ' ' || (9 ≤ c.toNat && c.toNat ≤ 13) || inRanges blankRanges c

/-- What the standard library takes for white space is white space here too. -/
theorem isBlank_of_isWhitespace {c : Char} (h : c.isWhitespace = true) : isBlank c = true := by
  simp only [Char.isWhitespace, Bool.or_eq_true, decide_eq_true_eq] at h
  rcases h with ((h | h) | h) | h <;> subst h <;> decide

end SqlKit.Text
