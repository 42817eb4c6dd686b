import SqlKit.Text.Hidden

/-!
# Quoting for display

Names and messages are shown between double quotes, with backslashes before what would otherwise be
taken for the end of the text or would not be seen.
-/

namespace SqlKit.Text

/-- Whether a character is shown by its code point. -/
def isHidden (c : Char) : Bool := c.toNat < 32 || c.toNat = 127 || inRanges hiddenRanges c

/-- A character as it is shown between quotes. -/
def shownChar (c : Char) : List Char :=
  if c = '"' then ['\\', '"']
  else if c = '\\' then ['\\', '\\']
  else if c = '\n' then ['\\', 'n']
  else if c = '\r' then ['\\', 'r']
  else if c = '\t' then ['\\', 't']
  else if c.toNat = 0 then ['\\', '0']
  else if isHidden c then ['\\', 'u', '\x7b'] ++ Nat.toDigits 16 c.toNat ++ ['\x7d']
  else [c]

/-- A text between quotes. -/
def quoted (s : String) : String := "\"" ++ String.ofList (s.toList.flatMap shownChar) ++ "\""

end SqlKit.Text
