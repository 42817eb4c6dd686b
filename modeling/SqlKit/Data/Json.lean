/-!
# JSON text

JSON values with the members of an object in a chosen order, and two ways of writing them: compact,
and with one entry a line under an indent of two spaces. Strings keep every character except quotes,
backslashes and control characters. Numbers are integers.
-/

namespace SqlKit

/-- A JSON value. -/
inductive Json where
  | null
  | boolean (value : Bool)
  | integer (value : Int)
  | text (value : String)
  | array (items : List Json)
  | object (members : List (String × Json))
  deriving Repr, Inhabited

namespace Json

/-- A hexadecimal digit. -/
def hexDigit (n : Nat) : Char := Nat.digitChar (n % 16)

/-- A character as it stands in a JSON string. -/
def escape (c : Char) : List Char :=
  if c = '"' then ['\\', '"']
  else if c = '\\' then ['\\', '\\']
  else if c = '\n' then ['\\', 'n']
  else if c = '\r' then ['\\', 'r']
  else if c = '\t' then ['\\', 't']
  else if c.toNat = 8 then ['\\', 'b']
  else if c.toNat = 12 then ['\\', 'f']
  else if c.toNat < 32 then ['\\', 'u', '0', '0', hexDigit (c.toNat / 16), hexDigit c.toNat]
  else [c]

/-- A text as a JSON string. -/
def quote (s : String) : String :=
  "\"" ++ String.ofList (s.toList.flatMap escape) ++ "\""

/-- An optional text, with `null` for none. -/
def ofText? (s : Option String) : Json :=
  match s with
  | some s => text s
  | none => null

/-- An array of texts. -/
def texts (items : List String) : Json := array (items.map text)

/-- A natural number. -/
def ofNat (n : Nat) : Json := integer n

/-- Whether a value is written without line breaks: a plain one, or an empty array or object. -/
def isPlain : Json → Bool
  | array items => items.isEmpty
  | object members => members.isEmpty
  | _ => true

mutual

/-- Compact text. -/
def compact : Json → String
  | null => "null"
  | boolean value => if value then "true" else "false"
  | integer value => toString value
  | text value => quote value
  | array items => "[" ++ compactItems items ++ "]"
  | object members => "\x7b" ++ compactMembers members ++ "\x7d"

/-- The entries of an array with commas between them. -/
def compactItems : List Json → String
  | [] => ""
  | [item] => item.compact
  | item :: rest => item.compact ++ "," ++ compactItems rest

/-- The entries of an object with commas between them. -/
def compactMembers : List (String × Json) → String
  | [] => ""
  | [(name, value)] => quote name ++ ":" ++ value.compact
  | (name, value) :: rest =>
    quote name ++ ":" ++ value.compact ++ "," ++ compactMembers rest

end

/-- A line break and the indent of a level. -/
def newLine (level : Nat) : String := "\n" ++ String.ofList (List.replicate (2 * level) ' ')

mutual

/-- Text with one entry a line, as it stands at a level. Empty arrays and objects stay on one
line. -/
def prettyAt (level : Nat) : Json → String
  | array (item :: rest) => "[" ++ prettyItems (level + 1) (item :: rest) ++ newLine level ++ "]"
  | object (member :: rest) =>
    "\x7b" ++ prettyMembers (level + 1) (member :: rest) ++ newLine level ++ "\x7d"
  | array [] => "[]"
  | object [] => "\x7b\x7d"
  | null => "null"
  | boolean value => if value then "true" else "false"
  | integer value => toString value
  | text value => quote value

/-- The entries of an array, each on a new line. -/
def prettyItems (level : Nat) : List Json → String
  | [] => ""
  | [item] => newLine level ++ item.prettyAt level
  | item :: rest => newLine level ++ item.prettyAt level ++ "," ++ prettyItems level rest

/-- The entries of an object, each on a new line. -/
def prettyMembers (level : Nat) : List (String × Json) → String
  | [] => ""
  | [(name, value)] => newLine level ++ quote name ++ ": " ++ value.prettyAt level
  | (name, value) :: rest =>
    newLine level ++ quote name ++ ": " ++ value.prettyAt level ++ "," ++ prettyMembers level rest

end

/-- Text with one entry a line. -/
def pretty (j : Json) : String := j.prettyAt 0

end Json

end SqlKit
