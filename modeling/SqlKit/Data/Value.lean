import SqlKit.Data.Json
import SqlKit.Number.Shortest
import SqlKit.Token.Quoted

/-!
# Values

The values that are bound to the placeholders of a query and that its rows hold.
-/

namespace SqlKit

/-- A value. -/
inductive Value where
  | null
  | boolean (value : Bool)
  | integer (value : Int64)
  | float (value : Binary64)
  | text (value : String)
  | blob (bytes : List UInt8)
  deriving Repr, DecidableEq, Inhabited

namespace Value

/-- Whether the value is missing. -/
def isNull (v : Value) : Bool := v == null

/-- The text of a text. -/
def text? : Value → Option String
  | text value => some value
  | _ => none

/-- The number of an integer. -/
def integer? : Value → Option Int64
  | integer value => some value
  | _ => none

/-- A byte as two hexadecimal digits. -/
def hexByte (b : UInt8) : List Char :=
  [b.toNat / 16, b.toNat].map fun n => (Json.hexDigit n).toUpper

/-- The value as an SQL literal. -/
def sql : Value → String
  | null => "NULL"
  | boolean value => if value then "TRUE" else "FALSE"
  | integer value => toString value.toInt
  | float value => value.text
  | text value => stringLiteral value
  | blob bytes => "X'" ++ String.ofList (bytes.flatMap hexByte) ++ "'"

/-- The value as someone would type it, which missing values and blobs have no way of. -/
def plainText? : Value → Option String
  | null | blob _ => none
  | boolean value => some (if value then "true" else "false")
  | integer value => some (toString value.toInt)
  | float value => some value.text
  | text value => some value

/-- The value in JSON: a blob as its bytes. Floating-point numbers are not covered. -/
def json? : Value → Option Json
  | null => some .null
  | boolean value => some (.boolean value)
  | integer value => some (.integer value.toInt)
  | float _ => none
  | text value => some (.text value)
  | blob bytes => some (.array (bytes.map fun b => .ofNat b.toNat))

end Value

end SqlKit
