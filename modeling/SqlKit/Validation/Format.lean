import SqlKit.Pattern.Reader
import SqlKit.Validation.LengthRange

/-!
# Formats

Demands on a text: bounds on its length, and a regular expression for the whole of it.

What a regular expression is and where it matches is not said here. A format is made with any
`Engine`, which turns the text of an expression into a test whether it matches a part of a text.
That it is to match the whole is a matter of the expression that the engine is given
(`Format.anchored`). The engine of the program is `Pattern.engine`.
-/

namespace SqlKit

/-- Regular expressions: the test that a text stands for, unless it is no expression. -/
abbrev Engine := String → Option (String → Bool)

/-- The engine of patterns. -/
def Pattern.engine : Engine := fun text => (Pattern.read text).map Pattern.occursIn

/-- Why a validator cannot be made. -/
inductive ConfigurationError where
  | invalidPattern
  | invalidLengthRange (error : InvalidLengthRange)
  deriving Repr, DecidableEq, Inhabited

/-- Demands on a text: its length, and a test for it. Any failure is reported by the message, if
there is one. -/
structure Format where
  length : Option LengthRange
  test : Option (String → Bool)
  message : Option String

namespace Format

/-- The expression for texts that an expression matches as a whole. It is completed as a text, so a
parenthesis too many in it closes the group around it. -/
def anchored (expression : String) : String := "^(?:" ++ expression ++ ")$"

/-- The range between bounds, if there are any. -/
def rangeOf : Option (Int × Int) → Except ConfigurationError (Option LengthRange)
  | none => .ok none
  | some (least, most) =>
    match LengthRange.ofBounds least most with
    | .ok range => .ok (some range)
    | .error e => .error (.invalidLengthRange e)

/-- The test for the whole of a text that an expression stands for, if there is one. -/
def testOf (engine : Engine) : Option String → Except ConfigurationError (Option (String → Bool))
  | none => .ok none
  | some expression =>
    match engine (anchored expression) with
    | some test => .ok (some test)
    | none => .error .invalidPattern

/-- The format with these bounds on the length and this expression, which are looked at in this
order. -/
def ofPartsBy (engine : Engine) (bounds : Option (Int × Int)) (expression : Option String)
    (message : Option String) : Except ConfigurationError Format := do
  let length ← rangeOf bounds
  let test ← testOf engine expression
  return ⟨length, test, message⟩

/-- The format with these bounds on the length and this pattern. -/
def ofParts (bounds : Option (Int × Int)) (pattern : Option String) (message : Option String) :
    Except ConfigurationError Format :=
  ofPartsBy Pattern.engine bounds pattern message

/-- The first demand that a text does not meet, in words. -/
def complaint? (f : Format) (text : String) : Option String :=
  match f.length.filter (!·.contains text.length) with
  | some range => some (f.message.getD range.advice)
  | none =>
    if f.test.all (· text) then none else some (f.message.getD "Enter a valid value.")

end Format

end SqlKit
