import SqlKit.Data.Json
import SqlKit.Text.NameMap

/-!
# Failures

What a validation found wrong: messages under the columns they are about, columns in the order of
their first message.
-/

namespace SqlKit

open Text

/-- Messages by column. -/
structure Failures where
  messages : NameMap (List String)
  deriving DecidableEq, Inhabited

namespace Failures

/-- Nothing is wrong. -/
def empty : Failures := ⟨.empty⟩

/-- The messages of a column, if it has any. -/
def get? (f : Failures) (column : String) : Option (List String) := f.messages.find? column

/-- The failures with more messages for a column. -/
def append (f : Failures) (column : String) (messages : List String) : Failures :=
  ⟨f.messages.alter column fun earlier => earlier.getD [] ++ messages⟩

/-- The failures with one more message for a column. -/
def add (f : Failures) (column message : String) : Failures := f.append column [message]

/-- Two sets of failures together. -/
def extend (f g : Failures) : Failures :=
  g.messages.entries.foldl (fun f entry => f.append entry.1 entry.2) f

/-- The failures that arise when messages are added one after another. -/
def ofPairs (pairs : List (String × String)) : Failures :=
  pairs.foldl (fun f pair => f.add pair.1 pair.2) empty

/-- Whether nothing is wrong. -/
def isEmpty (f : Failures) : Bool := f.messages.entries.isEmpty

/-- The columns that failed. -/
def columns (f : Failures) : List String := f.messages.names

/-- Every message with its column. -/
def pairs (f : Failures) : List (String × String) :=
  f.messages.entries.flatMap fun entry => entry.2.map fun message => (entry.1, message)

/-- The failures in words, one to a line. -/
def lines (f : Failures) : String :=
  String.join (f.pairs.map fun pair => pair.1 ++ ": " ++ pair.2 ++ "\n")

/-- The failures as a JSON object, with its columns in order. -/
def json (f : Failures) : Json :=
  .object (f.messages.entries.map fun entry => (entry.1, .texts entry.2))

@[simp] theorem get?_empty (column : String) : empty.get? column = none := rfl

/-- Messages are found under every spelling of their column, behind those that were there. -/
theorem get?_append (f : Failures) (column other : String) (messages : List String) :
    (f.append column messages).get? other =
      if sameName column other then some ((f.get? column).getD [] ++ messages)
      else f.get? other :=
  f.messages.find?_alter column other _

end Failures

end SqlKit
