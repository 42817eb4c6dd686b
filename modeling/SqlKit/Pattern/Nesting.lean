import SqlKit.Pattern.Basic

/-!
# Nesting of patterns

How deep the operators of a pattern stand within each other. A character and an end of the text have
no depth. A group and a repetition are one deeper than what they hold, and so are parts in a row and
alternatives, however many they are. A set counts once, and once more if it has several parts.
-/

namespace SqlKit

/-- The depth of a set. -/
def CharSet.nesting (s : CharSet) : Nat := if s.parts.length ≤ 1 then 1 else 2

namespace Pattern

/-- Whether a pattern is a row of several parts. -/
def isSequence : Pattern → Bool
  | sequence _ _ => true
  | _ => false

/-- Whether a pattern is a choice between several alternatives. -/
def isEither : Pattern → Bool
  | either _ _ => true
  | _ => false

/-- The depth of a pattern. A row is continued by its last part and a choice by its first one, which
adds no depth to that part. -/
def nesting : Pattern → Nat
  | empty | one _ | atStart | atEnd => 0
  | oneOf set => set.nesting
  | group _ body | repetition body _ _ _ => body.nesting + 1
  | sequence first rest =>
    max (first.nesting + 1) (if rest.isSequence then rest.nesting else rest.nesting + 1)
  | either earlier last =>
    max (if earlier.isEither then earlier.nesting else earlier.nesting + 1) (last.nesting + 1)

/-- The greatest depth of a pattern that is accepted. -/
def maxNesting : Nat := 250

end Pattern

end SqlKit
