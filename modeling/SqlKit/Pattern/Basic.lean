import SqlKit.Text.Class
import SqlKit.Text.Recent
import SqlKit.Text.WordMark

/-!
# Text patterns

Regular expressions over characters, with anchors at the two ends of a text. Whether a pattern
occurs in a text is decided by following the set of all places where a match may have arrived
(`Pattern.reach`), so the answer does not depend on an order of attempts, and a part that matches
nothing can be repeated without end.
-/

namespace SqlKit

open Text

/-! ## Sets of characters -/

/-- A family of characters that patterns have a name for. -/
inductive CharFamily where
  | digit | word | blank | lineBreak
  deriving Repr, DecidableEq, Inhabited

namespace CharFamily

/-- The characters of a family, recent ones included. A word is made of letters, digits, marks and
connectors. -/
def ranges : CharFamily → List CodeRange
  | digit => (0x30, 0x39) :: decimalDigitRanges
  | word =>
    [(0x30, 0x39), (0x41, 0x5A), (0x5F, 0x5F), (0x61, 0x7A)] ++
      (alphabeticRanges ++ (decimalDigitRanges ++ wordMarkRanges))
  | blank => [(0x9, 0xD), (0x20, 0x20)] ++ blankRanges
  | lineBreak => [(0xA, 0xA)]

/-- Whether a family has a character. No family has recent characters. -/
def contains (f : CharFamily) (c : Char) : Bool :=
  inRanges f.ranges c && !inRanges recentRanges c

end CharFamily

/-- A part of a set of characters: all from one to another, or a family, or all outside a family. -/
inductive CharPart where
  | range (low high : Char)
  | family (negated : Bool) (family : CharFamily)
  deriving Repr, DecidableEq, Inhabited

namespace CharPart

/-- A single character. -/
def single (c : Char) : CharPart := range c c

/-- Whether a part has a character. -/
def contains (part : CharPart) (c : Char) : Bool :=
  match part with
  | range low high => low.toNat ≤ c.toNat && c.toNat ≤ high.toNat
  | family negated f => f.contains c != negated

end CharPart

/-- The characters in any of some parts, or those in none of them. -/
structure CharSet where
  negated : Bool
  parts : List CharPart
  deriving Repr, DecidableEq, Inhabited

/-- Whether a set has a character. -/
def CharSet.contains (s : CharSet) (c : Char) : Bool := s.parts.any (·.contains c) != s.negated

/-! ## Patterns -/

/-- A pattern: the empty one, a character of a part or of a set, an end of the text, a group, parts
in a row, alternatives, and a repetition, which is between `least` and `most` times or without end.
A row of several parts is `sequence first (sequence second …)`, and several alternatives are
`either (either … second) last`. That a group keeps what it matches, or that a repetition is lazy,
does not change which texts match. -/
inductive Pattern where
  | empty
  | one (part : CharPart)
  | oneOf (set : CharSet)
  | atStart
  | atEnd
  | group (keeps : Bool) (body : Pattern)
  | sequence (first rest : Pattern)
  | either (earlier last : Pattern)
  | repetition (body : Pattern) (least : Nat) (most : Option Nat) (lazy : Bool)
  deriving Repr, Inhabited

/-! ## Places -/

/-- Places in a text, each given by the number of characters before it, the last place first. -/
abbrev Places := List Nat

namespace Places

/-- All places in a text of some length. -/
def all (length : Nat) : Places := (List.range (length + 1)).reverse

/-- Whether a place is among some places. -/
def has (i : Nat) : Places → Bool
  | [] => false
  | j :: rest => if i < j then has i rest else i == j

/-- Some places and one more. -/
def insert (i : Nat) : Places → Places
  | [] => [i]
  | j :: rest => if i < j then j :: insert i rest else if i = j then j :: rest else i :: j :: rest

/-- The places that are among the first or among the second. -/
def union (a b : Places) : Places := a.foldr insert b

/-- The places reached by exactly so many steps. Once a step leads nowhere else, so do all further
ones. -/
def afterSteps (step : Places → Places) : Nat → Places → Places
  | 0, places => places
  | n + 1, places =>
    let next := step places
    if next = places then places else afterSteps step n next

/-- The places seen and those reached by at most so many steps from the newest of them. -/
def withinSteps (step : Places → Places) : Nat → Places → Places → Places
  | 0, seen, _ => seen
  | n + 1, seen, newest =>
    let new := (step newest).filter fun i => !has i seen
    if new.isEmpty then seen else withinSteps step n (union new seen) new

end Places

/-- The place behind the character at a place, if there is one and it is suitable. -/
def behindOne (text : Array Char) (isSuitable : Char → Bool) (i : Nat) : Option Nat :=
  match text[i]? with
  | some c => if isSuitable c then some (i + 1) else none
  | none => none

namespace Pattern

/-- The places where matches can end that start at one of some places. A repetition without end
needs no more rounds than there are characters, as every round that counts reaches a new place. -/
def reach (text : Array Char) : Pattern → Places → Places
  | empty, places => places
  | one part, places => places.filterMap (behindOne text part.contains)
  | oneOf set, places => places.filterMap (behindOne text set.contains)
  | atStart, places => places.filter (· == 0)
  | atEnd, places => places.filter (· == text.size)
  | group _ body, places => body.reach text places
  | sequence first rest, places => rest.reach text (first.reach text places)
  | either earlier last, places => .union (earlier.reach text places) (last.reach text places)
  | repetition body least most _, places =>
    let start := Places.afterSteps (body.reach text) least places
    let rounds := match most with
      | some most => min (most - least) text.size
      | none => text.size
    Places.withinSteps (body.reach text) rounds start start

/-- Whether a pattern matches a part of a text. -/
def occursIn (pattern : Pattern) (text : String) : Bool :=
  let text := text.toList.toArray
  !(pattern.reach text (.all text.size)).isEmpty

end Pattern

end SqlKit
