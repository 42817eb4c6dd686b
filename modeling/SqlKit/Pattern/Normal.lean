import SqlKit.Pattern.Basic

/-!
# Normal forms of patterns

A pattern as it is before an automaton is made for it (`Pattern.normal`). A normal form matches what
the pattern matches, and is simpler:

* groups that keep nothing are dissolved, and so are rows within rows and choices within choices;
* a row has no empty parts, and neighbouring characters in it are one text;
* a choice between single characters, or between sets, is one set, and a set of one character is
  that character;
* a choice between rows that begin alike has the common beginning in front of it;
* what takes no character is repeated once at most, and no repetition is exactly once or never.
-/

namespace SqlKit

open Text

/-! ## Ranges -/

namespace CharPart

/-- The characters of a part. -/
def ranges : CharPart → List CodeRange
  | range low high => [(low.toNat, high.toNat)]
  | family false f => rangesWithout f.ranges recentRanges
  | family true f => otherRanges (rangesWithout f.ranges recentRanges)

end CharPart

/-- The characters of a set. -/
def CharSet.ranges (s : CharSet) : List CodeRange :=
  let ranges := s.parts.flatMap (·.ranges)
  if s.negated then otherRanges ranges else joinedRanges ranges

/-! ## Normal forms -/

/-- A normal form. A text is given by its code points, a set by its ranges. -/
inductive Normal where
  | empty
  | text (codes : List Nat)
  | set (ranges : List CodeRange)
  | edge (atEnd : Bool)
  | kept (body : Normal)
  | row (items : List Normal)
  | choice (branches : List Normal)
  | repetition (body : Normal) (least : Nat) (most : Option Nat) (lazy : Bool)
  deriving Repr, Inhabited

namespace Normal

mutual

/-- Whether two normal forms are the same. What is kept is never the same, as it is kept apart. -/
def same : Normal → Normal → Bool
  | empty, empty => true
  | text a, text b => a == b
  | set a, set b => a == b
  | edge a, edge b => a == b
  | row a, row b => sameAll a b
  | choice a, choice b => sameAll a b
  | repetition a least most lazy, repetition b least' most' lazy' =>
    least == least' && most == most' && lazy == lazy' && same a b
  | _, _ => false

/-- Whether two lists of normal forms are the same. -/
def sameAll : List Normal → List Normal → Bool
  | [], [] => true
  | a :: as, b :: bs => same a b && sameAll as bs
  | _, _ => false

end

mutual

/-- Whether no match takes a character. -/
def takesNone : Normal → Bool
  | empty | edge _ => true
  | text _ | set _ => false
  | kept body | repetition body _ _ _ => body.takesNone
  | row items | choice items => allTakeNone items

/-- Whether no match of some parts takes a character. -/
def allTakeNone : List Normal → Bool
  | [] => true
  | n :: rest => n.takesNone && allTakeNone rest

end

mutual

/-- The fewest characters that a match takes, unless there is a set without characters. -/
def fewest : Normal → Option Nat
  | empty | edge _ => some 0
  | text codes => some codes.length
  | set ranges => if ranges.isEmpty then none else some 1
  | kept body => body.fewest
  | row items => fewestInRow items
  | choice branches => fewestInChoice branches
  | repetition body least _ _ => body.fewest.map (least * ·)

/-- The fewest characters that parts in a row take. -/
def fewestInRow : List Normal → Option Nat
  | [] => some 0
  | n :: rest => do return (← n.fewest) + (← fewestInRow rest)

/-- The fewest characters that one of several alternatives takes. -/
def fewestInChoice : List Normal → Option Nat
  | [] => none
  | [n] => n.fewest
  | n :: rest => do return min (← n.fewest) (← fewestInChoice rest)

end

/-- Whether each match takes a character. -/
def takesSome (n : Normal) : Bool := n.fewest.any (0 < ·)

mutual

/-- Whether each match begins at the start of the text, or ends at its end, as far as the edges at
that side of the pattern show it. -/
def touches (atEnd : Bool) : Normal → Bool
  | edge e => e == atEnd
  | kept body => body.touches atEnd
  | repetition body least _ _ => least != 0 && body.touches atEnd
  | choice branches => allTouch atEnd branches
  | row items => if atEnd then lastTouches items else firstTouches items
  | empty | text _ | set _ => false

/-- Whether each of some alternatives touches. -/
def allTouch (atEnd : Bool) : List Normal → Bool
  | [] => true
  | n :: rest => n.touches atEnd && allTouch atEnd rest

/-- Whether a row begins at the start of the text. -/
def firstTouches : List Normal → Bool
  | [] => false
  | n :: rest => n.touches false || (n.takesNone && firstTouches rest)

/-- Whether a row ends at the end of the text. -/
def lastTouches : List Normal → Bool
  | [] => false
  | n :: rest => lastTouches rest || (allTakeNone rest && n.touches true)

end

/-! ## Making normal forms -/

/-- One character of joined ranges. -/
def ofRanges : List CodeRange → Normal
  | [(a, b)] => if a = b then text [a] else set [(a, b)]
  | ranges => set ranges

/-- The parts that stand in a row. -/
def items : Normal → List Normal
  | empty => []
  | row items => items
  | n => [n]

/-- Parts in a row. -/
def ofItems : List Normal → Normal
  | [] => empty
  | [n] => n
  | items => row items

/-- Two rows one behind the other. A text at the end of the first and one at the start of the second
are one text. -/
def joinItems : List Normal → List Normal → List Normal
  | [], later => later
  | [text a], text b :: later => text (a ++ b) :: later
  | n :: rest, later => n :: joinItems rest later

/-- A part with another behind it. -/
def followedBy (a b : Normal) : Normal := ofItems (joinItems a.items b.items)

/-- The alternatives of a choice. -/
def branches : Normal → List Normal
  | choice branches => branches
  | n => [n]

/-- The code of a text that is a single character. -/
def code? : Normal → Option Nat
  | text [code] => some code
  | _ => none

/-- The ranges of a set. -/
def set? : Normal → Option (List CodeRange)
  | set ranges => some ranges
  | _ => none

/-- The parts of a row of several. -/
def row? : Normal → Option (List Normal)
  | row items => some items
  | _ => none

/-- Alternatives that are one character each, as a set. -/
def merged? (branches : List Normal) : Option Normal :=
  match branches.mapM code? with
  | some codes => some (ofRanges (joinedRanges (codes.map fun code => (code, code))))
  | none => (branches.mapM set?).map fun sets => ofRanges (joinedRanges sets.flatten)

/-- A choice between alternatives without regard to how they begin. -/
def plainChoice (alternatives : List Normal) : Normal :=
  match alternatives.flatMap branches with
  | [n] => n
  | flat => (merged? flat).getD (choice flat)

/-- The number of parts that two rows have in common at their beginning. -/
def commonLength : List Normal → List Normal → Nat
  | a :: as, b :: bs => if same a b then commonLength as bs + 1 else 0
  | _, _ => 0

/-- The common beginning of rows, and the rests of them, if they have a beginning in common. -/
def commonBeginning? (rows : List (List Normal)) : Option (List Normal × List (List Normal)) :=
  match rows with
  | [] => none
  | first :: others =>
    let n := others.foldl (fun n row => min n (commonLength first row)) first.length
    if n = 0 then none else some (first.take n, rows.map (·.drop n))

/-- A choice between alternatives. -/
def ofAlternatives (alternatives : List Normal) : Normal :=
  match plainChoice alternatives with
  | choice flat =>
    match (flat.mapM row?).bind commonBeginning? with
    | some (beginning, rests) =>
      (ofItems beginning).followedBy (plainChoice (rests.map ofItems))
    | none => choice flat
  | n => n

/-- A part repeated. -/
def repeated (n : Normal) (least : Nat) (most : Option Nat) (lazy : Bool) : Normal :=
  let least := if n.takesNone then min least 1 else least
  let most := if n.takesNone then some (min (most.getD 1) 1) else most
  if most = some 0 then empty
  else if least = 1 ∧ most = some 1 then n
  else repetition n least most lazy

end Normal

namespace Pattern

/-- The normal forms of the alternatives of a pattern. -/
def alternatives : Pattern → List Normal
  | empty => [.empty]
  | one part => [.ofRanges part.ranges]
  | oneOf set => [.ofRanges set.ranges]
  | atStart => [.edge false]
  | atEnd => [.edge true]
  | group keeps body =>
    let n := Normal.ofAlternatives body.alternatives
    [if keeps then .kept n else n]
  | sequence first rest =>
    [(Normal.ofAlternatives first.alternatives).followedBy (.ofAlternatives rest.alternatives)]
  | either earlier last => earlier.alternatives ++ last.alternatives
  | repetition body least most lazy =>
    [(Normal.ofAlternatives body.alternatives).repeated least most lazy]

/-- The normal form of a pattern. -/
def normal (p : Pattern) : Normal := .ofAlternatives p.alternatives

end Pattern

end SqlKit
