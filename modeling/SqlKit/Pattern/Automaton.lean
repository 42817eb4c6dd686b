import SqlKit.Pattern.Memo
import SqlKit.Pattern.Normal
import SqlKit.Text.Utf8

/-!
# Automata for patterns

A pattern is searched for with two finite automata over bytes. The forward one reads a text from its
start and notes where kept groups begin and end, the backward one reads it from its end. Here they
are not made but measured: `Normal.lay` counts the states that the parts of a pattern take, one part
after another, and what the states hold, until there is no room left. A pattern whose automata do
not fit is refused (`Pattern.hasAutomata`).

States that read a character beyond ASCII are shared within a set where a `Memo` finds them again:
forward those that are left on the same bytes to the same states, backward those that are reached
from the same state on the same bytes. Since the memo forgets, how much is shared depends on the
numbers of the states, and so on what was laid before.
-/

namespace SqlKit

open Text

/-! ## Room -/

/-- The size of a state. -/
def stateSize : Nat := 32

/-- The size of a range of bytes on which a state that has several is left. -/
def rangeSize : Nat := 8

/-- The size of a branch of a state that only leads to other states. -/
def branchSize : Nat := 4

/-- The room for an automaton: ten mebibytes. -/
def automatonRoom : Nat := 10 * 1024 * 1024

/-- An automaton that is being laid: the number of its states, the size of what they hold, and the
states that may be shared. -/
structure Build where
  states : Nat
  extra : Nat
  memo : Memo

namespace Build

/-- One more part of an automaton, if there is room for it. -/
abbrev Step := Build → Option Build

/-- More states, and what they hold. -/
def add (states extra : Nat) : Step := fun b =>
  let states := b.states + states
  let extra := b.extra + extra
  if stateSize * states + extra ≤ automatonRoom then some { b with states, extra } else none

/-- The state that a key stands for. If there is none in the memo, it is a new one. -/
def shared (key : List Nat) (extra : Nat) (b : Build) : Option (Nat × Build) :=
  let state := b.states
  match b.memo.find? key with
  | some known => some (known, b)
  | none => do
    let b ← b.add 1 extra
    return (state, { b with memo := b.memo.put key state })

/-- A step so many times. -/
def times (step : Step) : Nat → Step
  | 0 => some
  | n + 1 => fun b => do times step n (← step b)

end Build

open Build

/-- The direction in which an automaton reads a text. -/
inductive Heading where
  | forward | backward
  deriving Repr, DecidableEq, Inhabited

/-- The number of slots of the memo. -/
def Heading.slots : Heading → Nat
  | forward => 10000
  | backward => 1000

/-! ## Sets -/

/-- The state that reads one of some byte sequences, down to a depth, and the last state if there is
nothing to read. The states behind it are laid first. -/
def layTree (last : Nat) : Nat → List (List ByteRange) → Build → Option (Nat × Build)
  | 0, _, b => some (last, b)
  | depth + 1, sequences, b =>
    match branches sequences with
    | [] => some (last, b)
    | ways => do
      let (reversedKey, b) ← ways.foldlM (fun (key, b) way => do
        let (next, b) ← layTree last depth way.2 b
        return (next :: way.1.2 :: way.1.1 :: key, b)) (([] : List Nat), b)
      b.shared reversedKey.reverse (rangeSize * ways.length)

/-- The states that read a byte sequence from its first byte on, behind a state, and a branch to
them. -/
def layPath (first : Nat) (sequence : List ByteRange) : Step := fun b => do
  let (_, b) ← sequence.foldlM (fun (state, b) r => b.shared [state, r.1, r.2] 0) (first, b)
  b.add 0 branchSize

/-- One character of some ranges. If all are ASCII, one state has all ranges and leads to another
one. -/
def laySet (heading : Heading) (ranges : List CodeRange) : Step := fun b =>
  if ranges.all (·.2 < 128) then b.add 2 (rangeSize * ranges.length)
  else
    match heading with
    | .forward => do
      let last := b.states
      let b ← b.add 1 0
      let (_, b) ← layTree last maxBytes (byteSequences ranges) b
      return b
    | .backward => do
      let first := b.states + 1
      let b ← b.add 2 0
      (byteSequences ranges).foldlM (fun b sequence => layPath first sequence b) b

/-! ## Choices between texts -/

/-- Runs of texts between the empty ones. -/
def runsOf : List (List Nat) → List (List (List Nat))
  | [] => [[]]
  | [] :: rest => [] :: runsOf rest
  | text :: rest =>
    match runsOf rest with
    | [] => [[text]]
    | run :: runs => (text :: run) :: runs

/-- What follows a byte in texts that begin with it. -/
def tailsAfter (byte : Nat) (texts : List (List Nat)) : List (List Nat) :=
  texts.filterMap fun text =>
    match text with
    | [] => none
    | first :: rest => if first = byte then some rest else none

/-- States, and what they hold. -/
abbrev Amount := Nat × Nat

/-- Two amounts together. -/
def Amount.add (a b : Amount) : Amount := (a.1 + b.1, a.2 + b.2)

/-- The states that read one of some texts, down to a depth. Texts that begin alike share states,
but not if one that ends here stands between them, as the earlier alternative is preferred. So there
is a branch for each run, each of which has a state for the bytes that it begins with, and one for
each text that ends. -/
def textTree : Nat → List (List Nat) → Amount
  | 0, _ => (0, 0)
  | depth + 1, texts =>
    let runs := runsOf texts
    runs.foldl (fun amount run =>
      let bytes := (run.filterMap List.head?).eraseDups
      let here : Amount :=
        if bytes.isEmpty then (0, 0)
        else (1, branchSize + if bytes.length = 1 then 0 else rangeSize * bytes.length)
      bytes.foldl (fun amount byte =>
        let tails := tailsAfter byte run
        if tails.all (·.isEmpty) then amount else amount.add (textTree depth tails))
        (amount.add here)) (1, branchSize * (runs.length - 1))

/-- A choice between texts. -/
def layTexts (heading : Heading) (texts : List (List Nat)) : Step := fun b =>
  let texts := texts.map fun codes => codes.flatMap bytesOf
  let texts := match heading with
    | .forward => texts
    | .backward => texts.map List.reverse
  let depth := texts.foldl (fun n text => max n text.length) 0
  let amount := textTree depth texts
  b.add (amount.1 + 1) amount.2

/-! ## Patterns -/

/-- A repetition of a part that is laid by a step. A state leads back to the part or on, and one
more leads around a part that need not be there. Each round beyond the least number has a state that
leads around it. -/
def layRepetition (step : Step) (takesSome : Bool) (least : Nat) (most : Option Nat) (b : Build) :
    Option Build :=
  match least, most with
  | 0, some 1 => do (← step (← b.add 1 (2 * branchSize))).add 1 0
  | 0, none =>
    if takesSome then do step (← b.add 1 (2 * branchSize))
    else do (← step b).add 3 (4 * branchSize)
  | least, none => do (← times step least b).add 1 (2 * branchSize)
  | least, some most => do
    let b ← if least = 0 then b.add 1 0 else times step least b
    if least = most then return b
    else
      times (fun b => do step (← b.add 1 (2 * branchSize))) (most - least) (← b.add 1 0)

namespace Normal

/-- The code points of a text. -/
def text? : Normal → Option (List Nat)
  | text codes => some codes
  | _ => none

mutual

/-- The states of a pattern. -/
def lay (heading : Heading) : Normal → Step
  | empty | edge _ => add 1 0
  | text codes => add (codes.flatMap bytesOf).length 0
  | set ranges => laySet heading ranges
  | kept body => fun b =>
    match heading with
    | .forward => do (← body.lay heading (← b.add 1 0)).add 1 0
    | .backward => body.lay heading b
  | row items => layRow heading items
  | choice branches => fun b =>
    match branches.mapM text? with
    | some texts => layTexts heading texts b
    | none => layChoice heading 0 branches b
  | repetition body least most _ => layRepetition (body.lay heading) body.takesSome least most

/-- The states of parts in a row, in the order in which they are read. -/
def layRow (heading : Heading) : List Normal → Step
  | [] => some
  | n :: rest => fun b =>
    match heading with
    | .forward => do layRow heading rest (← n.lay heading b)
    | .backward => do n.lay heading (← layRow heading rest b)

/-- The states of alternatives of which so many were laid. Behind the second one stand the states
where the alternatives part and meet. -/
def layChoice (heading : Heading) (before : Nat) : List Normal → Step
  | [] => some
  | n :: rest => fun b => do
    let b ← n.lay heading b
    let b ← match before with
      | 0 => some b
      | 1 => b.add 2 (2 * branchSize)
      | _ => b.add 0 branchSize
    layChoice heading (before + 1) rest b

end

/-- The automaton for a pattern. It begins with a state, or with three that pass over any bytes if a
match may begin anywhere, and ends with a state. The forward one keeps the match. -/
def build (heading : Heading) (n : Normal) : Option Build := do
  let b : Build := ⟨0, 0, .ofSize heading.slots⟩
  let b ← if n.touches (heading == .backward) then b.add 1 0
    else b.add 3 (rangeSize + 2 * branchSize)
  (← lay heading (.kept n) b).add 1 0

end Normal

/-- Whether there is room for the automata of a pattern. -/
def Pattern.hasAutomata (p : Pattern) : Bool :=
  let n := p.normal
  (n.build .forward).isSome && (n.build .backward).isSome

end SqlKit
