import SqlKit.Pattern.Automaton
import SqlKit.Pattern.Nesting

/-!
# Reading patterns

The notation of patterns:

* a character stands for itself, `.` for all characters but the line break;
* `\d`, `\w`, `\s` are the decimal digits, the characters of words and white space, and `\D`, `\W`,
  `\S` all others; `\n`, `\t`, `\r`, `\f`, `\v`, `\a` are control characters; a backslash takes the
  meaning from any ASCII character that is no letter or digit;
* `[…]` is a set of characters, ranges and families, and `[^…]` all others;
* `^` and `$` are the ends of the text;
* `*`, `+`, `?`, `{n}`, `{n,}` and `{n,m}` repeat what stands before them, and a `?` behind them
  changes nothing about which texts match;
* `|` separates alternatives, and `(…)` and `(?:…)` group.

Whatever else begins with `(?` is refused, and so are operators between sets, and patterns that are
nested too deep or too large.

A pattern is read in three steps: backslashes are joined to the character behind them (`marksOf`),
marks to pieces (`piecesOf`), and the pieces are assembled with a stack of open groups
(`Assembly.add`).
-/

namespace SqlKit

open Text

/-! ## Marks -/

/-- A character of a pattern, and whether a backslash stands before it. -/
structure Mark where
  escaped : Bool
  char : Char
  deriving Repr, DecidableEq, Inhabited

/-- A character without backslash. -/
def Mark.plain (c : Char) : Mark := ⟨false, c⟩

/-- The marks of a text, unless it ends with a lone backslash. -/
def marksOf : List Char → Option (List Mark)
  | [] => some []
  | ['\\'] => none
  | '\\' :: c :: rest => (marksOf rest).map (⟨true, c⟩ :: ·)
  | c :: rest => (marksOf rest).map (.plain c :: ·)

/-- What a character behind a backslash means. -/
def escapeMeaning (c : Char) : Option CharPart :=
  match c with
  | 'd' => some (.family false .digit)
  | 'D' => some (.family true .digit)
  | 'w' => some (.family false .word)
  | 'W' => some (.family true .word)
  | 's' => some (.family false .blank)
  | 'S' => some (.family true .blank)
  | 'n' => some (.single '\n')
  | 't' => some (.single '\t')
  | 'r' => some (.single '\r')
  | 'f' => some (.single (.ofNat 12))
  | 'v' => some (.single (.ofNat 11))
  | 'a' => some (.single (.ofNat 7))
  | c =>
    if isAscii c && !c.isAlphanum && c != '<' && c != '>' then some (.single c) else none

namespace Mark

/-- What a mark means inside a set. -/
def meaning (m : Mark) : Option CharPart :=
  if m.escaped then escapeMeaning m.char else some (.single m.char)

/-- Whether two marks in a row begin a set within a set, or are an operator between sets. -/
def isSetOperation (a b : Mark) : Bool :=
  a == plain '[' || (a == b && (a == plain '-' || a == plain '&' || a == plain '~'))

/-- The range from one mark to another. Both must be single characters, in order. -/
def rangeTo (low high : Mark) : Option CharPart :=
  match low.meaning, high.meaning with
  | some (.range a a'), some (.range b b') =>
    if a = a' ∧ b = b' ∧ a.toNat ≤ b.toNat then some (.range a b) else none
  | _, _ => none

end Mark

/-! ## Sets -/

/-- Something that was read, and the number of marks it took. -/
structure Extent (α : Type) where
  value : α
  marks : Nat

/-- The parts of a set together with one more in front. -/
def Extent.cons {α : Type} (a : α) (marks : Nat) (e : Extent (List α)) : Extent (List α) :=
  ⟨a :: e.value, e.marks + marks⟩

/-- The parts of a set up to its closing bracket. -/
def setParts : List Mark → Option (Extent (List CharPart))
  | [] => none
  | [a] => if a = .plain ']' then some ⟨[], 1⟩ else none
  | [a, b] =>
    if a = .plain ']' then some ⟨[], 1⟩
    else if a.isSetOperation b then none
    else do return (← setParts [b]).cons (← a.meaning) 1
  | a :: b :: c :: rest =>
    if a = .plain ']' then some ⟨[], 1⟩
    else if a.isSetOperation b then none
    else if b = .plain '-' ∧ c ≠ .plain ']' ∧ c ≠ .plain '-' then do
      return (← setParts rest).cons (← a.rangeTo c) 3
    else do return (← setParts (b :: c :: rest)).cons (← a.meaning) 1

/-- The parts of a set whose leading dashes stand for themselves, as does a closing bracket in first
place. -/
def leadingParts : List Mark → Option (Extent (List CharPart))
  | [] => none
  | m :: rest =>
    if m = .plain '-' then (afterDashes rest).map (·.cons (.single '-') 1)
    else if m = .plain ']' then (setParts rest).map (·.cons (.single ']') 1)
    else setParts (m :: rest)
where
  /-- The parts of a set behind leading dashes. -/
  afterDashes : List Mark → Option (Extent (List CharPart))
    | [] => none
    | m :: rest =>
      if m = .plain '-' then (afterDashes rest).map (·.cons (.single '-') 1)
      else setParts (m :: rest)

/-- A set after its opening bracket. -/
def setOf (marks : List Mark) : Option (Extent CharSet) :=
  if marks.head? = some (.plain '^') then
    (leadingParts marks.tail).map fun e => ⟨⟨true, e.value⟩, e.marks + 1⟩
  else (leadingParts marks).map fun e => ⟨⟨false, e.value⟩, e.marks⟩

/-! ## Pieces -/

/-- A piece of a pattern. -/
inductive Piece where
  | opening (keeps : Bool)
  | closing
  | bar
  | atom (pattern : Pattern)
  | repetition (least : Nat) (most : Option Nat) (lazy : Bool)

/-- Counts of repetition are below this bound. -/
def repetitionBound : Nat := Nat.pow 2 32

/-- A number in a count of repetition, with blanks around it. -/
def repetitionNumber? (cs : List Char) : Option Nat :=
  let digits := ((cs.dropWhile isBlank).reverse.dropWhile isBlank).reverse
  if digits.isEmpty || !digits.all Char.isDigit then none
  else
    let n := digits.foldl (fun n c => 10 * n + (c.toNat - '0'.toNat)) 0
    if n < repetitionBound then some n else none

/-- The bounds that stand between braces, the least and the greatest number. -/
def repetitionBounds? (cs : List Char) : Option (Nat × Option Nat) :=
  match cs.span (· ≠ ',') with
  | (number, []) => do
    let n ← repetitionNumber? number
    return (n, some n)
  | (number, _ :: []) => do return (← repetitionNumber? number, none)
  | (number, _ :: upper) => do
    let least ← repetitionNumber? number
    let most ← repetitionNumber? upper
    if least ≤ most then return (least, some most) else none

/-- A repetition that has taken some marks. A `?` behind it makes it lazy. -/
def repetitionPiece (least : Nat) (most : Option Nat) (marks : Nat) (rest : List Mark) :
    Extent Piece :=
  if rest.head? = some (.plain '?') then ⟨.repetition least most true, marks + 1⟩
  else ⟨.repetition least most false, marks⟩

/-- A repetition after its opening brace. -/
def countedRepetition (marks : List Mark) : Option (Extent Piece) :=
  match marks.span (· ≠ .plain '}') with
  | (_, []) => none
  | (bounds, _ :: rest) => do
    if bounds.any (·.escaped) then none
    else
      let (least, most) ← repetitionBounds? (bounds.map (·.char))
      return repetitionPiece least most (bounds.length + 1) rest

/-- The opening of a group after its parenthesis. -/
def groupOpening (marks : List Mark) : Option (Extent Piece) :=
  match marks with
  | ⟨false, '?'⟩ :: ⟨false, ':'⟩ :: _ => some ⟨.opening false, 2⟩
  | ⟨false, '?'⟩ :: _ => none
  | _ => some ⟨.opening true, 0⟩

/-- The piece that starts with a mark, and how many of the marks behind that belong to it. -/
def pieceOf (m : Mark) (rest : List Mark) : Option (Extent Piece) :=
  let one (part : CharPart) : Option (Extent Piece) := some ⟨.atom (.one part), 0⟩
  if m.escaped then (escapeMeaning m.char).bind one
  else
    match m.char with
    | '(' => groupOpening rest
    | ')' => some ⟨.closing, 0⟩
    | '|' => some ⟨.bar, 0⟩
    | '*' => some (repetitionPiece 0 none 0 rest)
    | '+' => some (repetitionPiece 1 none 0 rest)
    | '?' => some (repetitionPiece 0 (some 1) 0 rest)
    | '{' => countedRepetition rest
    | '[' => (setOf rest).map fun e => ⟨.atom (.oneOf e.value), e.marks⟩
    | '.' => one (.family true .lineBreak)
    | '^' => some ⟨.atom .atStart, 0⟩
    | '$' => some ⟨.atom .atEnd, 0⟩
    | c => one (.single c)

/-- The pieces behind so many marks. -/
def piecesBehind : Nat → List Mark → Option (List Piece)
  | _, [] => some []
  | n + 1, _ :: rest => piecesBehind n rest
  | 0, m :: rest => do
    let e ← pieceOf m rest
    return e.value :: (← piecesBehind e.marks rest)

/-- The pieces of a pattern. -/
def piecesOf (marks : List Mark) : Option (List Piece) := piecesBehind 0 marks

/-! ## Assembly -/

/-- A group that is being read: whether its match is kept, the alternatives before the last bar, and
what has been read since then, the latest first. -/
structure Group where
  keeps : Bool
  alternatives : Option Pattern
  items : List Pattern
  deriving Inhabited

namespace Group

/-- A group at its beginning. -/
def start (keeps : Bool) : Group := ⟨keeps, none, []⟩

/-- What has been read since the last bar. -/
def sequence (g : Group) : Pattern :=
  match g.items with
  | [] => .empty
  | last :: before => before.foldl (fun rest item => .sequence item rest) last

/-- The group as a pattern. -/
def pattern (g : Group) : Pattern :=
  match g.alternatives with
  | none => g.sequence
  | some earlier => .either earlier g.sequence

/-- The group with one more item. -/
def push (g : Group) (item : Pattern) : Group := { g with items := item :: g.items }

end Group

/-- A pattern that is being read: the innermost open group, and those around it. -/
structure Assembly where
  group : Group
  outer : List Group
  deriving Inhabited

namespace Assembly

/-- A pattern at its beginning. -/
def start : Assembly := ⟨.start false, []⟩

/-- One more piece. There must be a group to close and something to repeat. -/
def add (a : Assembly) : Piece → Option Assembly
  | .opening keeps => some ⟨.start keeps, a.group :: a.outer⟩
  | .closing =>
    match a.outer with
    | [] => none
    | g :: outer => some ⟨g.push (.group a.group.keeps a.group.pattern), outer⟩
  | .bar => some { a with group := ⟨a.group.keeps, some a.group.pattern, []⟩ }
  | .atom pattern => some { a with group := a.group.push pattern }
  | .repetition least most lazy =>
    match a.group.items with
    | [] => none
    | item :: items =>
      some { a with group := { a.group with items := .repetition item least most lazy :: items } }

/-- The pattern, if no group is open. -/
def finish (a : Assembly) : Option Pattern :=
  if a.outer.isEmpty then some a.group.pattern else none

end Assembly

namespace Pattern

/-- Whether a pattern is neither nested too deep nor too large. -/
def isWithinLimits (p : Pattern) : Bool := decide (p.nesting ≤ maxNesting) && p.hasAutomata

/-- Reads a pattern. -/
def read (text : String) : Option Pattern := do
  let marks ← marksOf text.toList
  let pieces ← piecesOf marks
  let assembly ← pieces.foldlM Assembly.add Assembly.start
  let pattern ← assembly.finish
  if pattern.isWithinLimits then some pattern else none

end Pattern

end SqlKit
