/-!
# Positions in a text

A position counts the bytes before it and names the line and column it stands at. Lines and columns
start at one, columns count characters. A line ends with a line feed; a carriage return directly
before it takes no column of its own.
-/

namespace SqlKit

/-- A place between two characters of a text. -/
structure Position where
  offset : Nat
  line : Nat
  column : Nat
  deriving Repr, DecidableEq, Inhabited

namespace Position

/-- The place before the first character. -/
def start : Position := ⟨0, 1, 1⟩

/-- The place after the character `c`, which `following` follows. -/
def step (p : Position) (c : Char) (following : List Char) : Position :=
  let offset := p.offset + c.utf8Size
  if c = '\n' then ⟨offset, p.line + 1, 1⟩
  else if c = '\r' ∧ following.head? = some '\n' then ⟨offset, p.line, p.column⟩
  else ⟨offset, p.line, p.column + 1⟩

/-- The place `count` characters further on in the text that starts here. -/
def advance (p : Position) : Nat → List Char → Position
  | 0, _ => p
  | _, [] => p
  | count + 1, c :: following => (p.step c following).advance count following

@[simp] theorem advance_zero (p : Position) (cs : List Char) : p.advance 0 cs = p := by
  cases cs <;> rfl

@[simp] theorem advance_nil (p : Position) (count : Nat) : p.advance count [] = p := by
  cases count <;> rfl

@[simp] theorem advance_succ (p : Position) (count : Nat) (c : Char) (cs : List Char) :
    p.advance (count + 1) (c :: cs) = (p.step c cs).advance count cs := rfl

end Position

end SqlKit
