import SqlKit.Text.Range

/-!
# Characters as bytes

UTF-8 writes a character with a leading byte and up to three further bytes, which carry six bits
each. The characters of a range are those of a few sequences of byte ranges (`byteSequences`), each
of which stands for all ways to choose a byte from every range of it.

`branches` gathers sequences by what they begin with, so a list of sequences is read as a tree.
-/

namespace SqlKit.Text

/-- A closed range of bytes, first and last. -/
abbrev ByteRange := Nat × Nat

/-- The code points that take so many further bytes, and what is added to the leading one. -/
structure ByteForm where
  first : Nat
  last : Nat
  lead : Nat
  further : Nat
  deriving Repr, DecidableEq, Inhabited

/-- The forms of UTF-8. Code points between the third and the fourth are no characters. -/
def byteForms : List ByteForm :=
  [⟨0, 0x7F, 0, 0⟩, ⟨0x80, 0x7FF, 0xC0, 1⟩, ⟨0x800, 0xD7FF, 0xE0, 2⟩, ⟨0xE000, 0xFFFF, 0xE0, 2⟩,
    ⟨0x10000, 0x10FFFF, 0xF0, 3⟩]

/-- The most bytes that a character takes. -/
def maxBytes : Nat := 4

/-- The number that is added to six bits in a further byte. -/
def furtherLead : Nat := 0x80

/-- All further bytes. -/
def anyFurther : ByteRange := (0x80, 0xBF)

/-- The sequences for the code points from one to another, in increasing order, if so many further
bytes follow the leading one: the block of the first leading byte, if it is not complete, those
between, and the block of the last leading byte, if it is not complete. -/
def sequencesBetween (lead : Nat) : Nat → Nat → Nat → List (List ByteRange)
  | 0, low, high => [[(lead + low, lead + high)]]
  | further + 1, low, high =>
    let block := Nat.pow 64 (further + 1)
    let first := low / block
    let last := high / block
    let inside (byte low high : Nat) : List (List ByteRange) :=
      (sequencesBetween furtherLead further low high).map ((lead + byte, lead + byte) :: ·)
    if first = last then inside first (low % block) (high % block)
    else
      let cutsFirst := low % block != 0
      let cutsLast := high % block != block - 1
      let a := if cutsFirst then first + 1 else first
      let b := if cutsLast then last - 1 else last
      (if cutsFirst then inside first (low % block) (block - 1) else []) ++
        (if a ≤ b then [(lead + a, lead + b) :: List.replicate (further + 1) anyFurther] else []) ++
        (if cutsLast then inside last 0 (high % block) else [])

/-- The sequences for the characters of some ranges. -/
def byteSequences (ranges : List CodeRange) : List (List ByteRange) :=
  ranges.flatMap fun r => byteForms.flatMap fun form =>
    let low := max r.1 form.first
    let high := min r.2 form.last
    if low ≤ high then sequencesBetween form.lead form.further low high else []

/-- The bytes of a character. -/
def bytesOf (code : Nat) : List Nat := (byteSequences [(code, code)]).flatten.map (·.1)

/-- What sequences begin with, each with what follows. Neighbours that begin alike are gathered. -/
def branches : List (List ByteRange) → List (ByteRange × List (List ByteRange))
  | [] => []
  | [] :: rest => branches rest
  | (r :: tail) :: rest =>
    match branches rest with
    | [] => [(r, [tail])]
    | (r', tails) :: more =>
      if r = r' then (r, tail :: tails) :: more else (r, [tail]) :: (r', tails) :: more

end SqlKit.Text
