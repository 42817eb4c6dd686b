import SqlKit.Source.Position

/-!
# Spans

A span is a region of a text: the place of its first character and the place right after its last
one. `Span.merge` is the least span that covers two.
-/

namespace SqlKit

/-- A region of a text, from `first` up to and not including `last`. -/
structure Span where
  first : Position
  last : Position
  deriving Repr, DecidableEq, Inhabited

namespace Span

/-- The empty span at the start of a text. -/
def atStart : Span := ⟨.start, .start⟩

/-- The span between two offsets of one line of ASCII text. -/
def onLine (first last line column : Nat) : Span :=
  ⟨⟨first, line, column⟩, ⟨last, line, column + (last - first)⟩⟩

/-- The span with another line and column for its end. -/
def withEnd (s : Span) (line column : Nat) : Span :=
  { s with last := { s.last with line, column } }

/-- The count of bytes covered. -/
def size (s : Span) : Nat := s.last.offset - s.first.offset

/-- A span that covers nothing. -/
def isEmpty (s : Span) : Bool := s.first.offset == s.last.offset

/-- The span from the earlier of two starts to the later of two ends. -/
def merge (s t : Span) : Span where
  first := if s.first.offset ≤ t.first.offset then s.first else t.first
  last := if t.last.offset < s.last.offset then s.last else t.last

@[simp] theorem merge_self (s : Span) : s.merge s = s := by
  simp [merge]

end Span

end SqlKit
