import SqlKit.Proofs.Batch.Constants
import SqlKit.Proofs.Grammar.CommaLimits
import SqlKit.Proofs.Rendering.Placeholders
import SqlKit.Proofs.Syntax.Walk

/-!
# The numbering of placeholders

The question marks of a statement that is read without an error are its placeholders. They are
counted from one in every statement, and each has the integer that touches it for its number
(`parse_placeholders`). An integer that is too large for a number is never found there: no reader
would take it behind a question mark.
-/

namespace SqlKit

open Grammar

/-- The integer that touches a question mark, in front of some tokens. -/
def integerBehind? (mark : Token) : List Token → Option Int
  | t :: _ =>
    match t.kind with
    | .integer n => if t.span.first.offset = mark.span.last.offset then some n.toInt else none
    | _ => none
  | [] => none

/-- Of each question mark among some tokens the integer that touches it, if there is one. -/
def markedIntegers : List Token → List (Option Int)
  | [] => []
  | t :: rest =>
    if t.kind = .symbol .question then integerBehind? t rest :: markedIntegers rest
    else markedIntegers rest

theorem length_markedIntegers (ts : List Token) :
    (markedIntegers ts).length = ts.countP fun t => t.kind = .symbol .question := by
  induction ts with
  | nil => rfl
  | cons t ts ih =>
    rw [markedIntegers, List.countP_cons, ← ih]
    split
    · next hKind => simp [hKind]
    · next hKind => simp [hKind]

/-- An integer that is taken for a number is that number. -/
theorem integerBehind?_of_numberBehind? {t u : Token} {ts : List Token} {n : Nat} (hu : u.Written)
    (h : numberBehind? t (u :: ts) = some n) : integerBehind? t (u :: ts) = some (n : Int) := by
  obtain ⟨m, hKind⟩ := exists_integer_of_numberBehind? h
  rw [numberBehind?] at h
  split at h
  · next hTouches =>
    have hInteger : integerBehind? t (u :: ts) = some m.toInt := by
      rw [integerBehind?, hKind]
      exact if_pos hTouches
    rw [unsigned?, hKind] at h
    obtain ⟨-, hNumber⟩ := Option.ite_none_right_eq_some.mp h
    rw [hInteger, ← Option.some.inj hNumber, Int.toNat_of_nonneg (hu.integer m hKind)]
  · cases h

theorem behind?_of_ne_integer (t : Token) {ts : List Token}
    (h : ∀ u ∈ ts.head?, ∀ n, u.kind ≠ .integer n) :
    numberBehind? t ts = none ∧ integerBehind? t ts = none := by
  cases ts with
  | nil => exact ⟨rfl, rfl⟩
  | cons u ts =>
    have hKind := h u rfl
    constructor
    · cases hNumber : numberBehind? t (u :: ts) with
      | none => rfl
      | some n =>
        obtain ⟨m, hInteger⟩ := exists_integer_of_numberBehind? hNumber
        exact absurd hInteger (hKind m)
    · rw [integerBehind?]
      split
      · next n hInteger => exact absurd hInteger (hKind n)
      · rfl

/-- In a phrase an integer touches a question mark only as its number. -/
theorem markedIntegers_of_phrase {k : Nat} {free : Bool} {ts : List Token} (h : Phrase k free ts)
    (hWritten : ∀ t ∈ ts, t.Written) :
    (placeholderNumbers ts).map (Option.map Int.ofNat) = markedIntegers ts := by
  have hSkip : ∀ {t : Token} {us : List Token}, t.kind ≠ .symbol .question →
      (placeholderNumbers us).map (Option.map Int.ofNat) = markedIntegers us →
      (placeholderNumbers (t :: us)).map (Option.map Int.ofNat) = markedIntegers (t :: us) :=
    fun hKind hEq => by rwa [placeholderNumbers, markedIntegers, if_neg hKind, if_neg hKind]
  induction h with
  | nil => rfl
  | neutral hKind _ ih =>
    refine hSkip (fun hMark => ?_) (ih fun t ht => hWritten t (List.mem_cons_of_mem _ ht))
    rw [hMark] at hKind
    cases hKind
  | integer hKind _ ih | left hKind _ ih | right hKind _ ih =>
    exact hSkip (by simp [hKind]) (ih fun t ht => hWritten t (List.mem_cons_of_mem _ ht))
  | question hKind hRest ih =>
    obtain ⟨hNumber, hInteger⟩ := behind?_of_ne_integer _ fun u hu n => hRest.head_ne hu n
    rw [placeholderNumbers, markedIntegers, if_pos hKind, if_pos hKind, hNumber, hInteger,
      List.map_cons, ih fun t ht => hWritten t (List.mem_cons_of_mem _ ht)]
    rfl
  | numbered hKind hNumber _ ih =>
    obtain ⟨m, hInteger⟩ := exists_integer_of_numberBehind? hNumber
    obtain ⟨-, hTail⟩ := List.forall_mem_cons.mp hWritten
    obtain ⟨hNext, hTail⟩ := List.forall_mem_cons.mp hTail
    rw [placeholderNumbers, markedIntegers, if_pos hKind, if_pos hKind, hNumber,
      integerBehind?_of_numberBehind? hNext hNumber, List.map_cons,
      hSkip (by simp [hInteger]) (ih hTail)]
    rfl

/-- **The numbering of placeholders.** In a statement that is read without an error the question
marks of its segment are its placeholders, and no others are in its tree. In the order of the source
their positions count up from one, and each has exactly the integer that touches it for its number.
The walk of its outline meets them in this order, unless a limit of it was written with a comma. -/
theorem parse_placeholders {options : ParseOptions} {text : String} {x : Statement}
    (h : x ∈ (parse options text).statements) :
    ∃ seg ∈ segments text, (∃ b, (seg.read b).1 = ⟨x, none⟩) ∧
      ∃ ps : List Placeholder, (placeholdersOf x.nodes).Perm ps ∧
        ps.length = (seg.tokens.countP fun t => t.kind = .symbol .question) ∧
        ps.map (·.position) = List.range' 1 ps.length ∧
        ps.map (fun p => p.number.map Int.ofNat) = markedIntegers seg.tokens ∧
        (hasCommaLimit seg.tokens = false →
          (x.outline.walk.filter Outline.Visit.isPlaceholder).map (·.label) =
            ps.map Placeholder.label) := by
  obtain ⟨seg, hSegment, b, rfl, hError⟩ := mem_statements h
  have hEnd := segments_isEnd hSegment
  obtain ⟨ps, hHolds, hNumbered, hNumbers⟩ :=
    Segment.read_placeholders hEnd (segments_whole hSegment) hError
  have hPhrase : Phrase 0 true seg.tokens :=
    after_statement_phrase (s := seg.start b) (takes_upTo _) (segments_whole hSegment) hError
  have hWritten : ∀ t ∈ seg.tokens, t.Written :=
    fun t ht => written_tokensOf t (segments_mem hSegment ht)
  have hIntegers : ps.map (fun p => p.number.map Int.ofNat) = markedIntegers seg.tokens := by
    rw [← markedIntegers_of_phrase hPhrase hWritten, ← hNumbers, List.map_map]
    rfl
  refine ⟨seg, hSegment, ⟨b, by rw [← hError]⟩, ps, hHolds.perm, ?_, hNumbered.positions, hIntegers,
    fun hNone => ?_⟩
  · rw [← length_markedIntegers, ← hIntegers, List.length_map]
  · have hOrder : InOrder (seg.read b).1.statement.nodes :=
      after_statement_inOrder (s := seg.start b) (collects_upTo _) hEnd (segments_whole hSegment)
        hError hNone
    rw [Statement.walk_placeholders, hHolds.order.mpr hOrder]

/-- Placeholders in assignments and behind an operator, one of them with a number, and in the limit
of a query inside of a condition. -/
def sampleMarks : String :=
  "UPDATE t SET a = ?3, b = 1 + ? WHERE c IN (SELECT d FROM u LIMIT ? OFFSET ?)"

theorem parse_placeholders_sampleMarks :
    ∃ x ∈ (parse .standard sampleMarks).statements,
      ∃ seg ∈ segments sampleMarks, (∃ b, (seg.read b).1 = ⟨x, none⟩) ∧
        ∃ ps : List Placeholder, (placeholdersOf x.nodes).Perm ps ∧
          ps.map (·.position) = [1, 2, 3, 4] ∧
          ps.map (fun p => p.number.map Int.ofNat) = [some 3, none, none, none] ∧
          (x.outline.walk.filter Outline.Visit.isPlaceholder).map (·.label) =
            ps.map Placeholder.label := by
  obtain ⟨x, hx⟩ := List.exists_mem_of_length_pos
    (show 0 < (parse .standard sampleMarks).statements.length by decide +kernel)
  obtain ⟨seg, hSegment, hRead, ps, hPerm, hLength, hPositions, hIntegers, hWalk⟩ :=
    parse_placeholders hx
  have hTokens : ∀ seg ∈ segments sampleMarks, hasCommaLimit seg.tokens = false ∧
      markedIntegers seg.tokens = [some 3, none, none, none] := by decide +kernel
  obtain ⟨hNone, hMarks⟩ := hTokens seg hSegment
  rw [hMarks] at hIntegers
  have hFour : ps.length = 4 := by simpa using congrArg List.length hIntegers
  exact ⟨x, hx, seg, hSegment, hRead, ps, hPerm, by rw [hPositions, hFour]; rfl, hIntegers,
    hWalk hNone⟩

end SqlKit
