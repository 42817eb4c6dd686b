import Mathlib.Order.Lattice
import SqlKit.Proofs.Batch.ErrorPlaces
import SqlKit.Proofs.Batch.Spans

/-!
# Merged spans cover both

`Span.merge` takes the line and the column of either end from one of its operands. Which of the two
it is makes no difference as long as both operands are spans of the same text, whose lines and
columns are those of their offsets (`Span.Consistent`): the spans of a text are a semilattice,
ordered by what they contain, and merging is its join (`SpanOf`).

While a text is read, the span of a token is merged with that of the token taken last. No more than
these two are needed to cover all tokens that were taken in between, since tokens stand in order.

* `Span.contains_merge_iff`: a merged span is the least that contains both of its parts.
* `Span.Consistent.merge_comm`, `Span.Consistent.merge_assoc`: what a join obeys.
* `spanFrom_of_previous`, `covers_of_between`: the span from any token of a statement on.
-/

namespace SqlKit

open Grammar Parse

/-! ## The spans of a text -/

namespace Span

/-- A span of a text does not end before it starts, and both of its ends stand at the line and the
column of their offsets. -/
structure Consistent (text : List Char) (s : Span) : Prop where
  ordered : s.first.offset ≤ s.last.offset
  first : s.first = .ofOffset text s.first.offset
  last : s.last = .ofOffset text s.last.offset

variable {text : List Char} {a b c : Span}

theorem offset_first_merge (a b : Span) :
    (a.merge b).first.offset = min a.first.offset b.first.offset := by
  rw [merge, apply_ite Position.offset]
  rfl

theorem offset_last_merge (a b : Span) :
    (a.merge b).last.offset = max a.last.offset b.last.offset := by
  rw [merge, apply_ite Position.offset]
  split <;> omega

/-- What contains a merged span is what contains both of its parts. -/
theorem contains_merge_iff : c.Contains (a.merge b) ↔ c.Contains a ∧ c.Contains b := by
  constructor
  · rintro ⟨hFirst, hLast⟩
    rw [offset_first_merge, Nat.le_min] at hFirst
    rw [offset_last_merge, Nat.max_le] at hLast
    exact ⟨⟨hFirst.1, hLast.1⟩, ⟨hFirst.2, hLast.2⟩⟩
  · rintro ⟨hLeft, hRight⟩
    refine ⟨?_, ?_⟩
    · rw [offset_first_merge]
      exact Nat.le_min.mpr ⟨hLeft.first, hRight.first⟩
    · rw [offset_last_merge]
      exact Nat.max_le.mpr ⟨hLeft.last, hRight.last⟩

theorem Contains.refl (a : Span) : a.Contains a := ⟨le_rfl, le_rfl⟩

namespace Consistent

theorem merge (ha : a.Consistent text) (hb : b.Consistent text) : (a.merge b).Consistent text where
  ordered := by
    rw [offset_first_merge, offset_last_merge]
    exact (min_le_left _ _).trans (ha.ordered.trans (le_max_left _ _))
  first := by
    unfold Span.merge
    dsimp only
    split
    · exact ha.first
    · exact hb.first
  last := by
    unfold Span.merge
    dsimp only
    split
    · exact ha.last
    · exact hb.last

/-- A span of a text is known by what it contains: lines and columns add nothing to the offsets. -/
theorem eq_of_contains (ha : a.Consistent text) (hb : b.Consistent text) (h : a.Contains b)
    (h' : b.Contains a) : a = b := by
  have hFirst : a.first = b.first := by
    rw [ha.first, hb.first, h.first.antisymm h'.first]
  have hLast : a.last = b.last := by
    rw [ha.last, hb.last, h'.last.antisymm h.last]
  exact congrArg₂ Span.mk hFirst hLast

end Consistent

end Span

/-- The spans of a text. -/
@[ext]
structure SpanOf (text : List Char) where
  span : Span
  consistent : span.Consistent text

namespace SpanOf

variable {text : List Char}

/-- A span is below those that contain it. -/
instance : PartialOrder (SpanOf text) where
  le a b := b.span.Contains a.span
  le_refl a := .refl a.span
  le_trans _ _ _ h h' := ⟨h'.first.trans h.first, h.last.trans h'.last⟩
  le_antisymm a b h h' := SpanOf.ext (a.consistent.eq_of_contains b.consistent h' h)

/-- Merging is the join of the spans of a text. -/
instance : SemilatticeSup (SpanOf text) where
  sup a b := ⟨a.span.merge b.span, a.consistent.merge b.consistent⟩
  le_sup_left a b := (Span.contains_merge_iff.mp (.refl (a.span.merge b.span))).1
  le_sup_right a b := (Span.contains_merge_iff.mp (.refl (a.span.merge b.span))).2
  sup_le _ _ _ h h' := Span.contains_merge_iff.mpr ⟨h, h'⟩

end SpanOf

namespace Span.Consistent

variable {text : List Char} {a b c : Span}

theorem merge_comm (ha : a.Consistent text) (hb : b.Consistent text) : a.merge b = b.merge a :=
  congrArg SpanOf.span (sup_comm (⟨a, ha⟩ : SpanOf text) ⟨b, hb⟩)

theorem merge_assoc (ha : a.Consistent text) (hb : b.Consistent text) (hc : c.Consistent text) :
    (a.merge b).merge c = a.merge (b.merge c) :=
  congrArg SpanOf.span (sup_assoc (⟨a, ha⟩ : SpanOf text) ⟨b, hb⟩ ⟨c, hc⟩)

end Span.Consistent

/-! ## The spans of tokens -/

/-- Each token of a text has a span of the text, and so has the end. -/
theorem consistent_tokenize (text : String) :
    ∀ t ∈ (Lexer.ofString text).tokenize.1, t.span.Consistent text.toList := by
  intro t ht
  have hBounded := bounded_tokenize text t ht
  refine ⟨?_, hBounded.first, hBounded.last⟩
  rw [Lexer.tokenize_ofString] at ht
  rcases List.mem_append.mp ht with ht | ht
  · exact (placed_tokensOf text t ht).nonempty.le
  · rw [List.mem_singleton.mp ht]
    exact le_rfl

/-- A token of a segment, or what stands behind it, has a span of the text. -/
theorem Segment.consistent_of_mem {text : String} {seg : Segment} (hSegment : seg ∈ segments text)
    {t : Token} (ht : t ∈ seg.tokens ++ [seg.terminator]) : t.span.Consistent text.toList := by
  obtain ⟨before, after, hTokens, -⟩ := segments_standsIn text seg hSegment
  refine consistent_tokenize text t ?_
  rw [Lexer.tokenize_ofString, hTokens]
  simp only [List.mem_append, List.mem_cons, List.not_mem_nil, or_false] at ht ⊢
  tauto

/-- Tokens in order have a span of the text from the first to the last of them. -/
theorem consistent_of_covers {text : List Char} {span : Span} {ts : List Token}
    (hAligned : Aligned ts)
    (hTokens : ∀ t ∈ ts, t.span.Consistent text) (h : span.Covers ts) : span.Consistent text := by
  have hNonempty := hAligned.nonempty_of_covers h
  obtain ⟨t, ht, u, hu, hFirst, hLast⟩ := h
  refine ⟨hNonempty.le, ?_, ?_⟩
  · rw [hFirst]
    exact (hTokens t (List.mem_of_mem_head? ht)).first
  · rw [hLast]
    exact (hTokens u (List.mem_of_mem_getLast? hu)).last

/-! ## While a segment is read -/

namespace Grammar

variable {text : String} {seg : Segment} {bindings : Bindings} {s s' : State}

/-- The next token is one of those that are left, or what stands behind the segment. -/
theorem current_mem_of_moves (h : Moves (seg.start bindings) s) :
    s.current ∈ s.tokens ++ [seg.terminator] := by
  have hTerminator : s.terminator = seg.terminator := h.terminator_eq
  cases hTokens : s.tokens with
  | nil => simp [State.current, hTokens, hTerminator]
  | cons t rest => simp [State.current, hTokens]

theorem consistent_current (hSegment : seg ∈ segments text) (h : Moves (seg.start bindings) s) :
    s.current.span.Consistent text.toList := by
  refine Segment.consistent_of_mem hSegment ?_
  rcases List.mem_append.mp (current_mem_of_moves h) with hLeft | hTerminator
  · exact List.mem_append_left _ (h.suffix.subset hLeft)
  · exact List.mem_append_right _ hTerminator

/-- As long as nothing is taken, the span from the next token on is its own. At the start of a
segment the token taken last is made up: it stands in front of the first one and is empty. -/
theorem spanFrom_of_previous (hSegment : seg ∈ segments text) (h : Moves (seg.start bindings) s)
    (hPrevious : s'.previous = s.previous) :
    ((spanFrom s.current.span).run s').1 = s.current.span := by
  obtain ⟨before, hTokens, hBefore⟩ := h.exists_between
  replace hTokens : seg.tokens = before ++ s.tokens := hTokens
  rw [spanFrom, run_look, hPrevious]
  cases hLast : before.getLast? with
  | none =>
    obtain rfl := List.getLast?_eq_none_iff.mp hLast
    have hLeft : s.tokens = seg.first :: seg.rest := hTokens.symm
    have hFirst : s.current = seg.first := State.current_cons hLeft
    have hNonempty := (aligned_segment hSegment).nonempty seg.first List.mem_cons_self
    rw [List.getLast?_nil, Option.map_none, Option.getD_none] at hBefore
    rw [hBefore, hFirst]
    simp [Segment.start, Span.merge, hNonempty]
  | some u =>
    have hu : u ∈ before := List.mem_of_getLast? hLast
    have hNonempty := (aligned_segment hSegment).nonempty u (hTokens ▸ List.mem_append_left _ hu)
    have hOrder := ((segments_pairwise text).1 seg hSegment).pairwise
    rw [hTokens, List.append_assoc] at hOrder
    have hBehind := (List.pairwise_append.mp hOrder).2.2 u hu _ (current_mem_of_moves h)
    rw [hLast, Option.map_some, Option.getD_some] at hBefore
    rw [hBefore, if_pos (by omega)]

/-- Once tokens are taken, the span from the first of them on is that of all of them. -/
theorem covers_of_between (hSegment : seg ∈ segments text) (h : Moves (seg.start bindings) s)
    (hMoves : Moves s s') {taken : List Token} (hBetween : Between s s' taken)
    (hTaken : taken ≠ []) :
    ((spanFrom s.current.span).run s').1.Covers taken := by
  have hAligned : Aligned s.tokens := (aligned_segment hSegment).sublist h.suffix.sublist
  have hFewer : s'.tokens.length < s.tokens.length := by
    have hSome := List.length_pos_iff.mpr hTaken
    rw [hBetween.tokens, List.length_append]
    omega
  obtain ⟨ts, hTokens, hCovers⟩ := exists_covers hAligned hMoves hFewer
  obtain rfl : ts = taken := List.append_cancel_right (hTokens.symm.trans hBetween.tokens)
  exact hCovers

end Grammar

/-- **Merging covers both spans and nothing more.** For spans of one text, merging is commutative,
associative and idempotent, its result is a span of that text again, and the least that contains
both. At any time while a statement is read, the span from a token on that was next before is the
token's own if nothing was taken since, and otherwise reaches from the start of this token to the
end of the one taken last. -/
theorem merge_covers (text : String) :
    (∀ a b : Span, a.Consistent text.toList → b.Consistent text.toList →
      (a.merge b).Consistent text.toList ∧
        ((a.merge b).Contains a ∧ (a.merge b).Contains b ∧
          ∀ c : Span, c.Contains a → c.Contains b → c.Contains (a.merge b)) ∧
        a.merge b = b.merge a ∧ a.merge a = a ∧
        ∀ c : Span, c.Consistent text.toList → (a.merge b).merge c = a.merge (b.merge c)) ∧
    ∀ seg ∈ segments text, ∀ bindings s s', Moves (seg.start bindings) s → Moves s s' →
      ∃ taken span, Between s s' taken ∧ (spanFrom s.current.span).run s' = (span, s') ∧
        span.Consistent text.toList ∧ (taken = [] → span = s.current.span) ∧
        (taken ≠ [] → span.Covers taken) := by
  refine ⟨fun a b ha hb => ?_, fun seg hSegment bindings s s' h hMoves => ?_⟩
  · obtain ⟨hLeft, hRight⟩ := Span.contains_merge_iff.mp (.refl (a.merge b))
    have hLeast : ∀ c : Span, c.Contains a → c.Contains b → c.Contains (a.merge b) :=
      fun c hca hcb => Span.contains_merge_iff.mpr ⟨hca, hcb⟩
    exact ⟨ha.merge hb, ⟨hLeft, hRight, hLeast⟩, ha.merge_comm hb, a.merge_self,
      fun c hc => ha.merge_assoc hb hc⟩
  · obtain ⟨taken, hBetween⟩ := hMoves.exists_between
    have hNone : taken = [] → ((spanFrom s.current.span).run s').1 = s.current.span := by
      rintro rfl
      exact spanFrom_of_previous hSegment h hBetween.previous
    have hSome := covers_of_between hSegment h hMoves hBetween
    refine ⟨taken, ((spanFrom s.current.span).run s').1, hBetween, rfl, ?_, hNone, hSome⟩
    by_cases hTaken : taken = []
    · rw [hNone hTaken]
      exact consistent_current hSegment h
    · have hTokens : taken.Sublist seg.tokens :=
        (hBetween.tokens ▸ List.sublist_append_left taken s'.tokens).trans h.suffix.sublist
      exact consistent_of_covers ((aligned_segment hSegment).sublist hTokens)
        (fun t ht =>
          Segment.consistent_of_mem hSegment (List.mem_append_left _ (hTokens.subset ht)))
        (hSome hTaken)

/-- A string over two lines, and a name on the second one. -/
def sampleLines : String := "SELECT 'a\nb', c"

/-- The span of the string. -/
def sampleStringSpan : Span := (Span.onLine 7 12 1 8).withEnd 2 3

/-- The span of the name. -/
def sampleNameSpan : Span := .onLine 14 15 2 5

theorem merge_covers_sampleLines :
    ((sampleNameSpan.merge sampleStringSpan).Consistent sampleLines.toList ∧
      sampleNameSpan.merge sampleStringSpan = sampleStringSpan.merge sampleNameSpan) ∧
    ∃ seg ∈ segments sampleLines, ∃ s', Moves (seg.start []) s' ∧ s'.tokens = [] ∧
      (spanFrom seg.first.span).run s' = ((Span.onLine 0 15 1 1).withEnd 2 6, s') := by
  have hName : sampleNameSpan.Consistent sampleLines.toList :=
    ⟨by decide, by decide +kernel, by decide +kernel⟩
  have hString : sampleStringSpan.Consistent sampleLines.toList :=
    ⟨by decide, by decide +kernel, by decide +kernel⟩
  obtain ⟨hConsistent, -, hComm, -⟩ := (merge_covers sampleLines).1 _ _ hName hString
  obtain ⟨seg, hSegment⟩ := List.exists_mem_of_length_pos
    (show 0 < (segments sampleLines).length by decide +kernel)
  have hEnds : ∀ seg ∈ segments sampleLines,
      ((statement (.forTokens seg.tokens.length)).run (seg.start [])).2.tokens = [] ∧
        seg.tokens.head?.map (·.span.first) = some (Span.onLine 0 15 1 1).first ∧
        seg.tokens.getLast?.map (·.span.last) = some ((Span.onLine 0 15 1 1).withEnd 2 6).last := by
    decide +kernel
  obtain ⟨hTokens, hStart, hEnd⟩ := hEnds seg hSegment
  have hMoves := (statement (.forTokens seg.tokens.length)).moves (seg.start [])
  obtain ⟨taken, span, hBetween, hRun, -, -, hCovers⟩ :=
    (merge_covers sampleLines).2 seg hSegment [] _ _ (.refl _) hMoves
  have hTaken : seg.tokens = taken := by
    have hSplit := hBetween.tokens
    rwa [hTokens, List.append_nil] at hSplit
  subst hTaken
  obtain ⟨t, ht, u, hu, hFirst, hLast⟩ := hCovers seg.tokens_ne_nil
  rw [Option.mem_def.mp ht] at hStart
  rw [Option.mem_def.mp hu] at hEnd
  have hSpan : span = (Span.onLine 0 15 1 1).withEnd 2 6 :=
    congrArg₂ Span.mk (hFirst.trans (Option.some.inj hStart)) (hLast.trans (Option.some.inj hEnd))
  exact ⟨⟨hConsistent, hComm⟩, seg, hSegment, _, hMoves, hTokens, hSpan ▸ hRun⟩

end SqlKit
