import SqlKit.Proofs.Batch.Isolation
import SqlKit.Proofs.Simulation.Invariant
import SqlKit.Proofs.Token.Boundary

/-!
# The places of errors

An error names the token that was found, and is reported where that token starts. At the end of a
text no token is found, and the error is reported where the last one ends. A parameter without a
type is reported at its `@`: the one in front of the name that the error gives.

* `Segment.reports_of_read`: the place of an error in the segment that it was found in.
* `parse_places`: tokens and errors of a whole text stand at the lines and columns of their offsets.
-/

namespace SqlKit

open Grammar

/-! ## In a segment -/

namespace Segment

variable {seg : Segment}

/-- Where a segment has the token that an error names, and that the error is reported there. -/
def Reports (seg : Segment) (e : ParseError) : Prop :=
  match e.cause with
  | .unexpected _ found =>
    (found ∈ seg.tokens ∧ e.position = found.span.first) ∨
      (found = seg.terminator ∧ e.position = if found.isEnd then
        (seg.tokens.getLast seg.tokens_ne_nil).span.last else found.span.first)
  | .untypedParameter name => ∃ mark named, [mark, named] <:+: seg.tokens ∧
    mark.kind = .symbol .atSign ∧ nameOf? named = some name ∧ e.position = mark.span.first

/-- What holds while a segment is read: its tokens are taken one by one, and the error is reported
at one of them. -/
structure Traces (seg : Segment) (s : State) : Prop where
  taken : ∃ taken, seg.tokens = taken ++ s.tokens ∧ ∀ t ∈ taken.getLast?, s.previous = t.span
  terminator : s.terminator = seg.terminator
  error : ∀ e, s.error = some e → seg.Reports e

theorem Traces.note {s : State} {e : ParseError} (h : seg.Traces s)
    (he : s.error = none → seg.Reports e) : seg.Traces (s.note e) := by
  refine ⟨?_, by rw [State.note_terminator]; exact h.terminator, fun e' hError => ?_⟩
  · rw [State.note_tokens, State.note_previous]
    exact h.taken
  rcases State.mem_error_note hError with hOld | ⟨hNone, rfl⟩
  · exact h.error e' hOld
  · exact he hNone

theorem Traces.mem {s : State} {t : Token} {rest : List Token} (h : seg.Traces s)
    (hTokens : s.tokens = t :: rest) : t ∈ seg.tokens := by
  obtain ⟨taken, hTaken, -⟩ := h.taken
  rw [hTaken, hTokens]
  simp

/-- A parameter is reported at the `@` in front of its name. -/
theorem Traces.reports_untyped {s : State} {t : Token} {rest : List Token} {name : String}
    (h : seg.Traces s) (hTokens : s.tokens = t :: rest) (hKind : t.kind = .symbol .atSign)
    (hNamed : ∃ c, rest.head? = some c ∧ nameOf? c = some name) :
    seg.Reports ⟨t.span.first, .untypedParameter name⟩ := by
  obtain ⟨taken, hTaken, -⟩ := h.taken
  obtain ⟨c, hNext, hName⟩ := hNamed
  obtain ⟨more, rfl⟩ := List.head?_eq_some_iff.mp hNext
  exact ⟨t, c, ⟨taken, more, by simp [hTaken, hTokens]⟩, hKind, hName, rfl⟩

/-- An error at the next token is reported there, or behind the last token at the end of the
text. -/
theorem Traces.reports_unexpected {s : State} (h : seg.Traces s) (expected : Expected)
    (hTokens : ∀ t ∈ seg.tokens, t.isEnd = false) :
    seg.Reports ⟨s.errorPosition, .unexpected expected s.current⟩ := by
  unfold Reports State.errorPosition
  cases hRest : s.tokens with
  | cons t rest =>
    have hMem := h.mem hRest
    simp only [State.current_cons hRest, hTokens t hMem]
    exact Or.inl ⟨hMem, rfl⟩
  | nil =>
    obtain ⟨taken, hTaken, hPrevious⟩ := h.taken
    rw [hRest, List.append_nil] at hTaken
    have hLast : s.previous = (seg.tokens.getLast (List.cons_ne_nil _ _)).span := by
      refine hPrevious _ ?_
      rw [← hTaken]
      exact List.getLast?_eq_some_getLast (List.cons_ne_nil _ _)
    refine Or.inr ⟨by rw [State.current_nil hRest, h.terminator], ?_⟩
    simp only [State.current_nil hRest, h.terminator, hLast]

theorem invariant_traces (hTokens : ∀ t ∈ seg.tokens, t.isEnd = false)
    (hTerminator : seg.terminator.kind.IsEnd) : Invariant seg.Traces where
  terminator hs := hs.terminator ▸ hTerminator
  take {s t rest} hs hNext _ := by
    obtain ⟨taken, hTaken, -⟩ := hs.taken
    refine ⟨⟨taken ++ [t], ?_, ?_⟩, hs.terminator, hs.error⟩
    · rw [hTaken, hNext, List.append_assoc]
      rfl
    · intro u hu
      rw [List.getLast?_concat] at hu
      obtain rfl := Option.some.inj hu
      rfl
  unexpected expected hs := hs.note fun _ => hs.reports_unexpected expected hTokens
  untyped hs hNext hKind hNamed hu :=
    hu.note fun hNone => hs.reports_untyped hNext hKind (hNamed hNone)
  declare _ _ hu := ⟨hu.taken, hu.terminator, hu.error⟩
  countPlaceholder hs := ⟨hs.taken, hs.terminator, hs.error⟩

/-- An error of a segment is reported at a token of it, or behind its last one at the end of the
text. -/
theorem reports_of_read (hTokens : ∀ t ∈ seg.tokens, t.isEnd = false)
    (hTerminator : seg.terminator.kind.IsEnd) (bindings : Bindings) {e : ParseError}
    (hError : (seg.read bindings).1.error = some e) : seg.Reports e := by
  have hStart : seg.Traces (seg.start bindings) :=
    ⟨⟨[], rfl, fun t ht => nomatch ht⟩, rfl, fun e' he' => nomatch he'⟩
  exact ((invariant_traces hTokens hTerminator).run_statement _ hStart).error e hError

end Segment

/-! ## In a text -/

/-- A text has the token that an error names, and the error is reported where that token starts; an
error at the end of the text is reported where its last token ends, and one about a parameter at the
`@` in front of the parameter's name. -/
def ParseError.ReportedIn (text : String) (e : ParseError) : Prop :=
  match e.cause with
  | .unexpected _ found =>
    if found.isEnd then
      (tokensOf text).getLast?.map (·.span.last) = some e.position ∧ e.found? = some "EOF"
    else found ∈ tokensOf text ∧ e.position = found.span.first ∧ e.found? = some found.text
  | .untypedParameter name => ∃ mark named, [mark, named] <:+: tokensOf text ∧
    mark.kind = .symbol .atSign ∧ nameOf? named = some name ∧ e.position = mark.span.first

/-- A token of a text is named by its source text. -/
theorem Token.described_of_mem {text : String} {t : Token} (h : t ∈ tokensOf text) :
    t.described = t.text := by
  have hPlaced := placed_tokensOf text t h
  obtain ⟨after, hStands⟩ := hPlaced.stands
  have hLast := hStands.last_eq
  have hNonempty := hPlaced.nonempty
  have hText : t.text.isEmpty = false := by
    rw [Bool.eq_false_iff]
    intro hEmpty
    rw [String.isEmpty_iff.mp hEmpty] at hLast
    simp at hLast
    omega
  unfold Token.described
  split
  · next hKind => exact absurd hKind hPlaced.kind
  · rw [if_neg (by simp [hText])]

/-- A segment that the text ends with has the last token of the text. -/
theorem Segment.StandsIn.getLast? {text : String} {seg : Segment}
    (h : seg.StandsIn (tokensOf text ++ [.endOfInput (endOf text)]))
    (hEnd : seg.terminator.isEnd = true) :
    (tokensOf text).getLast? = some (seg.tokens.getLast (List.cons_ne_nil _ _)) := by
  obtain ⟨before, after, hTokens, -, hTerminator⟩ := h
  have hSemicolon : isSemicolon seg.terminator ≠ true := by
    simp [isSemicolon, isEnd_iff.mp hEnd]
  obtain ⟨-, rfl⟩ := hTerminator.resolve_left hSemicolon
  have hInit := congrArg List.dropLast hTokens
  rw [List.dropLast_concat, ← List.append_assoc, List.dropLast_concat] at hInit
  rw [hInit, List.getLast?_append, show seg.tokens.getLast? = _ from
    List.getLast?_eq_some_getLast (List.cons_ne_nil _ _)]
  rfl

/-- An error in a segment of a text is reported in the text. -/
theorem Segment.Reports.reportedIn {text : String} {seg : Segment} {e : ParseError}
    (hSegment : seg ∈ segments text) (h : seg.Reports e) : e.ReportedIn text := by
  have hStands := segments_standsIn text seg hSegment
  have hMem : ∀ t ∈ seg.tokens, t ∈ tokensOf text := fun t => segments_mem hSegment
  have hFound : ∀ found ∈ tokensOf text, ∀ expected p,
      found.isEnd = false ∧ found ∈ tokensOf text ∧
        (ParseError.mk p (.unexpected expected found)).found? = some found.text :=
    fun found hFound expected p => ⟨isEnd_tokensOf text found hFound, hFound,
      congrArg some (Token.described_of_mem hFound)⟩
  obtain ⟨position, cause⟩ := e
  cases cause with
  | untypedParameter name =>
    obtain ⟨mark, named, hInfix, hReport⟩ := h
    exact ⟨mark, named, hInfix.trans (infix_of_mem_segments hSegment), hReport⟩
  | unexpected expected found =>
    rcases h with ⟨ht, hPosition⟩ | ⟨rfl, hPosition⟩
    · obtain ⟨hEnd, hText, hDescribed⟩ := hFound found (hMem found ht) expected position
      simp only [ParseError.ReportedIn, hEnd]
      exact ⟨hText, hPosition, hDescribed⟩
    · cases hEnd : seg.terminator.isEnd with
      | true =>
        rw [hEnd, if_pos rfl] at hPosition
        simp only [ParseError.ReportedIn, hEnd, if_pos, hStands.getLast? hEnd]
        refine ⟨congrArg some hPosition.symm, congrArg some ?_⟩
        simp only [Token.described, isEnd_iff.mp hEnd]
      | false =>
        have hSemicolon : isSemicolon seg.terminator = true := by
          obtain ⟨_, _, _, _, hTerminator⟩ := hStands
          exact hTerminator.resolve_right fun hAtEnd => nomatch hEnd.symm.trans hAtEnd.1
        have hTerminator := segments_terminator_mem hSegment hSemicolon
        obtain ⟨-, hText, hDescribed⟩ := hFound _ hTerminator expected position
        rw [hEnd, if_neg (by simp)] at hPosition
        simp only [ParseError.ReportedIn, hEnd]
        exact ⟨hText, hPosition, hDescribed⟩

/-- Each reading is that of a segment, from some declared types. -/
theorem mem_readSegments {scope : ParameterScope} {bindings : Bindings} {segs : List Segment}
    {r : Reading} (h : r ∈ readSegments scope bindings segs) :
    ∃ seg ∈ segs, ∃ bindings, r = (seg.read bindings).1 := by
  induction segs generalizing bindings with
  | nil => cases h
  | cons seg segs ih =>
    rcases List.mem_cons.mp h with rfl | h
    · exact ⟨seg, List.mem_cons_self, bindings, rfl⟩
    · obtain ⟨seg', hMem, b, rfl⟩ := ih h
      exact ⟨seg', List.mem_cons_of_mem _ hMem, b, rfl⟩

/-- Every error of a text is reported at one of its tokens or at its end. -/
theorem reportedIn_of_mem {options : ParseOptions} {text : String} {e : ParseError}
    (h : e ∈ (parse options text).errors) : e.ReportedIn text := by
  rw [parse_eq] at h
  obtain ⟨r, hr, hError⟩ := List.mem_filterMap.mp h
  obtain ⟨seg, hSegment, bindings, rfl⟩ := mem_readSegments hr
  have hInside : ∀ t ∈ seg.tokens, t.isEnd = false := fun t ht =>
    isEnd_tokensOf text t (segments_mem hSegment ht)
  exact (Segment.reports_of_read hInside (segments_isEnd hSegment) bindings hError).reportedIn
    hSegment

/-- What is reported in a text stands at the line and column of its offset. -/
theorem ParseError.ReportedIn.position_eq {text : String} {e : ParseError}
    (h : e.ReportedIn text) : e.position = .ofOffset text.toList e.position.offset := by
  have hBounded : ∀ t ∈ tokensOf text, t.Bounded text.toList := fun t ht =>
    bounded_tokenize text t (List.mem_append_left _ ht)
  obtain ⟨position, cause⟩ := e
  cases cause with
  | untypedParameter name =>
    obtain ⟨mark, named, hInfix, -, -, rfl⟩ := h
    exact (hBounded mark (hInfix.subset List.mem_cons_self)).first
  | unexpected expected found =>
    simp only [ReportedIn] at h
    split at h
    · obtain ⟨t, ht, rfl⟩ := Option.map_eq_some_iff.mp h.1
      exact (hBounded t (List.mem_of_getLast? ht)).last
    · obtain ⟨ht, rfl, -⟩ := h
      exact (hBounded found ht).first

/-- **Lines and columns agree with offsets.** Every token of a text, its end included, starts and
ends at the line and column of its offset. However the text is read, the same holds of every error;
an error that names a token is reported where this token starts and shows its source text, an error
at the end of the text is reported where the last token ends, and a parameter without a type at the
`@` in front of its name. -/
theorem parse_places (options : ParseOptions) (text : String) :
    (∀ t ∈ (Lexer.ofString text).tokenize.1, t.Bounded text.toList) ∧
      ∀ e ∈ (parse options text).errors,
        e.position = .ofOffset text.toList e.position.offset ∧ e.ReportedIn text :=
  ⟨bounded_tokenize text, fun _ h => ⟨(reportedIn_of_mem h).position_eq, reportedIn_of_mem h⟩⟩

end SqlKit
