import SqlKit.Proofs.Batch.ErrorPlaces
import SqlKit.Proofs.Batch.Joining
import SqlKit.Proofs.Batch.Unbounded
import SqlKit.Proofs.Completion.Statement

/-!
# No error is reported too late

What stands in front of an error is the beginning of a statement: with other tokens behind it, it is
read without an error (`parse_correct_prefix`). So no reader goes on where nothing could help any
more.
-/

namespace SqlKit

open Grammar

namespace Segment

variable {seg : Segment} {bindings : Bindings} {e : ParseError}

/-- The tokens of a segment in front of a place. -/
def before (seg : Segment) (p : Position) : List Token :=
  seg.tokens.filter fun t => t.span.first.offset < p.offset

/-- Some tokens, with others behind them, are a statement without an error in place of a segment. -/
def Completable (seg : Segment) (bindings : Bindings) (ts : List Token) : Prop :=
  ∃ (whole : Segment) (more : List Token), whole.tokens = ts ++ more ∧
    (∀ t ∈ more, ¬ t.kind.IsEnd) ∧ whole.terminator = seg.terminator ∧
    (whole.read bindings).1.error = none

/-- A segment is read by the readers that come back to themselves without a bound. -/
theorem error_read (hEnd : seg.terminator.kind.IsEnd) (bindings : Bindings) :
    (seg.read bindings).1.error =
      ((statement Rules.unbounded).run (seg.start bindings)).2.error := by
  rw [seg.read_eq hEnd]
  rfl

theorem completable_of_finishes {p : Profile} {s : State} {ts more : List Token} {first : Token}
    {rest : List Token} (hEnd : seg.terminator.kind.IsEnd) (hTokens : ts ++ more = first :: rest)
    (hInside : Inside more)
    (hStart : s.withTokens (ts ++ more) = (Segment.mk first rest seg.terminator).start bindings)
    (h : Finishes p (statement Rules.unbounded) s (ts ++ more)) :
    seg.Completable bindings ts := by
  obtain ⟨a, s', hNone, -, hRun⟩ := h
  have hWhole := hRun [] p.meets_nil
  rw [List.append_nil, hStart] at hWhole
  refine ⟨⟨first, rest, seg.terminator⟩, more, hTokens.symm, hInside, rfl, ?_⟩
  have hSame := @error_read ⟨first, rest, seg.terminator⟩ hEnd bindings
  rw [hSame, hWhole]
  exact hNone

/-- Where an error is reported, the tokens in front of it can be completed. -/
theorem exists_completable (hEnd : seg.terminator.kind.IsEnd)
    (hError : (seg.read bindings).1.error = some e) :
    ∃ ts rest, seg.tokens = ts ++ rest ∧ ((seg.start bindings).skip ts rest).Reports e ∧
      seg.Completable bindings ts := by
  have hViable := viable_statement (Rules.unbounded_unbounded.viable (n := seg.tokens.length))
  have hStart : Fewer (seg.tokens.length + 1) (seg.start bindings) :=
    ⟨⟨hEnd, rfl⟩, Nat.lt_succ_self _⟩
  rw [error_read hEnd] at hError
  obtain ⟨ts, rest, hBreaks⟩ := (hViable.sound _ hStart).stop e hError
  refine ⟨ts, rest, hBreaks.tokens, hBreaks.place, ?_⟩
  cases ts with
  | nil =>
    have hReady := hViable.ready (Nat.succ_pos _)
    have hIntact : Intact ((Segment.mk (sample (.keyword .SELECT)) [sample (.keyword .NULL)]
      seg.terminator).start bindings) := ⟨hEnd, rfl⟩
    exact completable_of_finishes hEnd rfl hReady.inside rfl (hReady.finishes _ hIntact)
  | cons t ts =>
    obtain ⟨more, hInside, hFinish⟩ := hBreaks.done (List.cons_ne_nil _ _)
    obtain rfl : seg.first = t := (List.cons.inj hBreaks.tokens).1
    exact completable_of_finishes hEnd rfl hInside rfl hFinish

/-! ## Places -/

/-- A segment of tokens that are no ends and that have some text each. -/
structure Proper (seg : Segment) : Prop extends seg.Ordered where
  inside : ∀ t ∈ seg.tokens, t.isEnd = false
  nonempty : ∀ t ∈ seg.tokens, t.span.first.offset < t.span.last.offset

theorem proper_of_mem {text : String} (h : seg ∈ segments text) : seg.Proper where
  toOrdered := (segments_pairwise text).1 seg h
  inside t ht := isEnd_tokensOf text t (segments_mem h ht)
  nonempty t ht := (placed_tokensOf text t (segments_mem h ht)).nonempty

theorem before_eq {p : Position} {ts rest : List Token} (hTokens : seg.tokens = ts ++ rest)
    (hts : ∀ t ∈ ts, t.span.first.offset < p.offset)
    (hRest : ∀ t ∈ rest, p.offset ≤ t.span.first.offset) : seg.before p = ts := by
  have hTaken : ts.filter (fun t => t.span.first.offset < p.offset) = ts :=
    List.filter_eq_self.mpr fun t ht => decide_eq_true (hts t ht)
  have hLeft : rest.filter (fun t => t.span.first.offset < p.offset) = [] :=
    List.filter_eq_nil_iff.mpr fun t ht => by simpa using hRest t ht
  rw [before, hTokens, List.filter_append, hTaken, hLeft, List.append_nil]

/-- In front of the place of an error behind some tokens stand these tokens. -/
theorem Proper.before_errorPosition (h : seg.Proper) (bindings : Bindings) {ts rest : List Token}
    (hTokens : seg.tokens = ts ++ rest) :
    seg.before ((seg.start bindings).skip ts rest).errorPosition = ts := by
  obtain ⟨hOrder, -, hEnd⟩ := List.pairwise_append.mp h.pairwise
  have hNonempty := h.nonempty
  rw [hTokens] at hOrder hEnd hNonempty
  obtain ⟨hTaken, hRest, hBoth⟩ := List.pairwise_append.mp hOrder
  cases rest with
  | cons t rest =>
    have hPosition : ((seg.start bindings).skip ts (t :: rest)).errorPosition = t.span.first := by
      rw [State.errorPosition, State.current_cons rfl, h.inside t (by rw [hTokens]; simp)]
      rfl
    rw [hPosition]
    refine before_eq hTokens (fun u hu => ?_) (fun u hu => ?_)
    · exact Nat.lt_of_lt_of_le (hNonempty u (List.mem_append_left _ hu))
        (hBoth u hu t List.mem_cons_self)
    · rcases List.mem_cons.mp hu with rfl | hu
      · exact Nat.le_refl _
      · exact Nat.le_trans (Nat.le_of_lt (hNonempty t (by simp)))
          ((List.pairwise_cons.mp hRest).1 u hu)
  | nil =>
    rw [List.append_nil] at hTokens hEnd hNonempty
    refine before_eq (hTokens.trans (List.append_nil ts).symm) (fun u hu => ?_) (by simp)
    rw [State.errorPosition, State.current_nil rfl]
    split
    · -- the last token ends behind the start of every token
      obtain rfl | ⟨init, last, rfl⟩ := ts.eq_nil_or_concat'
      · cases hu
      · have hLast : ((seg.start bindings).skip (init ++ [last]) []).previous = last.span := by
          rw [State.skip, List.getLast?_concat]
          rfl
        have hSelf := hNonempty last (by simp)
        rw [hLast]
        rcases List.mem_append.mp hu with hInit | hLast
        · exact Nat.lt_of_lt_of_le (hNonempty u hu) (Nat.le_trans
            ((List.pairwise_append.mp hTaken).2.2 u hInit last (List.mem_singleton_self _))
            (Nat.le_of_lt hSelf))
        · rwa [List.mem_singleton.mp hLast]
    · exact Nat.lt_of_lt_of_le (hNonempty u hu) (hEnd u hu _ (List.mem_singleton_self _))

end Segment

/-! ## In a text -/

/-- Each reading is that of a segment, from the types declared in front of it. -/
theorem exists_of_mem_readSegments {scope : ParameterScope} {bindings : Bindings}
    {segs : List Segment} {r : Reading} (h : r ∈ readSegments scope bindings segs) :
    ∃ before seg after, segs = before ++ seg :: after ∧
      r = (seg.read (bindingsAfter scope bindings before)).1 := by
  induction segs generalizing bindings with
  | nil => cases h
  | cons seg segs ih =>
    rcases List.mem_cons.mp h with rfl | h
    · exact ⟨[], seg, segs, rfl, rfl⟩
    · obtain ⟨before, seg', after, rfl, rfl⟩ := ih h
      exact ⟨seg :: before, seg', after, rfl, rfl⟩

/-- An error of a text is that of one of its segments, read from the types that are declared in
front of it. The token that the error names is the first one that does not stand in front of its
place, and the tokens that do can be completed. -/
def ParseError.Prompt (options : ParseOptions) (text : String) (e : ParseError) : Prop :=
  ∃ before seg after, segments text = before ++ seg :: after ∧
    (seg.read (bindingsAfter options.scope [] before)).1.error = some e ∧
    (∃ rest, seg.tokens = seg.before e.position ++ rest ∧ ∀ expected found,
      e.cause = .unexpected expected found → (rest ++ [seg.terminator]).head? = some found) ∧
    seg.Completable (bindingsAfter options.scope [] before) (seg.before e.position)

/-- **No error is reported too late.** However a text is read, what stands in front of an error is
the beginning of a statement: with some tokens behind it, and read from the same types, it is read
without an error. -/
theorem parse_correct_prefix {options : ParseOptions} {text : String} {e : ParseError}
    (h : e ∈ (parse options text).errors) : e.Prompt options text := by
  rw [parse_eq] at h
  obtain ⟨r, hr, hError⟩ := List.mem_filterMap.mp h
  obtain ⟨before, seg, after, hSegments, rfl⟩ := exists_of_mem_readSegments hr
  have hMem : seg ∈ segments text := by
    rw [hSegments]
    simp
  have hProper := Segment.proper_of_mem hMem
  have hEnd := segments_isEnd hMem
  obtain ⟨ts, rest, hTokens, hReports, hCompletable⟩ := Segment.exists_completable hEnd hError
  have hBefore : seg.before e.position = ts :=
    hReports.position ▸ hProper.before_errorPosition _ hTokens
  refine ⟨before, seg, after, hSegments, hError, ⟨rest, hBefore ▸ hTokens, fun _ _ hCause => ?_⟩,
    hBefore ▸ hCompletable⟩
  rw [hReports.found _ _ hCause]
  cases rest <;> rfl

/-- A word `COLUMN` at the end is the name of the column, and its type is missing. -/
theorem prompt_columnName :
    ∃ e ∈ (parse .standard "SELECT 1; ALTER TABLE t ALTER COLUMN").errors,
      e.Prompt .standard "SELECT 1; ALTER TABLE t ALTER COLUMN" := by
  have hError : (⟨⟨36, 1, 37⟩, .unexpected (.name .type) (.endOfInput ⟨36, 1, 37⟩)⟩ : ParseError) ∈
      (parse .standard "SELECT 1; ALTER TABLE t ALTER COLUMN").errors := by decide +kernel
  exact ⟨_, hError, parse_correct_prefix hError⟩

end SqlKit
