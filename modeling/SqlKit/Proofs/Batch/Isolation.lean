import SqlKit.Proofs.Batch.Segments
import SqlKit.Proofs.Grammar.Unbounded
import SqlKit.Proofs.Simulation.Statement
import SqlKit.Proofs.Syntax.Unerased
import Mathlib.Data.List.TakeWhile

/-!
# Statements are read one by one

The loop over a text reads each statement from the tokens of the whole text. Its readers see the
semicolon behind the statement and the tokens behind that, the last token of the statement before,
and the errors noted so far. None of this counts: a round of the loop takes the tokens of one
segment and makes of them what reading the segment for itself makes of it.

* `Segment.FitsIn.simulation`: the reading of a segment for itself, and of the same segment in front
  of other tokens, side by side. No reader takes a semicolon.
* `Segment.FitsIn.readStatement`: a statement, read in a round of the loop.
* `Progress.result_finish`, by induction on the rounds, and `parse_eq`: all statements of a text.
-/

namespace SqlKit

open Grammar

/-! ## A segment among other tokens -/

theorem Segment.Ordered.isEnd {seg : Segment} (h : seg.Ordered) : seg.terminator.kind.IsEnd :=
  h.terminator.imp isSemicolon_iff.mp isEnd_iff.mp

/-- Behind a segment its statement ends. -/
theorem segments_isEnd {text : String} {seg : Segment} (hs : seg ∈ segments text) :
    seg.terminator.kind.IsEnd := ((segments_pairwise text).1 seg hs).isEnd

/-- A segment fits in front of some tokens of a text that has this end: its terminator is the next
one of them. -/
structure Segment.FitsIn (seg : Segment) (tail : List Token) (finish : Token) : Prop where
  ordered : seg.Ordered
  nonempty : ∀ t ∈ seg.tokens, t.span.first.offset < t.span.last.offset
  inside : ∀ t ∈ seg.tokens, ¬ t.kind.IsEnd
  terminator : tail.headD finish = seg.terminator

/-- The state `s` of reading a segment for itself, and the state `t` of reading it in front of other
tokens, where some errors were noted before. -/
structure Segment.Matches (seg : Segment) (tail : List Token) (finish : Token)
    (errors : List ParseError) (s t : State) : Prop where
  suffix : s.tokens <:+ seg.tokens
  tokens : t.tokens = s.tokens ++ tail
  terminator : s.terminator = seg.terminator
  finish : t.terminator = finish
  errors : t.errors = errors ++ s.errors
  failed : t.failed = s.failed
  bindings : t.bindings = s.bindings
  placeholders : t.placeholders = s.placeholders
  /-- Before the first token is taken, some token of another statement was the last one. -/
  previous : t.previous = s.previous ∨ s.tokens = seg.tokens ∧
    s.previous = ⟨seg.first.span.first, seg.first.span.first⟩ ∧
    t.previous.first.offset ≤ seg.first.span.first.offset ∧
    t.previous.last.offset ≤ seg.first.span.first.offset

/-- A span is not widened by a token that starts before it, or ends before its end. -/
theorem Grammar.State.spanFrom_eq_self {s : State} {first : Span}
    (hBehind : s.previous.first.offset < first.first.offset ∨
      s.previous.last.offset < first.last.offset) :
    s.spanFrom first = first := by
  unfold State.spanFrom
  split
  · rfl
  · next hBefore =>
    have hStart : first.first.offset ≤ s.previous.first.offset := Nat.not_lt.mp hBefore
    have hEnd : s.previous.last.offset < first.last.offset := hBehind.resolve_left hBefore
    rw [Span.merge, if_pos hStart, if_pos hEnd]

namespace Segment

variable {seg : Segment} {tail : List Token} {finish : Token} {errors : List ParseError}
  {s t u v : State}

namespace Matches

theorem take (h : seg.Matches tail finish errors s t) {a : Token} {as : List Token}
    (hTokens : s.tokens = a :: as) :
    seg.Matches tail finish errors (s.take a as) (t.take a (as ++ tail)) where
  suffix := (List.suffix_cons a as).trans (hTokens ▸ h.suffix)
  tokens := rfl
  terminator := h.terminator
  finish := h.finish
  errors := h.errors
  failed := h.failed
  bindings := h.bindings
  placeholders := h.placeholders
  previous := Or.inl rfl

theorem note (h : seg.Matches tail finish errors s t) (e : ParseError) :
    seg.Matches tail finish errors (s.note e) (t.note e) where
  suffix := by rw [State.note_tokens]; exact h.suffix
  tokens := by rw [State.note_tokens, State.note_tokens]; exact h.tokens
  terminator := by rw [State.note_terminator]; exact h.terminator
  finish := by rw [State.note_terminator]; exact h.finish
  errors := by
    rw [State.errors_note, State.errors_note, h.failed, h.errors]
    split
    · rfl
    · exact List.append_assoc _ _ _
  failed := by rw [State.note_failed, State.note_failed]
  bindings := by rw [State.note_bindings, State.note_bindings]; exact h.bindings
  placeholders := by rw [State.note_placeholders, State.note_placeholders]; exact h.placeholders
  previous := by
    rw [State.note_previous, State.note_previous, State.note_tokens]
    exact h.previous

theorem declare (h : seg.Matches tail finish errors s t) (name typeName : String) :
    seg.Matches tail finish errors (s.declare name typeName) (t.declare name typeName) :=
  { h with bindings := congrArg (List.cons (name, typeName)) h.bindings }

theorem countPlaceholder (h : seg.Matches tail finish errors s t) :
    seg.Matches tail finish errors s.countPlaceholder t.countPlaceholder :=
  { h with placeholders := congrArg Nat.succ h.placeholders }

end Matches

namespace FitsIn

variable (hFits : seg.FitsIn tail finish)
include hFits

theorem terminator_isEnd : seg.terminator.kind.IsEnd := hFits.ordered.isEnd

/-- The next token is the same. Behind the last token of the segment it is the terminator. -/
theorem current_eq (h : seg.Matches tail finish errors s t) : t.current = s.current := by
  cases hTokens : s.tokens with
  | nil =>
    have hTail : t.tokens = tail := by rw [h.tokens, hTokens, List.nil_append]
    rw [State.current_nil hTokens, h.terminator, ← hFits.terminator, State.current, hTail, h.finish]
  | cons a as =>
    have hRest : t.tokens = a :: (as ++ tail) := by rw [h.tokens, hTokens, List.cons_append]
    rw [State.current_cons hTokens, State.current_cons hRest]

/-- The next token is one of the segment, or stands behind its first one. -/
theorem current_behind (h : seg.Matches tail finish errors s t) :
    seg.first.span.first.offset < s.current.span.first.offset ∨
      seg.first.span.first.offset < s.current.span.last.offset := by
  have hFirst := hFits.nonempty seg.first List.mem_cons_self
  have hMem : s.current ∈ seg.tokens ++ [seg.terminator] := by
    cases hTokens : s.tokens with
    | nil => simp [State.current_nil hTokens, h.terminator]
    | cons a as =>
      rw [State.current_cons hTokens]
      exact List.mem_append_left _ (h.suffix.subset (hTokens ▸ List.mem_cons_self))
  rcases List.mem_cons.mp hMem with hCurrent | hCurrent
  · exact Or.inr (hCurrent ▸ hFirst)
  · have hBehind := List.rel_of_pairwise_cons hFits.ordered.pairwise hCurrent
    exact Or.inl (by omega)

/-- Where nothing was taken yet, the text does not end. -/
theorem isEnd_current (hStart : s.tokens = seg.tokens) : s.current.isEnd = false := by
  rw [State.current_cons hStart, Bool.eq_false_iff]
  exact fun hEnd => hFits.inside seg.first List.mem_cons_self (Or.inr (isEnd_iff.mp hEnd))

theorem errorPosition_eq (h : seg.Matches tail finish errors s t) :
    t.errorPosition = s.errorPosition := by
  unfold State.errorPosition
  rw [hFits.current_eq h]
  rcases h.previous with hPrevious | ⟨hStart, -⟩
  · rw [hPrevious]
  · rw [hFits.isEnd_current hStart]
    rfl

theorem spanFrom_eq (h : seg.Matches tail finish errors s t)
    (hu : seg.Matches tail finish errors u v) :
    u.spanFrom s.current.span = v.spanFrom t.current.span := by
  rw [hFits.current_eq h]
  have hBehind := hFits.current_behind h
  rcases hu.previous with hPrevious | ⟨-, hPrevious, hFirst, hLast⟩
  · rw [State.spanFrom, State.spanFrom, hPrevious]
  · have hSelf : u.spanFrom s.current.span = s.current.span :=
      State.spanFrom_eq_self (by rw [hPrevious]; exact hBehind)
    have hOther : v.spanFrom s.current.span = s.current.span :=
      State.spanFrom_eq_self (by omega)
    rw [hSelf, hOther]

end FitsIn

/-- A segment read for itself, and read in front of other tokens. -/
def FitsIn.simulation (hFits : seg.FitsIn tail finish) (errors : List ParseError) :
    Simulation Erasure.nothing where
  state := seg.Matches tail finish errors
  lower := @lower_of_nothing
  append := @append_of_nothing
  ends h hEnd := by rwa [hFits.current_eq h]
  cons := by
    intro s t h hNext
    obtain ⟨a, as, hTokens⟩ :=
      State.exists_cons (by rw [h.terminator]; exact hFits.terminator_isEnd) hNext
    exact ⟨a, as, a, as ++ tail, hTokens, by rw [h.tokens, hTokens, List.cons_append],
      ⟨rfl, rfl⟩, h.take hTokens⟩
  touches := by
    intro s t a b c d as bs n h hs ht _ _
    rw [h.tokens, hs, List.cons_append, List.cons_append] at ht
    obtain ⟨rfl, hRest⟩ := List.cons.inj ht
    obtain ⟨rfl, -⟩ := List.cons.inj hRest
    rfl
  spanFrom h hu := hFits.spanFrom_eq h hu
  unexpected expected h := by
    rw [hFits.errorPosition_eq h, hFits.current_eq h]
    exact h.note _
  untyped := by
    rintro s t u v a b as bs m _ h hs ht - - hu rfl
    rw [h.tokens, hs, List.cons_append] at ht
    obtain ⟨rfl, -⟩ := List.cons.inj ht
    exact hu.note _
  declare := by
    intro s t u v x y _ _ _ hu hName hType
    rw [show x.name = y.name from hName, show x.typeName = y.typeName from hType]
    exact hu.declare _ _
  lookup name h := by rw [h.bindings]
  placeholders h := h.placeholders.symm
  countPlaceholder h := h.countPlaceholder

end Segment

/-! ## A statement in a round of the loop -/

/-- What is noted while one statement is read: nothing, or one error. -/
theorem Grammar.Moves.errors_eq {s t : State} (h : Moves s t) (hStart : s.failed = false) :
    t.errors = s.errors ++ t.error.toList := by
  induction h with
  | refl => simp [State.error_eq_none.mpr hStart]
  | @tail t u _ m ih =>
    have hNote : ∀ e, (t.note e).errors = s.errors ++ (t.note e).error.toList := by
      intro e
      rw [State.errors_note, State.error_note, ih]
      cases hFailed : t.failed with
      | true =>
        obtain ⟨e', hError⟩ := Option.isSome_iff_exists.mp (t.error_isSome.trans hFailed)
        simp [hError]
      | false => simp [State.error_eq_none.mpr hFailed]
    cases m with
    | unexpected | untyped => exact hNote _
    | take | declare | countPlaceholder => exact ih

/-- At the end of a statement no token is left in front of that end. -/
theorem Grammar.State.dropWhile_of_atEnd {s : State} (h : s.atEnd = true) :
    (s.tokens.dropWhile fun t => !endsStatement t) = s.tokens := by
  cases hTokens : s.tokens with
  | nil => rfl
  | cons t rest =>
    rw [atEnd, current_cons hTokens] at h
    exact List.dropWhile_cons_of_neg (by simp [h])

/-- Behind a statement nothing is left of it, whether it failed or not. -/
theorem Grammar.State.exists_readStatement (scope : ParameterScope) (s : State) :
    let read := (statement (.forTokens s.tokens.length)).run (s.begin scope)
    ∃ previous, s.readStatement scope = (read.1,
      { read.2 with tokens := read.2.tokens.dropWhile fun t => !endsStatement t, previous }) := by
  intro read
  unfold readStatement
  dsimp only
  split
  · obtain ⟨previous, hSkip⟩ := Parse.exists_run_skipWhile (fun t => !endsStatement t) read.2
    exact ⟨previous, congrArg (Prod.mk read.1) hSkip⟩
  · next hFailed =>
    have hEnd : read.2.atEnd = true := atEnd_statement _ (Bool.eq_false_iff.mpr hFailed)
    refine ⟨read.2.previous, ?_⟩
    rw [dropWhile_of_atEnd hEnd]

namespace Segment

variable {seg : Segment} {tail : List Token} {finish : Token} {errors : List ParseError} {t : State}

/-- Where the reading of a segment starts, for itself and in a text. -/
theorem Matches.start (hTokens : t.tokens = seg.tokens ++ tail) (hFailed : t.failed = false)
    (hPlaceholders : t.placeholders = 0)
    (hFirst : t.previous.first.offset ≤ seg.first.span.first.offset)
    (hLast : t.previous.last.offset ≤ seg.first.span.first.offset) :
    seg.Matches tail t.terminator t.errors (seg.start t.bindings) t where
  suffix := List.suffix_rfl
  tokens := hTokens
  terminator := rfl
  finish := rfl
  errors := (List.append_nil _).symm
  failed := hFailed
  bindings := rfl
  placeholders := hPlaceholders
  previous := Or.inr ⟨rfl, rfl, hFirst, hLast⟩

/-- Both readings make the same statement. The bound of the recursion is that for the whole text in
the one and that for the segment in the other. -/
theorem FitsIn.run_statement (hFits : seg.FitsIn tail finish) (bindings : Bindings)
    (h : seg.Matches tail finish errors (seg.start bindings) t) :
    let alone := (statement (.forTokens seg.tokens.length)).run (seg.start bindings)
    let among := (statement (.forTokens t.tokens.length)).run t
    among.1 = alone.1 ∧ seg.Matches tail finish errors alone.2 among.2 := by
  intro alone among
  have hLength : seg.tokens.length ≤ t.tokens.length := by
    rw [h.tokens, List.length_append]
    exact Nat.le_add_right _ _
  have hBound : (Rules.forTokens seg.tokens.length).SameBelow seg.tokens.length
      (.forTokens t.tokens.length) :=
    Rules.sameBelow_upTo (Nat.le_succ _) (Nat.le_succ_of_le hLength)
  have hAlone : alone = (statement (.forTokens t.tokens.length)).run (seg.start bindings) :=
    sameBelow_statement hBound _ hFits.terminator_isEnd (Nat.lt_succ_self _)
  obtain ⟨hLike, hMatches⟩ :=
    similar_statement (keep_upTo (hFits.simulation errors) (t.tokens.length + 1)) h
  rw [hAlone]
  exact ⟨(Statement.eq_of_like_nothing hLike).symm, hMatches⟩

/-- What a round of the loop makes of a segment: what reading it for itself makes of it. -/
structure ReadAs (reading : Reading × Bindings) (tail : List Token) (t : State)
    (after : Statement × State) : Prop where
  statement : after.1 = reading.1.statement
  tokens : after.2.tokens = tail
  failed : after.2.failed = reading.1.error.isSome
  errors : after.2.errors = t.errors ++ reading.1.error.toList
  bindings : after.2.bindings = reading.2

/-- Going on to the end of the statement. -/
theorem FitsIn.tokens_end (hFits : seg.FitsIn tail finish) {s : State}
    (h : seg.Matches tail finish errors s t) :
    (t.tokens.dropWhile fun u => !endsStatement u) = tail := by
  have hInside : ∀ u ∈ s.tokens, (!endsStatement u) = true := by
    intro u hu
    rw [Bool.not_eq_true', Bool.eq_false_iff, ne_eq, endsStatement_iff]
    exact hFits.inside u (h.suffix.subset hu)
  rw [h.tokens, List.dropWhile_append_of_pos hInside]
  cases hTail : tail with
  | nil => rfl
  | cons u rest =>
    have hTerminator : u = seg.terminator := by rw [← hFits.terminator, hTail, List.headD_cons]
    have hEnd : endsStatement u = true :=
      endsStatement_iff.mpr (hTerminator ▸ hFits.terminator_isEnd)
    exact List.dropWhile_cons_of_neg (by simp [hEnd])

theorem FitsIn.readStatement (hFits : seg.FitsIn tail t.terminator)
    (hTokens : t.tokens = seg.tokens ++ tail)
    (hFirst : t.previous.first.offset ≤ seg.first.span.first.offset)
    (hLast : t.previous.last.offset ≤ seg.first.span.first.offset) (scope : ParameterScope) :
    ReadAs (seg.read (scope.handOn t.bindings)) tail t (t.readStatement scope) := by
  have hStart := Matches.start (t := t.begin scope) hTokens rfl rfl hFirst hLast
  obtain ⟨hStatement, hMatches⟩ := hFits.run_statement _ hStart
  obtain ⟨previous, hRead⟩ := t.exists_readStatement scope
  rw [hRead]
  exact {
    statement := hStatement
    tokens := hFits.tokens_end hMatches
    failed := by rw [Segment.read, State.error_isSome]; exact hMatches.failed
    errors := hMatches.errors.trans (congrArg _ (Moves.errors_eq ((statement _).moves _) rfl))
    bindings := hMatches.bindings }

end Segment

/-! ## The segment that is next -/

/-- A segment that starts with a token, in front of others. -/
def Segment.next (finish first : Token) (rest : List Token) : Segment :=
  ⟨first, rest.takeWhile (!isSemicolon ·), (rest.dropWhile (!isSemicolon ·)).headD finish⟩

theorem Segment.tokens_next (finish first : Token) (rest : List Token) :
    first :: rest = (next finish first rest).tokens ++ rest.dropWhile (!isSemicolon ·) := by
  rw [tokens, List.cons_append, next, List.takeWhile_append_dropWhile]

theorem segmentsFrom_cons (finish first : Token) (before rest : List Token) :
    segmentsFrom finish (first :: before) rest =
      ⟨first, before ++ rest.takeWhile (!isSemicolon ·),
        (rest.dropWhile (!isSemicolon ·)).headD finish⟩ ::
        segmentsFrom finish [] (rest.dropWhile (!isSemicolon ·)) := by
  induction rest generalizing before with
  | nil => simp [segmentsFrom, Segment.ofTokens?]
  | cons t rest ih =>
    rw [segmentsFrom]
    split
    · next hSemicolon =>
      rw [List.takeWhile_cons_of_neg (by simp [hSemicolon]),
        List.dropWhile_cons_of_neg (by simp [hSemicolon]), segmentsFrom, if_pos hSemicolon]
      simp [Segment.ofTokens?]
    · next hSemicolon =>
      rw [List.takeWhile_cons_of_pos (by simp [hSemicolon]),
        List.dropWhile_cons_of_pos (by simp [hSemicolon]), List.cons_append, ih]
      simp

/-- The first segment, and those behind it. -/
theorem segmentsFrom_next {finish first : Token} (hFirst : isSemicolon first = false)
    (rest : List Token) :
    segmentsFrom finish [] (first :: rest) = Segment.next finish first rest ::
      segmentsFrom finish [] (rest.dropWhile (!isSemicolon ·)) := by
  rw [segmentsFrom, if_neg (by simp [hFirst])]
  exact segmentsFrom_cons finish first [] rest

/-- Semicolons in front of the first segment are no part of any. -/
theorem segmentsFrom_dropWhile (finish : Token) (ts : List Token) :
    segmentsFrom finish [] (ts.dropWhile isSemicolon) = segmentsFrom finish [] ts := by
  induction ts with
  | nil => rfl
  | cons t ts ih =>
    cases hSemicolon : isSemicolon t with
    | true =>
      rw [List.dropWhile_cons_of_pos hSemicolon, ih, segmentsFrom, if_pos hSemicolon]
      rfl
    | false => rw [List.dropWhile_cons_of_neg (by simp [hSemicolon])]

/-- A state in the middle of a text: the tokens that are left are in order behind the one taken
last, and the end of the text is none of them. -/
structure Grammar.State.InOrder (s : State) : Prop where
  terminator : s.terminator.isEnd = true
  inside : ∀ t ∈ s.tokens, t.isEnd = false
  nonempty : ∀ t ∈ s.tokens, t.span.first.offset < t.span.last.offset
  previous : s.previous.first.offset ≤ s.previous.last.offset
  behind : ∀ t ∈ s.tokens, s.previous.last.offset ≤ t.span.first.offset
  pairwise : (s.tokens ++ [s.terminator]).Pairwise
    fun t u => t.span.last.offset ≤ u.span.first.offset

theorem Grammar.Moves.inOrder {s t : State} (h : Moves s t) (hs : s.InOrder) : t.InOrder := by
  induction h with
  | refl => exact hs
  | @tail t u _ m ih =>
    cases m with
    | @take a rest hTokens =>
      have hMem : ∀ b ∈ rest, b ∈ t.tokens := fun b hb => hTokens ▸ List.mem_cons_of_mem _ hb
      have hPairs := hTokens ▸ ih.pairwise
      exact {
        terminator := ih.terminator
        inside := fun b hb => ih.inside b (hMem b hb)
        nonempty := fun b hb => ih.nonempty b (hMem b hb)
        previous := Nat.le_of_lt (ih.nonempty a (hTokens ▸ List.mem_cons_self))
        behind := fun b hb => List.rel_of_pairwise_cons hPairs (List.mem_append_left _ hb)
        pairwise := List.Pairwise.of_cons hPairs }
    | unexpected | untyped =>
      exact ⟨by rw [State.note_terminator]; exact ih.terminator,
        by rw [State.note_tokens]; exact ih.inside, by rw [State.note_tokens]; exact ih.nonempty,
        by rw [State.note_previous]; exact ih.previous,
        by rw [State.note_previous, State.note_tokens]; exact ih.behind,
        by rw [State.note_tokens, State.note_terminator]; exact ih.pairwise⟩
    | declare | countPlaceholder =>
      exact ⟨ih.terminator, ih.inside, ih.nonempty, ih.previous, ih.behind, ih.pairwise⟩

theorem Progress.inOrder_ofText (bindings : Bindings) (text : String) :
    (Progress.ofText bindings text).state.InOrder where
  terminator := rfl
  inside := isEnd_tokensOf text
  nonempty t ht := (placed_tokensOf text t ht).nonempty
  previous := Nat.le_refl _
  behind _ _ := Nat.zero_le _
  pairwise := tokensOf_pairwise text

theorem Segment.isSemicolon_next {finish first : Token} {rest : List Token}
    (hFirst : isSemicolon first = false) :
    ∀ t ∈ (next finish first rest).tokens, isSemicolon t = false := by
  intro t ht
  rcases List.mem_cons.mp ht with rfl | ht
  · exact hFirst
  · simpa using List.mem_takeWhile_imp ht

/-- Behind a segment stands a semicolon or the end of the text. -/
theorem Segment.terminator_next {finish : Token} (hFinish : finish.isEnd = true) (first : Token)
    (rest : List Token) :
    isSemicolon (next finish first rest).terminator = true ∨
      (next finish first rest).terminator.isEnd = true := by
  unfold next
  dsimp only
  cases hTail : rest.dropWhile (!isSemicolon ·) with
  | nil => exact Or.inr hFinish
  | cons t more =>
    have hHead := List.head_dropWhile_not (!isSemicolon ·) (l := rest) (by rw [hTail]; simp)
    exact Or.inl (by simpa [hTail] using hHead)

/-- In the middle of a text the next segment fits in front of what stands behind it. -/
theorem Grammar.State.InOrder.fitsIn {s : State} (h : s.InOrder) {first : Token} {rest : List Token}
    (hTokens : s.tokens = first :: rest) (hFirst : isSemicolon first = false) :
    (Segment.next s.terminator first rest).FitsIn (rest.dropWhile (!isSemicolon ·))
      s.terminator := by
  have hSplit := hTokens.trans (Segment.tokens_next s.terminator first rest)
  have hMem : ∀ t ∈ (Segment.next s.terminator first rest).tokens, t ∈ s.tokens :=
    fun t ht => hSplit ▸ List.mem_append_left _ ht
  refine ⟨⟨Segment.terminator_next h.terminator first rest,
    fun t ht => Nat.le_of_lt (h.nonempty t (hMem t ht)), ?_⟩,
    fun t ht => h.nonempty t (hMem t ht), fun t ht hEnd => ?_, rfl⟩
  · refine h.pairwise.sublist ?_
    rw [hSplit, List.append_assoc]
    refine (List.Sublist.refl _).append ?_
    rw [Segment.next]
    cases rest.dropWhile (!isSemicolon ·) with
    | nil => exact List.Sublist.refl _
    | cons t more => simp
  · rcases hEnd with hEnd | hEnd
    · exact Bool.false_ne_true
        ((Segment.isSemicolon_next hFirst t ht).symm.trans (isSemicolon_iff.mpr hEnd))
    · exact Bool.false_ne_true ((h.inside t (hMem t ht)).symm.trans (isEnd_iff.mpr hEnd))

/-- In the middle of a text a statement is read as its segment is for itself. -/
theorem Grammar.State.InOrder.readStatement {s : State} (h : s.InOrder) {first : Token}
    {rest : List Token} (hTokens : s.tokens = first :: rest) (hFirst : isSemicolon first = false)
    (scope : ParameterScope) :
    Segment.ReadAs ((Segment.next s.terminator first rest).read (scope.handOn s.bindings))
      (rest.dropWhile (!isSemicolon ·)) s (s.readStatement scope) := by
  have hBehind := h.behind first (hTokens ▸ List.mem_cons_self)
  exact (h.fitsIn hTokens hFirst).readStatement (hTokens.trans (Segment.tokens_next _ _ _))
    (h.previous.trans hBehind) hBehind scope

/-! ## All statements -/

namespace ParseResult

/-- One result behind another. -/
def append (r u : ParseResult) : ParseResult :=
  ⟨r.statements ++ u.statements, r.recovered ++ u.recovered, r.errors ++ u.errors⟩

theorem append_assoc (r u v : ParseResult) : (r.append u).append v = r.append (u.append v) := by
  simp only [append, List.append_assoc]

theorem append_ofReadings_nil (retention : Retention) (r : ParseResult) :
    r.append (ofReadings retention []) = r := by
  simp [append, ofReadings]

theorem ofReadings_append (retention : Retention) (rs us : List Reading) :
    ofReadings retention (rs ++ us) =
      (ofReadings retention rs).append (ofReadings retention us) := by
  simp [append, ofReadings]

end ParseResult

namespace Progress

/-- A statement behind others is sorted as it is for itself. -/
theorem result_keep (retention : Retention) (p : Progress) (read : Statement × State)
    (ends : read.2.terminator.isEnd = true) {reading : Reading}
    (hStatement : read.1 = reading.statement) (hFailed : read.2.failed = reading.error.isSome)
    (hErrors : read.2.errors = p.state.errors ++ reading.error.toList) :
    (p.keep retention read ends).result =
      p.result.append (.ofReadings retention [reading]) := by
  unfold keep
  rw [hStatement, hFailed]
  cases hKept : retention.keeps reading.statement <;> cases hError : reading.error <;>
    simp_all [ParseResult.append, ParseResult.ofReadings, result]

theorem exists_skipSemicolons (p : Progress) :
    ∃ previous, p.skipSemicolons.state =
      { p.state with tokens := p.state.tokens.dropWhile isSemicolon, previous } :=
  Parse.exists_run_skipWhile isSemicolon p.state

theorem terminator_skipSemicolons (p : Progress) :
    p.skipSemicolons.state.terminator = p.state.terminator :=
  (State.moves_skipSemicolons p.state).terminator_eq

theorem inOrder_skipSemicolons {p : Progress} (h : p.state.InOrder) :
    p.skipSemicolons.state.InOrder := (State.moves_skipSemicolons p.state).inOrder h

/-- A round starts in front of a token that is no semicolon. -/
theorem exists_of_next? {options : ParseOptions} {p q : Progress} (h : p.next? options = some q) :
    ∃ first rest, p.skipSemicolons.state.tokens = first :: rest ∧ isSemicolon first = false ∧
      q = p.skipSemicolons.read options := by
  simp only [next?] at h
  split at h
  · cases h
  · next hEnd =>
    cases hTokens : p.skipSemicolons.state.tokens with
    | nil =>
      rw [State.current_nil hTokens] at hEnd
      exact absurd p.skipSemicolons.ends hEnd
    | cons first rest =>
      refine ⟨first, rest, rfl, ?_, (Option.some.inj h).symm⟩
      have hSkipped : isSemicolon p.skipSemicolons.state.current = false :=
        State.current_skipWhile isSemicolon (by simp [isSemicolon, eq_of_beq p.ends])
      rwa [State.current_cons hTokens] at hSkipped

/-- The loop ends where no token but semicolons is left. -/
theorem tokens_of_next?_eq_none {options : ParseOptions} {p : Progress} (h : p.state.InOrder)
    (hNext : p.next? options = none) : p.state.tokens.dropWhile isSemicolon = [] := by
  obtain ⟨previous, hSkip⟩ := p.exists_skipSemicolons
  have hSkipped : p.skipSemicolons.state.tokens = p.state.tokens.dropWhile isSemicolon := by
    rw [hSkip]
  rw [← hSkipped]
  simp only [next?] at hNext
  split at hNext
  · next hEnd =>
    cases hTokens : p.skipSemicolons.state.tokens with
    | nil => rfl
    | cons first rest =>
      have hInside := (inOrder_skipSemicolons h).inside first (hTokens ▸ List.mem_cons_self)
      rw [State.current_cons hTokens, hInside] at hEnd
      exact absurd hEnd Bool.false_ne_true
  · cases hNext

/-- A round of the loop reads a segment: it is the next one, and what is made of it is what reading
it for itself makes of it. -/
structure Reads (options : ParseOptions) (p q : Progress) (seg : Segment) : Prop where
  segments : segmentsFrom p.state.terminator [] p.state.tokens =
    seg :: segmentsFrom q.state.terminator [] q.state.tokens
  result : q.result = p.result.append (.ofReadings options.retention
    [(seg.read (options.scope.handOn p.state.bindings)).1])
  bindings : q.state.bindings = (seg.read (options.scope.handOn p.state.bindings)).2
  inOrder : q.state.InOrder

theorem reads_skipSemicolons (options : ParseOptions) {p : Progress} (h : p.state.InOrder)
    {first : Token} {rest : List Token} (hTokens : p.skipSemicolons.state.tokens = first :: rest)
    (hFirst : isSemicolon first = false) :
    Reads options p (p.skipSemicolons.read options) (.next p.state.terminator first rest) := by
  have hOrder := inOrder_skipSemicolons h
  have hMoves := State.moves_readStatement options.scope p.skipSemicolons.state
  have hRead := hOrder.readStatement hTokens hFirst options.scope
  obtain ⟨previous, hSkip⟩ := p.exists_skipSemicolons
  have hTerminator := p.terminator_skipSemicolons
  have hBindings : p.skipSemicolons.state.bindings = p.state.bindings := by rw [hSkip]
  have hErrors : p.skipSemicolons.state.errors = p.state.errors := by rw [hSkip]
  have hSkipped : p.skipSemicolons.state.tokens = p.state.tokens.dropWhile isSemicolon := by
    rw [hSkip]
  rw [hTerminator, hBindings] at hRead
  refine ⟨?_, ?_, ?_, ?_⟩
  · rw [read, keep_state, hRead.tokens, hMoves.terminator_eq, ← segmentsFrom_dropWhile, ← hSkipped,
      hTokens]
    exact (segmentsFrom_next hFirst rest).trans (by rw [← hTerminator]; rfl)
  · have hKept := result_keep options.retention p.skipSemicolons _
      (p.skipSemicolons.ends_readStatement options.scope) hRead.statement hRead.failed hRead.errors
    have hResult : p.skipSemicolons.result = p.result := by
      rw [result, hErrors]
      rfl
    rwa [hResult] at hKept
  · rw [read, keep_state]
    exact hRead.bindings
  · rw [read, keep_state]
    exact hMoves.inOrder ⟨hOrder.terminator, hOrder.inside, hOrder.nonempty, hOrder.previous,
      hOrder.behind, hOrder.pairwise⟩

/-- All rounds of the loop, from the middle of a text on. -/
theorem result_finish (options : ParseOptions) (p : Progress) (h : p.state.InOrder) :
    (p.finish options).result = p.result.append (.ofReadings options.retention
      (readSegments options.scope (options.scope.handOn p.state.bindings)
        (segmentsFrom p.state.terminator [] p.state.tokens))) := by
  fun_induction p.finish options with
  | case1 p hNext =>
    rw [← segmentsFrom_dropWhile, tokens_of_next?_eq_none h hNext]
    exact (ParseResult.append_ofReadings_nil _ _).symm
  | case2 p q hNext ih =>
    obtain ⟨first, rest, hTokens, hFirst, rfl⟩ := exists_of_next? hNext
    have hReads := reads_skipSemicolons options h hTokens hFirst
    rw [ih hReads.inOrder, hReads.result, hReads.segments, hReads.bindings,
      ParseResult.append_assoc, ← ParseResult.ofReadings_append]
    rfl

end Progress

/-- **The loop over a text reads its segments one by one.** Whatever types were declared before, and
whatever statements are kept, the result of the loop is made of the readings of the segments, each
for itself, from the types that the ones before it hand on. -/
theorem parseFrom_eq (options : ParseOptions) (bindings : Bindings) (text : String) :
    parseFrom options bindings text = .ofReadings options.retention
      (readSegments options.scope (options.scope.handOn bindings) (segments text)) := by
  rw [parseFrom, Progress.result_finish options _ (Progress.inOrder_ofText bindings text)]
  rfl

/-- Without types declared before. -/
theorem parse_eq (options : ParseOptions) (text : String) :
    parse options text = .ofReadings options.retention (readings options.scope text) := by
  rw [parse, parseFrom_eq, readings]
  cases options.scope <;> rfl

end SqlKit
