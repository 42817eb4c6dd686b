import SqlKit.Proofs.Batch.Isolation
import SqlKit.Proofs.Simulation.Invariant

/-!
# Accounting for errors

A round of the loop over a text (`Round`) takes the tokens of one segment, whether or not its
readers come to an error, and it notes one error if the statement failed and none if it did not. The
error stands inside the segment.

* `Segment.error_within`: an error stands inside of the segment that it was found in.
* `Progress.lists_finish`: what the rounds leave in the lists of the result.
* `Progress.reads_rounds`: the segments that the rounds read.
* `parse_accounts`: the statements and errors of a whole text.
-/

namespace SqlKit

open Grammar

/-! ## The place of an error -/

namespace Segment

/-- Where the last token of a segment ends. -/
def lastOffset (s : Segment) : Nat :=
  (s.tokens.getLast (List.cons_ne_nil _ _)).span.last.offset

/-- The last place for an error in a segment: its semicolon, or the end of its last token if it ends
with the text. -/
def limit (s : Segment) : Nat :=
  if isSemicolon s.terminator then s.terminator.span.first.offset else s.lastOffset

variable {seg : Segment}

theorem Ordered.first_le (h : seg.Ordered) {t : Token} (ht : t ∈ seg.tokens) :
    seg.first.span.first.offset ≤ t.span.first.offset := by
  rcases List.mem_cons.mp ht with rfl | ht
  · exact Nat.le_refl _
  · have hPairs := List.rel_of_pairwise_cons h.pairwise (List.mem_append_left _ ht)
    have hSelf := h.span seg.first List.mem_cons_self
    omega

theorem Ordered.last_le_lastOffset (h : seg.Ordered) {t : Token} (ht : t ∈ seg.tokens) :
    t.span.last.offset ≤ seg.lastOffset := by
  have hInit := List.dropLast_concat_getLast (l := seg.tokens) (List.cons_ne_nil _ _)
  rw [← hInit] at ht
  rcases List.mem_append.mp ht with hMem | hMem
  · have hPairs := (List.pairwise_append.mp h.pairwise).1
    rw [← hInit] at hPairs
    have hNext := (List.pairwise_append.mp hPairs).2.2 t hMem _ (List.mem_singleton.mpr rfl)
    have hLast := h.span _ (List.getLast_mem (l := seg.tokens) (List.cons_ne_nil _ _))
    unfold lastOffset
    omega
  · rw [List.mem_singleton.mp hMem]
    exact Nat.le_refl _

theorem Ordered.lastOffset_le_limit (h : seg.Ordered) : seg.lastOffset ≤ seg.limit := by
  unfold limit
  split
  · have hLast := List.getLast_mem (List.cons_ne_nil seg.first seg.rest)
    exact (List.pairwise_append.mp h.pairwise).2.2 _ hLast _ (List.mem_singleton.mpr rfl)
  · exact Nat.le_refl _

/-- A place inside of a segment, its limits included. -/
def Within (seg : Segment) (place : Nat) : Prop :=
  seg.first.span.first.offset ≤ place ∧ place ≤ seg.limit

theorem Ordered.within (h : seg.Ordered) {t : Token} (ht : t ∈ seg.tokens) :
    seg.Within t.span.first.offset ∧ seg.Within t.span.last.offset := by
  have hFirst := h.first_le ht
  have hSelf := h.span t ht
  have hLast := h.last_le_lastOffset ht
  have hLimit := h.lastOffset_le_limit
  exact ⟨⟨hFirst, by omega⟩, by omega, by omega⟩

/-- What holds while a segment is read: what is left is an end of the segment, and the token taken
last and the error are inside of it. -/
structure Keeps (seg : Segment) (s : State) : Prop where
  tokens : s.tokens <:+ seg.tokens
  terminator : s.terminator = seg.terminator
  previous : seg.Within s.previous.last.offset
  error : ∀ e, s.error = some e → seg.Within e.position.offset

theorem Keeps.note {s : State} {e : ParseError} (h : seg.Keeps s)
    (he : seg.Within e.position.offset) : seg.Keeps (s.note e) := by
  refine ⟨by rw [State.note_tokens]; exact h.tokens,
    by rw [State.note_terminator]; exact h.terminator,
    by rw [State.note_previous]; exact h.previous, fun e' hError => ?_⟩
  rcases State.mem_error_note hError with hOld | ⟨-, rfl⟩
  · exact h.error e' hOld
  · exact he

theorem Ordered.within_errorPosition (h : seg.Ordered) {s : State} (hs : seg.Keeps s) :
    seg.Within s.errorPosition.offset := by
  unfold State.errorPosition
  split
  · exact hs.previous
  · next hEnd =>
    cases hTokens : s.tokens with
    | cons t rest =>
      rw [State.current_cons hTokens]
      exact (h.within (hs.tokens.subset (hTokens ▸ List.mem_cons_self))).1
    | nil =>
      rw [State.current_nil hTokens, hs.terminator] at hEnd ⊢
      have hSemicolon := h.terminator.resolve_right hEnd
      have hFirst := List.rel_of_pairwise_cons h.pairwise
        (List.mem_append_right seg.rest (List.mem_singleton.mpr rfl))
      have hSelf := h.span seg.first List.mem_cons_self
      unfold Within limit
      rw [if_pos hSemicolon]
      exact ⟨by omega, Nat.le_refl _⟩

theorem Ordered.invariant (h : seg.Ordered) : Invariant seg.Keeps where
  terminator hs := by
    rw [hs.terminator]
    exact h.isEnd
  take hs hTokens _ := by
    refine ⟨(List.suffix_cons _ _).trans (hTokens ▸ hs.tokens), hs.terminator, ?_, hs.error⟩
    exact (h.within (hs.tokens.subset (hTokens ▸ List.mem_cons_self))).2
  unexpected _ hs := hs.note (h.within_errorPosition hs)
  untyped hs hTokens _ _ hu :=
    hu.note (h.within (hs.tokens.subset (hTokens ▸ List.mem_cons_self))).1
  declare _ _ hu := ⟨hu.tokens, hu.terminator, hu.previous, hu.error⟩
  countPlaceholder hs := ⟨hs.tokens, hs.terminator, hs.previous, hs.error⟩

/-- An error in a segment stands between the start of its first token and its limit. -/
theorem error_within (h : seg.Ordered) (bindings : Bindings) {e : ParseError}
    (hError : (seg.read bindings).1.error = some e) : seg.Within e.position.offset := by
  have hStart : seg.Keeps (seg.start bindings) :=
    ⟨List.suffix_rfl, rfl, (h.within List.mem_cons_self).1, fun _ h => nomatch h⟩
  simp only [Segment.read, Rules.forTokens] at hError
  exact (h.invariant.run_statement _ hStart).error e hError

end Segment

/-! ## Rounds -/

/-- Reading a statement takes no semicolon and no end of the text, from whatever state it starts and
whatever was noted before. -/
theorem Grammar.exists_taken_statement (depth : Nat) {s : State} (hEnd : s.terminator.kind.IsEnd) :
    ∃ taken, s.tokens = taken ++ ((statement (.upTo depth)).run s).2.tokens ∧
      ∀ t ∈ taken, ¬ t.kind.IsEnd := by
  have hInvariant : Invariant fun u => u.terminator.kind.IsEnd ∧
      ∃ taken, s.tokens = taken ++ u.tokens ∧ ∀ t ∈ taken, ¬ t.kind.IsEnd := by
    refine ⟨fun h => h.1, ?_, ?_, ?_, fun _ _ h => h, fun h => h⟩
    · rintro u t rest ⟨hu, taken, hTaken, hInside⟩ hTokens hNext
      refine ⟨hu, taken ++ [t], ?_, ?_⟩
      · rw [hTaken, hTokens, List.append_assoc]
        rfl
      · simpa [or_imp, forall_and] using ⟨hInside, hNext⟩
    · rintro u expected ⟨hu, hTaken⟩
      exact ⟨by rwa [State.note_terminator], by rwa [State.note_tokens]⟩
    · rintro _ u t rest name - - - - ⟨hu, hTaken⟩
      exact ⟨by rwa [State.note_terminator], by rwa [State.note_tokens]⟩
  exact (hInvariant.run_statement depth ⟨hEnd, [], rfl, fun t ht => nomatch ht⟩).2

/-- A round of the loop: the state in front of its statement, what was read, and the state behind
it. -/
structure Round where
  start : State
  statement : Statement
  finish : State

namespace Round

/-- The tokens taken in a round. -/
def taken (r : Round) : List Token :=
  r.start.tokens.take (r.start.tokens.length - r.finish.tokens.length)

/-- The errors noted in a round. -/
def errors (r : Round) : List ParseError := r.finish.errors.drop r.start.errors.length

/-- The segment that a round reads: the token that is next at its start, those taken behind it, and
the one that is next at its end. -/
def segment (r : Round) : Segment := ⟨r.start.current, r.taken.tail, r.finish.current⟩

end Round

namespace Progress

/-- The round that starts behind the semicolons. -/
def round (options : ParseOptions) (p : Progress) : Round :=
  ⟨p.skipSemicolons.state, (p.skipSemicolons.state.readStatement options.scope).1,
    (p.skipSemicolons.state.readStatement options.scope).2⟩

/-- The rounds of the loop from here on. -/
def rounds (options : ParseOptions) (p : Progress) : List Round :=
  match _hNext : p.next? options with
  | none => []
  | some q => p.round options :: q.rounds options
termination_by p.state.tokens.length
decreasing_by exact length_lt_of_next? _hNext

theorem rounds_of_none {options : ParseOptions} {p : Progress} (h : p.next? options = none) :
    p.rounds options = [] := by
  rw [rounds]
  split
  · rfl
  · next hSome => simp [h] at hSome

theorem rounds_of_some {options : ParseOptions} {p q : Progress} (h : p.next? options = some q) :
    p.rounds options = p.round options :: q.rounds options := by
  rw [rounds]
  split
  · next hNone => simp [h] at hNone
  · next r hSome =>
    rw [h] at hSome
    rw [Option.some.inj hSome]

theorem eq_read_of_next? {options : ParseOptions} {p q : Progress} (h : p.next? options = some q) :
    q = p.skipSemicolons.read options := by
  obtain ⟨_, _, -, -, hRead⟩ := exists_of_next? h
  exact hRead

/-! ### The lists of the result -/

/-- The errors noted in a round are behind those noted before, and there is one where the statement
failed and none where it did not. -/
theorem errors_round (options : ParseOptions) (p : Progress) :
    (p.round options).finish.errors = p.state.errors ++ (p.round options).errors ∧
      (p.round options).errors = (p.round options).finish.error.toList := by
  have hMoves := State.moves_readStatement options.scope p.skipSemicolons.state
  have hNoted := hMoves.errors_eq rfl
  obtain ⟨previous, hSkip⟩ := p.exists_skipSemicolons
  have hErrors : p.skipSemicolons.state.errors = p.state.errors := by rw [hSkip]
  have hStart : (p.skipSemicolons.state.begin options.scope).errors = p.state.errors := hErrors
  rw [hStart] at hNoted
  have hOwn : (p.round options).errors = (p.round options).finish.error.toList := by
    simp only [Round.errors, round, hNoted, hErrors, List.drop_left]
  exact ⟨hNoted.trans (congrArg _ hOwn.symm), hOwn⟩

/-- What the loop leaves in the lists of the result, if all statements are kept. -/
structure Lists (rounds : List Round) (p q : Progress) : Prop where
  statements : q.statements =
    p.statements ++ (rounds.filter (!·.finish.failed)).map Round.statement
  recovered : q.recovered =
    p.recovered ++ (rounds.filter (·.finish.failed)).map Round.statement
  errors : q.state.errors = p.state.errors ++ rounds.flatMap Round.errors

/-- One round puts its statement behind the others of its sort. -/
theorem lists_next? {scope : ParameterScope} {p q : Progress}
    (h : p.next? ⟨scope, .all⟩ = some q) : Lists [p.round ⟨scope, .all⟩] p q := by
  obtain rfl := eq_read_of_next? h
  have hErrors : (p.skipSemicolons.read ⟨scope, .all⟩).state.errors =
      p.state.errors ++ (p.round ⟨scope, .all⟩).errors := by
    rw [read, keep_state]
    exact (errors_round ⟨scope, .all⟩ p).1
  have hStatements : p.skipSemicolons.statements = p.statements := rfl
  have hRecovered : p.skipSemicolons.recovered = p.recovered := rfl
  refine ⟨?_, ?_, by rw [hErrors, List.flatMap_singleton]⟩
  all_goals
    unfold read keep round
    rw [if_neg (by simp [Retention.keeps])]
    cases hFailed : (p.skipSemicolons.state.readStatement scope).2.failed <;>
      simp [hFailed, hStatements, hRecovered]

theorem Lists.trans {rounds more : List Round} {p q r : Progress} (h : Lists rounds p q)
    (h' : Lists more q r) : Lists (rounds ++ more) p r := by
  refine ⟨?_, ?_, ?_⟩
  · rw [h'.statements, h.statements, List.filter_append, List.map_append, List.append_assoc]
  · rw [h'.recovered, h.recovered, List.filter_append, List.map_append, List.append_assoc]
  · rw [h'.errors, h.errors, List.flatMap_append, List.append_assoc]

/-- All rounds, one behind another. -/
theorem lists_finish (scope : ParameterScope) (p : Progress) :
    Lists (p.rounds ⟨scope, .all⟩) p (p.finish ⟨scope, .all⟩) := by
  fun_induction p.finish ⟨scope, .all⟩ with
  | case1 p hNext =>
    rw [rounds_of_none hNext]
    exact ⟨(List.append_nil _).symm, (List.append_nil _).symm, (List.append_nil _).symm⟩
  | case2 p q hNext ih =>
    rw [rounds_of_some hNext]
    exact (lists_next? hNext).trans ih

/-! ### The segments that are read -/

/-- The tokens taken in a round are those of the next segment. -/
theorem segment_round (options : ParseOptions) {p : Progress} (h : p.state.InOrder) {first : Token}
    {rest : List Token} (hTokens : p.skipSemicolons.state.tokens = first :: rest)
    (hFirst : isSemicolon first = false) :
    (p.round options).segment = .next p.state.terminator first rest ∧
      (p.round options).taken = (p.round options).segment.tokens := by
  have hRead := (inOrder_skipSemicolons h).readStatement hTokens hFirst options.scope
  have hSplit := Segment.tokens_next p.state.terminator first rest
  have hTaken : (p.round options).taken = (Segment.next p.state.terminator first rest).tokens := by
    simp only [Round.taken, round, hRead.tokens, hTokens]
    rw [hSplit, List.length_append, Nat.add_sub_cancel, List.take_left]
  have hTerminator : (p.round options).finish.terminator = p.state.terminator :=
    (State.moves_readStatement options.scope _).terminator_eq.trans p.terminator_skipSemicolons
  have hSegment : (p.round options).segment = .next p.state.terminator first rest := by
    have hCurrent : (p.round options).finish.current =
        (rest.dropWhile (!isSemicolon ·)).headD p.state.terminator := by
      rw [State.current, hTerminator, ← hRead.tokens]
      rfl
    rw [Round.segment, hTaken, hCurrent]
    simp only [round, State.current_cons hTokens]
    rfl
  exact ⟨hSegment, by rw [hTaken, hSegment]⟩

end Progress

/-- A round takes the tokens of its segment, and makes of them what reading the segment makes of
it. -/
structure Round.Reads (r : Round) : Prop where
  taken : r.taken = r.segment.tokens
  failed : r.errors.length = if r.finish.failed then 1 else 0
  read : ∃ known, r.statement = (r.segment.read known).1.statement ∧
    r.errors = (r.segment.read known).1.error.toList

namespace Progress

theorem reads_round (options : ParseOptions) {p : Progress} (h : p.state.InOrder) {first : Token}
    {rest : List Token} (hTokens : p.skipSemicolons.state.tokens = first :: rest)
    (hFirst : isSemicolon first = false) : (p.round options).Reads := by
  obtain ⟨hSegment, hTaken⟩ := p.segment_round options h hTokens hFirst
  have hRead := (inOrder_skipSemicolons h).readStatement hTokens hFirst options.scope
  rw [terminator_skipSemicolons] at hRead
  have hOwn := (errors_round options p).2
  refine ⟨hTaken, ?_, _, hSegment ▸ hRead.statement, ?_⟩
  · rw [hOwn, ← State.error_isSome]
    cases (p.round options).finish.error <;> rfl
  · rw [hSegment, Round.errors]
    simp only [round, hRead.errors, List.drop_left]

/-- The rounds read the segments that are left, each of them, in order. -/
theorem reads_rounds (options : ParseOptions) (p : Progress) (h : p.state.InOrder) :
    (p.rounds options).map Round.segment = segmentsFrom p.state.terminator [] p.state.tokens ∧
      ∀ r ∈ p.rounds options, r.Reads := by
  fun_induction p.finish options with
  | case1 p hNext =>
    rw [rounds_of_none hNext, ← segmentsFrom_dropWhile, tokens_of_next?_eq_none h hNext]
    exact ⟨rfl, fun r hr => absurd hr List.not_mem_nil⟩
  | case2 p q hNext ih =>
    obtain ⟨first, rest, hTokens, hFirst, rfl⟩ := exists_of_next? hNext
    have hReads := reads_skipSemicolons options h hTokens hFirst
    obtain ⟨hSegments, hRest⟩ := ih hReads.inOrder
    rw [rounds_of_some hNext, List.map_cons, hSegments, hReads.segments,
      (p.segment_round options h hTokens hFirst).1]
    exact ⟨rfl, List.forall_mem_cons.mpr ⟨reads_round options h hTokens hFirst, hRest⟩⟩

end Progress

/-! ## The statements of a text -/

/-- The rounds of the loop over a text. -/
def rounds (scope : ParameterScope) (text : String) : List Round :=
  (Progress.ofText [] text).rounds ⟨scope, .all⟩

theorem rounds_segments (scope : ParameterScope) (text : String) :
    (rounds scope text).map Round.segment = segments text :=
  (Progress.reads_rounds ⟨scope, .all⟩ _ (Progress.inOrder_ofText [] text)).1

theorem rounds_reads (scope : ParameterScope) (text : String) :
    ∀ r ∈ rounds scope text, r.Reads :=
  (Progress.reads_rounds ⟨scope, .all⟩ _ (Progress.inOrder_ofText [] text)).2

/-- An error stands inside of the segment of its round. -/
theorem rounds_within {scope : ParameterScope} {text : String} {r : Round}
    (hr : r ∈ rounds scope text) {e : ParseError} (he : e ∈ r.errors) :
    r.segment.Within e.position.offset := by
  obtain ⟨known, -, hErrors⟩ := (rounds_reads scope text r hr).read
  have hSegment : r.segment ∈ segments text :=
    rounds_segments scope text ▸ List.mem_map_of_mem hr
  rw [hErrors, Option.mem_toList] at he
  exact Segment.error_within ((segments_pairwise text).1 _ hSegment) known he

/-- What the rounds of the loop over a text take, note and keep. -/
structure Accounts (text : String) (rounds : List Round) (result : ParseResult) : Prop where
  /-- Each round takes a run of tokens, the whole run and nothing else, in order. -/
  taken : rounds.map Round.taken = runs text
  /-- In the text the tokens taken stand in front of the one that is next at the end of the
  round. -/
  stands : ∀ r ∈ rounds, r.segment.tokens = r.taken ∧
    r.segment.StandsIn (tokensOf text ++ [.endOfInput (endOf text)])
  /-- The statement is what was read from these tokens. -/
  read : ∀ r ∈ rounds, ∃ known, r.statement = (r.segment.read known).1.statement ∧
    r.errors = (r.segment.read known).1.error.toList
  /-- The statements without error are kept, in order. -/
  statements : result.statements = (rounds.filter (!·.finish.failed)).map Round.statement
  /-- Those that failed are recovered, in order. -/
  recovered : result.recovered = (rounds.filter (·.finish.failed)).map Round.statement
  /-- The errors are those noted in the rounds, in order. -/
  errors : result.errors = rounds.flatMap Round.errors
  /-- One error is noted where the statement failed, and none where it did not. -/
  once : ∀ r ∈ rounds, r.errors.length = if r.finish.failed then 1 else 0
  /-- An error stands in its segment, from the first token up to the semicolon or the last token. -/
  within : ∀ r ∈ rounds, ∀ e ∈ r.errors, r.segment.Within e.position.offset

theorem accounts_parse (scope : ParameterScope) (text : String) :
    Accounts text (rounds scope text) (parse ⟨scope, .all⟩ text) := by
  have hLists := Progress.lists_finish scope (Progress.ofText [] text)
  have hReads := rounds_reads scope text
  have hSegments := rounds_segments scope text
  refine ⟨?_, ?_, fun r hr => (hReads r hr).read, ?_, ?_, ?_, fun r hr => (hReads r hr).failed,
    fun r hr e he => rounds_within hr he⟩
  · rw [← segments_tokens, ← hSegments, List.map_map]
    exact List.map_congr_left fun r hr => (hReads r hr).taken
  · intro r hr
    exact ⟨(hReads r hr).taken.symm,
      segments_standsIn text _ (hSegments ▸ List.mem_map_of_mem hr)⟩
  · exact hLists.statements.trans (List.nil_append _)
  · exact hLists.recovered.trans (List.nil_append _)
  · exact hLists.errors.trans (List.nil_append _)

theorem Accounts.length_statements {text : String} {rs : List Round} {result : ParseResult}
    (h : Accounts text rs result) :
    result.statements.length + result.recovered.length = (runs text).length := by
  rw [h.statements, h.recovered, ← h.taken, List.length_map, List.length_map, List.length_map]
  simpa [List.countP_eq_length_filter, Nat.add_comm] using
    (List.length_eq_countP_add_countP (fun r : Round => r.finish.failed) (l := rs)).symm

theorem Accounts.length_errors {text : String} {rs : List Round} {result : ParseResult}
    (h : Accounts text rs result) : result.errors.length = result.recovered.length := by
  have hOnce := h.once
  rw [h.errors, h.recovered, List.length_map]
  clear h
  induction rs with
  | nil => rfl
  | cons r rs ih =>
    have hRest := ih fun u hu => hOnce u (List.mem_cons_of_mem _ hu)
    have hSelf := hOnce r List.mem_cons_self
    rw [List.flatMap_cons, List.length_append, hRest, hSelf]
    cases hFailed : r.finish.failed <;> simp [hFailed, Nat.add_comm]

/-- Each error stands behind those before it. -/
theorem parse_errors_pairwise (scope : ParameterScope) (text : String) :
    ((parse ⟨scope, .all⟩ text).errors.map (·.position.offset)).Pairwise (· < ·) := by
  rw [(accounts_parse scope text).errors, List.pairwise_map, List.pairwise_flatMap]
  have hPairs : (rounds scope text).Pairwise fun r u =>
      r.segment.limit < u.segment.first.span.first.offset := by
    have hSegments := (segments_pairwise text).2
    rw [← rounds_segments scope text, List.pairwise_map] at hSegments
    refine hSegments.imp fun {r u} h => ?_
    rw [Segment.limit, if_pos h.1]
    exact h.2
  refine ⟨fun r hr => ?_, List.Pairwise.imp_of_mem ?_ hPairs⟩
  · obtain ⟨known, -, hErrors⟩ := (rounds_reads scope text r hr).read
    rw [hErrors]
    cases (r.segment.read known).1.error with
    | none => exact .nil
    | some e => exact List.pairwise_singleton _ e
  · intro r u hr hu hLimit e he e' he'
    have hFirst := (rounds_within hr he).2
    have hSecond := (rounds_within hu he').1
    omega

/-- **Errors are accounted for.** Whatever a text holds, the loop makes a round for each of its runs
of tokens. A round takes that run and no other token, and makes one statement of it. The statements
without error and the recovered ones keep their order; one error is noted in the round of each
recovered statement, and none in another one; it stands between the start of its run and the
semicolon behind it, or the end of its last token where the text ends. So each error stands behind
those before it. No reader takes a semicolon or the end, at whatever state a statement is read. -/
theorem parse_accounts (scope : ParameterScope) (text : String) :
    Accounts text (rounds scope text) (parse ⟨scope, .all⟩ text) ∧
      (parse ⟨scope, .all⟩ text).statements.length +
        (parse ⟨scope, .all⟩ text).recovered.length = (runs text).length ∧
      (parse ⟨scope, .all⟩ text).errors.length = (parse ⟨scope, .all⟩ text).recovered.length ∧
      ((parse ⟨scope, .all⟩ text).errors.map (·.position.offset)).Pairwise (· < ·) ∧
      ∀ (depth : Nat) (s : State), s.terminator.kind.IsEnd →
        ∃ taken, s.tokens = taken ++ ((statement (.upTo depth)).run s).2.tokens ∧
          ∀ t ∈ taken, ¬ t.kind.IsEnd :=
  have hAccounts := accounts_parse scope text
  ⟨hAccounts, hAccounts.length_statements, hAccounts.length_errors,
    parse_errors_pairwise scope text, fun depth _ hEnd => exists_taken_statement depth hEnd⟩

end SqlKit
