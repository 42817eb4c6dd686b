import SqlKit.Batch
import SqlKit.Proofs.Token.Tiling

/-!
# The segments of a text

Segments are the runs of tokens between semicolons (`segments_tokens`). Each of them stands in the
text in front of its terminator (`segments_standsIn`), and no two of them overlap
(`segments_pairwise`).

`readings` says what the statements of a text are when each segment is read for itself, with nothing
behind it and nothing in front of it but the types declared there. That the loop over a whole text
comes to the same is shown elsewhere.
-/

namespace SqlKit

open Grammar

/-- The tokens of one statement, never empty, and what stands behind them. -/
structure Segment where
  first : Token
  rest : List Token
  terminator : Token
  deriving Repr, DecidableEq, Inhabited

namespace Segment

/-- The tokens in order. -/
def tokens (s : Segment) : List Token := s.first :: s.rest

/-- The segment of these tokens, unless there are none. -/
def ofTokens? (tokens : List Token) (terminator : Token) : Option Segment :=
  match tokens with
  | [] => none
  | first :: rest => some ⟨first, rest, terminator⟩

end Segment

/-- The segments of a text: the tokens before the first semicolon, those between it and the next
one, and so on. `before` holds what was met since the last semicolon. -/
def segmentsFrom (finish : Token) (before : List Token) : List Token → List Segment
  | [] => (Segment.ofTokens? before finish).toList
  | t :: rest =>
    if isSemicolon t then (Segment.ofTokens? before t).toList ++ segmentsFrom finish [] rest
    else segmentsFrom finish (before ++ [t]) rest

/-- The segments of a text. -/
def segments (text : String) : List Segment :=
  segmentsFrom (.endOfInput (endOf text)) [] (tokensOf text)

/-! ## Readings one by one -/

/-- A statement as it was read: its tree, and its error if it has one. -/
structure Reading where
  statement : Statement
  error : Option ParseError

/-- The state at the start of a segment. -/
def Segment.start (s : Segment) (bindings : Bindings) : State where
  tokens := s.tokens
  terminator := s.terminator
  previous := ⟨s.first.span.first, s.first.span.first⟩
  errors := []
  failed := false
  bindings := bindings
  placeholders := 0
  noted := State.noted_nil

/-- Reads a segment as a statement. -/
def Segment.read (s : Segment) (bindings : Bindings) : Reading × Bindings :=
  let result := (statement (.forTokens s.tokens.length)).run (s.start bindings)
  (⟨result.1, result.2.error⟩, result.2.bindings)

/-- Reads segments one after another, from the declared types that the first one starts with. -/
def readSegments (scope : ParameterScope) (bindings : Bindings) : List Segment → List Reading
  | [] => []
  | s :: rest =>
    let result := s.read bindings
    result.1 :: readSegments scope (scope.handOn result.2) rest

/-- All statements of a text. -/
def readings (scope : ParameterScope) (text : String) : List Reading :=
  readSegments scope [] (segments text)

/-- The statements to be kept, sorted by whether they have errors. Errors are kept all. -/
def ParseResult.ofReadings (retention : Retention) (rs : List Reading) : ParseResult :=
  let kept := rs.filter fun r => retention.keeps r.statement
  { statements := (kept.filter (·.error.isNone)).map (·.statement)
    recovered := (kept.filter (·.error.isSome)).map (·.statement)
    errors := rs.filterMap (·.error) }

/-! ## Tokens -/

/-- The longest runs of tokens without a semicolon in a text, those of no tokens left out. -/
def runs (text : String) : List (List Token) :=
  ((Lexer.ofString text).tokenize.1.splitOnP fun t => isSemicolon t || t.isEnd).filter
    fun run => !run.isEmpty

theorem isSemicolon_iff {t : Token} : isSemicolon t = true ↔ t.kind = .symbol .semicolon :=
  beq_iff_eq

theorem isEnd_iff {t : Token} : t.isEnd = true ↔ t.kind = .endOfInput := beq_iff_eq

theorem Segment.tokens_ne_nil (s : Segment) : s.tokens ≠ [] := List.cons_ne_nil _ _

theorem Segment.map_tokens_ofTokens? (tokens : List Token) (terminator : Token) :
    (Segment.ofTokens? tokens terminator).toList.map Segment.tokens =
      if tokens.isEmpty then [] else [tokens] := by
  cases tokens <;> rfl

theorem segmentsFrom_tokens {finish : Token} (hFinish : finish.isEnd) (before ts : List Token)
    (hTokens : ∀ t ∈ ts, t.isEnd = false) :
    (segmentsFrom finish before ts).map Segment.tokens =
      (List.splitOnPPrepend (fun t => isSemicolon t || t.isEnd) (ts ++ [finish])
        before.reverse).filter fun run => !run.isEmpty := by
  induction ts generalizing before with
  | nil =>
    rw [segmentsFrom, Segment.map_tokens_ofTokens?, List.nil_append,
      List.splitOnPPrepend_cons_pos (by simp [hFinish]), List.splitOnP_nil, List.reverse_reverse]
    cases before <;> rfl
  | cons t ts ih =>
    have hRest : ∀ u ∈ ts, u.isEnd = false := fun u hu => hTokens u (List.mem_cons_of_mem _ hu)
    have hSelf := hTokens t List.mem_cons_self
    rw [segmentsFrom, List.cons_append]
    split
    · next hSemicolon =>
      have hSplit := ih [] hRest
      rw [List.map_append, Segment.map_tokens_ofTokens?, hSplit,
        List.splitOnPPrepend_cons_pos (by simp [hSemicolon]), List.reverse_reverse]
      cases before <;> rfl
    · next hSemicolon =>
      rw [ih _ hRest, List.splitOnPPrepend_cons_neg (by simp [hSemicolon, hSelf]),
        List.reverse_append]
      rfl

theorem isEnd_tokensOf (text : String) : ∀ t ∈ tokensOf text, t.isEnd = false := by
  intro t ht
  rw [Bool.eq_false_iff, ne_eq, isEnd_iff]
  exact (placed_tokensOf text t ht).kind

/-- The segments of a text are its runs of tokens, in order. -/
theorem segments_tokens (text : String) : (segments text).map Segment.tokens = runs text :=
  segmentsFrom_tokens rfl [] (tokensOf text) (isEnd_tokensOf text)

/-- A segment stands in a list of tokens: all tokens of a statement, and behind them the semicolon
or the end of the list. -/
def Segment.StandsIn (s : Segment) (ts : List Token) : Prop :=
  ∃ before after, ts = before ++ (s.tokens ++ s.terminator :: after) ∧
    (∀ t ∈ s.tokens, isSemicolon t = false) ∧
    (isSemicolon s.terminator = true ∨ s.terminator.isEnd = true ∧ after = [])

theorem Segment.StandsIn.append {s : Segment} {ts : List Token} (h : s.StandsIn ts)
    (before : List Token) : s.StandsIn (before ++ ts) := by
  obtain ⟨before', after, rfl, hTokens, hTerminator⟩ := h
  exact ⟨before ++ before', after, (List.append_assoc _ _ _).symm, hTokens, hTerminator⟩

theorem Segment.mem_ofTokens? {s : Segment} {tokens : List Token} {terminator : Token}
    (h : s ∈ (Segment.ofTokens? tokens terminator).toList) :
    s.tokens = tokens ∧ s.terminator = terminator := by
  cases tokens with
  | nil => cases h
  | cons t rest =>
    obtain rfl := List.mem_singleton.mp h
    exact ⟨rfl, rfl⟩

theorem segmentsFrom_standsIn {finish : Token} (hFinish : finish.isEnd) (before ts : List Token)
    (hBefore : ∀ t ∈ before, isSemicolon t = false) :
    ∀ s ∈ segmentsFrom finish before ts, s.StandsIn (before ++ (ts ++ [finish])) := by
  induction ts generalizing before with
  | nil =>
    intro s hs
    obtain ⟨rfl, rfl⟩ := Segment.mem_ofTokens? hs
    exact ⟨[], [], rfl, hBefore, Or.inr ⟨hFinish, rfl⟩⟩
  | cons t ts ih =>
    intro s hs
    rw [segmentsFrom] at hs
    split at hs
    · next hSemicolon =>
      rcases List.mem_append.mp hs with hs | hs
      · obtain ⟨rfl, rfl⟩ := Segment.mem_ofTokens? hs
        exact ⟨[], ts ++ [finish], rfl, hBefore, Or.inl hSemicolon⟩
      · have hStands := (ih [] (by simp) s hs).append (before ++ [t])
        simpa using hStands
    · next hSemicolon =>
      have hStands := ih (before ++ [t]) (by
        intro u hu
        rcases List.mem_append.mp hu with hu | hu
        · exact hBefore u hu
        · rw [List.mem_singleton.mp hu]
          exact Bool.eq_false_iff.mpr hSemicolon) s hs
      simpa using hStands

/-- Every segment of a text stands among its tokens. -/
theorem segments_standsIn (text : String) :
    ∀ s ∈ segments text, s.StandsIn (tokensOf text ++ [.endOfInput (endOf text)]) :=
  segmentsFrom_standsIn rfl [] (tokensOf text) (by simp)

/-! ## Order -/

theorem Segment.flatMap_ofTokens?_sublist (tokens : List Token) (terminator : Token) :
    ((Segment.ofTokens? tokens terminator).toList.flatMap fun s =>
      s.tokens ++ [s.terminator]).Sublist
      (tokens ++ [terminator]) := by
  cases tokens with
  | nil => exact List.nil_sublist _
  | cons t rest => simp [Segment.ofTokens?, Segment.tokens]

/-- Segments are cut out of the tokens in order. -/
theorem segmentsFrom_sublist (finish : Token) (before ts : List Token) :
    ((segmentsFrom finish before ts).flatMap fun s => s.tokens ++ [s.terminator]).Sublist
      (before ++ (ts ++ [finish])) := by
  induction ts generalizing before with
  | nil => exact Segment.flatMap_ofTokens?_sublist before finish
  | cons t ts ih =>
    rw [segmentsFrom]
    split
    · rw [List.flatMap_append]
      have hTail := (Segment.flatMap_ofTokens?_sublist before t).append (ih [])
      simpa using hTail
    · simpa using ih (before ++ [t])

/-- The tokens of a segment and its terminator are in order, and none of them ends before it
starts. -/
structure Segment.Ordered (s : Segment) : Prop where
  terminator : isSemicolon s.terminator = true ∨ s.terminator.isEnd = true
  span : ∀ t ∈ s.tokens, t.span.first.offset ≤ t.span.last.offset
  pairwise : (s.tokens ++ [s.terminator]).Pairwise
    fun t u => t.span.last.offset ≤ u.span.first.offset

theorem segmentsFrom_pairwise (finish : Token) (before ts : List Token) :
    (segmentsFrom finish before ts).Pairwise fun s _ => isSemicolon s.terminator = true := by
  have hAlone : ∀ (tokens : List Token) (terminator : Token),
      (Segment.ofTokens? tokens terminator).toList.Pairwise
        fun s _ => isSemicolon s.terminator = true := by
    intro tokens terminator
    cases tokens with
    | nil => exact .nil
    | cons t rest => exact List.pairwise_singleton _ _
  induction ts generalizing before with
  | nil => exact hAlone before finish
  | cons t ts ih =>
    rw [segmentsFrom]
    split
    · next hSemicolon =>
      refine List.pairwise_append.mpr ⟨hAlone before t, ih [], fun s hs _ _ => ?_⟩
      rw [(Segment.mem_ofTokens? hs).2]
      exact hSemicolon
    · exact ih _

/-- What is gathered from tokens, and from those on both sides of a semicolon apart, is gathered
from the segments one by one. -/
theorem flatMap_segmentsFrom {β : Type} (gather : List Token → List β) (hNil : gather [] = [])
    (hAppend : ∀ before t ts, isSemicolon t = true →
      gather (before ++ t :: ts) = gather before ++ gather ts) (finish : Token)
    (before ts : List Token) :
    ((segmentsFrom finish before ts).flatMap fun s => gather s.tokens) = gather (before ++ ts) := by
  have hSegment : ∀ (tokens : List Token) (terminator : Token),
      ((Segment.ofTokens? tokens terminator).toList.flatMap fun s => gather s.tokens) =
        gather tokens := by
    intro tokens terminator
    cases tokens with
    | nil => exact hNil.symm
    | cons t tokens => exact List.append_nil _
  induction ts generalizing before with
  | nil => rw [segmentsFrom, hSegment, List.append_nil]
  | cons t ts ih =>
    rw [segmentsFrom]
    split
    · next hSemicolon =>
        rw [List.flatMap_append, hSegment, ih, hAppend before t ts hSemicolon, List.nil_append]
    · rw [ih, List.append_assoc, List.singleton_append]

/-- Tokens in a row in a segment are in a row in the text. -/
theorem infix_of_mem_segments {text : String} {seg : Segment} (hs : seg ∈ segments text) :
    seg.tokens <:+: tokensOf text := by
  obtain ⟨before, after, hTokens, -⟩ := segments_standsIn text seg hs
  have hInit := congrArg List.dropLast hTokens
  rw [List.dropLast_concat, List.dropLast_append_of_ne_nil (by simp),
    List.dropLast_append_of_ne_nil (by simp)] at hInit
  exact ⟨before, (seg.terminator :: after).dropLast, by rw [hInit, List.append_assoc]⟩

/-- The tokens of a segment are tokens of the text. -/
theorem segments_mem {text : String} {s : Segment} (hs : s ∈ segments text) {t : Token}
    (ht : t ∈ s.tokens) : t ∈ tokensOf text := (infix_of_mem_segments hs).subset ht

/-- A segment goes up to its terminator: no token of it ends a statement. -/
def Segment.Whole (s : Segment) : Prop := ∀ t ∈ s.tokens, endsStatement t = false

theorem segments_whole {text : String} {s : Segment} (hs : s ∈ segments text) : s.Whole := by
  intro t ht
  obtain ⟨-, -, -, hNone, -⟩ := segments_standsIn text s hs
  rw [endsStatement, hNone t ht, isEnd_tokensOf text t (segments_mem hs ht)]
  rfl

theorem segments_terminator_mem {text : String} {s : Segment} (hs : s ∈ segments text)
    (hSemicolon : isSemicolon s.terminator = true) : s.terminator ∈ tokensOf text := by
  obtain ⟨before, after, hTokens, -⟩ := segments_standsIn text s hs
  have hMem : s.terminator ∈ tokensOf text ++ [.endOfInput (endOf text)] := by
    rw [hTokens]
    simp
  refine (List.mem_append.mp hMem).resolve_right fun hEnd => ?_
  rw [List.mem_singleton.mp hEnd] at hSemicolon
  cases hSemicolon

/-- The segments of a text are in order. One with another behind it ends with a semicolon, which
starts before the other one. -/
theorem segments_pairwise (text : String) :
    (∀ s ∈ segments text, s.Ordered) ∧ (segments text).Pairwise fun s u =>
      isSemicolon s.terminator = true ∧
        s.terminator.span.first.offset < u.first.span.first.offset := by
  have hSublist := segmentsFrom_sublist (.endOfInput (endOf text)) [] (tokensOf text)
  obtain ⟨hSelf, hPairs⟩ :=
    List.pairwise_flatMap.mp ((tokensOf_pairwise text).sublist hSublist)
  refine ⟨fun s hs => ⟨?_, ?_, hSelf s hs⟩, List.Pairwise.imp_of_mem ?_
    (hPairs.and (segmentsFrom_pairwise (.endOfInput (endOf text)) [] (tokensOf text)))⟩
  · obtain ⟨-, -, -, -, h | ⟨h, -⟩⟩ := segments_standsIn text s hs
    · exact Or.inl h
    · exact Or.inr h
  · intro t ht
    exact Nat.le_of_lt (placed_tokensOf text t (segments_mem hs ht)).nonempty
  · rintro s u hs hu ⟨hOrder, hSemicolon⟩
    have hNext := hOrder s.terminator (by simp) u.first (by simp [Segment.tokens])
    have hNonempty := (placed_tokensOf text _ (segments_terminator_mem hs hSemicolon)).nonempty
    exact ⟨hSemicolon, by omega⟩

end SqlKit
