import SqlKit.Proofs.Batch.Accounting
import SqlKit.Proofs.Grammar.Unbounded

/-!
# Reading ends

A text is read by readers that come back to themselves without any bound (`parse_unbounded`). That
this ends is due to the tokens alone: a round of the loop over statements takes at least one, a
round of a loop in a statement takes one, and so does a round of the recursion, with and without
errors before it.
-/

namespace SqlKit

open Grammar

/-- Reads a segment with some rules. -/
def Segment.readWith (rules : Rules) (s : Segment) (bindings : Bindings) : Reading × Bindings :=
  let result := (statement rules).run (s.start bindings)
  (⟨result.1, result.2.error⟩, result.2.bindings)

/-- Reads segments with some rules, one after another. -/
def readSegmentsWith (rules : Rules) (scope : ParameterScope) (bindings : Bindings) :
    List Segment → List Reading
  | [] => []
  | s :: rest =>
    let result := s.readWith rules bindings
    result.1 :: readSegmentsWith rules scope (scope.handOn result.2) rest

/-- Reads a text with some rules. -/
def parseWith (rules : Rules) (options : ParseOptions) (text : String) : ParseResult :=
  .ofReadings options.retention (readSegmentsWith rules options.scope [] (segments text))

/-- The bound of the recursion is never used up. -/
theorem run_statement_forTokens {s : State} (hEnd : s.terminator.kind.IsEnd) :
    (statement (.forTokens s.tokens.length)).run s = (statement Rules.unbounded).run s := by
  have hRules := Rules.sameBelow_unbounded (n := s.tokens.length) (Nat.le_succ s.tokens.length)
  exact sameBelow_statement hRules.symm s hEnd (Nat.lt_succ_self _)

theorem Segment.read_eq (s : Segment) (hEnd : s.terminator.kind.IsEnd) (bindings : Bindings) :
    s.read bindings = s.readWith Rules.unbounded bindings := by
  have hRun : (statement (.forTokens s.tokens.length)).run (s.start bindings) =
      (statement Rules.unbounded).run (s.start bindings) :=
    run_statement_forTokens (s := s.start bindings) hEnd
  rw [Segment.read, hRun]
  rfl

theorem readSegments_eq (scope : ParameterScope) (bindings : Bindings) {segs : List Segment}
    (hEnd : ∀ s ∈ segs, s.terminator.kind.IsEnd) :
    readSegments scope bindings segs = readSegmentsWith Rules.unbounded scope bindings segs := by
  induction segs generalizing bindings with
  | nil => rfl
  | cons s segs ih =>
    rw [readSegments, readSegmentsWith, s.read_eq (hEnd s List.mem_cons_self),
      ih _ fun u hu => hEnd u (List.mem_cons_of_mem _ hu)]

/-- The segments of a text are its tokens without the semicolons. -/
theorem segments_flatMap_tokens (text : String) :
    (segments text).flatMap Segment.tokens = (tokensOf text).filter (!isSemicolon ·) := by
  have hGathered := flatMap_segmentsFrom (List.filter (!isSemicolon ·)) rfl
    (fun before t ts hSemicolon => by simp [hSemicolon]) (.endOfInput (endOf text)) []
    (tokensOf text)
  rw [List.nil_append] at hGathered
  rw [← hGathered, List.flatMap_def, List.flatMap_def]
  refine congrArg List.flatten (List.map_congr_left fun s hs => ?_)
  obtain ⟨-, -, -, hNone, -⟩ := segments_standsIn text s hs
  exact (List.filter_eq_self.mpr fun t ht => by simp [hNone t ht]).symm

/-- **Reading ends without a bound.** The readers of the grammar come back to themselves in exactly
one way (`Rules.unbounded`), and `parse` reads with them, whatever the text and the options. A round
of the loop over statements takes at least one token, for each segment there is one, each round of a
loop in a statement takes another one, and a reader with `n + 1` tokens comes back to the grammar
with at most `n`, whether or not an error was noted before. -/
theorem parse_unbounded :
    Rules.unbounded.Unbounded ∧
      (∀ rules : Rules, rules.Unbounded → ∀ n, rules.SameBelow n Rules.unbounded) ∧
      (∀ options text, parse options text = parseWith Rules.unbounded options text) ∧
      (∀ (scope : ParameterScope) (s : State), s.terminator.kind.IsEnd →
        (statement (.forTokens s.tokens.length)).run (s.begin scope) =
          (statement Rules.unbounded).run (s.begin scope)) ∧
      (∀ options (p q : Progress), p.next? options = some q →
        q.state.tokens.length < p.state.tokens.length) ∧
      (∀ text, ((segments text).flatMap Segment.tokens).Sublist (tokensOf text) ∧
        ∀ s ∈ segments text, s.tokens ≠ []) ∧
      (∀ (n : Nat) (rules rules' : Rules), rules.SameBelow n rules' →
        rules.next.SameBelow (n + 1) rules'.next ∧
          SameBelow (n + 1) (statement rules) (statement rules')) ∧
      ∀ {α β : Type} (accept : Token → Option β) (item : β → Parse α) (s : State),
        ((Parse.chain accept item).run s).1.length +
          ((Parse.chain accept item).run s).2.tokens.length ≤ s.tokens.length := by
  refine ⟨Rules.unbounded_unbounded, ?_, ?_, ?_, fun _ _ _ => Progress.length_lt_of_next?, ?_, ?_,
    length_chain_le⟩
  · intro rules h n
    exact h.unique Rules.unbounded_unbounded n
  · intro options text
    rw [parse_eq, parseWith, readings, readSegments_eq]
    exact fun _ => segments_isEnd
  · intro scope s hEnd
    exact run_statement_forTokens (s := s.begin scope) hEnd
  · intro text
    refine ⟨?_, fun s _ => s.tokens_ne_nil⟩
    rw [segments_flatMap_tokens]
    exact List.filter_sublist
  · intro n rules rules' h
    exact ⟨h.next, sameBelow_statement h⟩

end SqlKit
