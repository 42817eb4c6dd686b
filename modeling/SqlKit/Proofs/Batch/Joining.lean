import SqlKit.Proofs.Batch.Isolation
import SqlKit.Proofs.Simulation.Invariant
import SqlKit.Proofs.Simulation.Places
import SqlKit.Proofs.Token.Semicolon
import Mathlib.Data.List.Forall2

/-!
# Texts joined by a semicolon

Reading two texts with a semicolon between them is reading them one after the other: neither the
recovery from errors nor the lookahead, the count of placeholders or what else is noted while a
statement is read goes over the semicolon (`parse_append_semicolon`). Only the declared types of
parameters are handed on, and those only where they last for the whole text. That the loop reads its
segments one by one is `parse_eq`; what is left is how the segments of the joined text are read.

* `segments_append_semicolon`: the segments of the joined text.
* `Segment.same_shift`, `Segment.same_atSemicolon`: a segment is read alike at another place and in
  front of another terminator.
* `readSegments_map`: segments that are read alike one by one are read alike in a row.
-/

namespace SqlKit

open Grammar

/-! ## Segments -/

namespace Segment

/-- A segment of a text that starts at `base`. -/
def shift (base : Position) (s : Segment) : Segment :=
  ⟨s.first.shift base, s.rest.map (Token.shift base), s.terminator.shift base⟩

/-- A segment with a semicolon behind it in place of the end of the text. -/
def atSemicolon (semicolon : Token) (s : Segment) : Segment :=
  if s.terminator.isEnd then { s with terminator := semicolon } else s

theorem map_shift_ofTokens? (base : Position) (tokens : List Token) (terminator : Token) :
    (ofTokens? (tokens.map (Token.shift base)) (terminator.shift base)).toList =
      (ofTokens? tokens terminator).toList.map (shift base) := by
  cases tokens <;> rfl

end Segment

theorem segmentsFrom_shift (base : Position) (finish : Token) (before ts : List Token) :
    segmentsFrom (finish.shift base) (before.map (Token.shift base)) (ts.map (Token.shift base)) =
      (segmentsFrom finish before ts).map (Segment.shift base) := by
  induction ts generalizing before with
  | nil => exact Segment.map_shift_ofTokens? base before finish
  | cons t ts ih =>
    have hSame : isSemicolon (t.shift base) = isSemicolon t := rfl
    rw [List.map_cons, segmentsFrom, segmentsFrom, hSame]
    split
    · rw [Segment.map_shift_ofTokens?, List.map_append, ← ih []]
      rfl
    · rw [← ih, List.map_append]
      rfl

theorem segmentsFrom_atSemicolon {finish : Token} (hFinish : finish.isEnd = true)
    (semicolon : Token) (before ts : List Token) (hTokens : ∀ t ∈ ts, t.isEnd = false) :
    segmentsFrom semicolon before ts =
      (segmentsFrom finish before ts).map (Segment.atSemicolon semicolon) := by
  induction ts generalizing before with
  | nil =>
    rw [segmentsFrom, segmentsFrom]
    cases before with
    | nil => rfl
    | cons t rest => simp [Segment.ofTokens?, Segment.atSemicolon, hFinish]
  | cons t ts ih =>
    have hRest := fun before => ih before fun u hu => hTokens u (List.mem_cons_of_mem _ hu)
    rw [segmentsFrom, segmentsFrom]
    split
    · rw [List.map_append, hRest []]
      congr 1
      cases before with
      | nil => rfl
      | cons u rest =>
        simp [Segment.ofTokens?, Segment.atSemicolon, hTokens t List.mem_cons_self]
    · exact hRest _

/-- Segments in front of a semicolon end there. -/
theorem segmentsFrom_append {semicolon : Token} (h : isSemicolon semicolon = true)
    (finish : Token) (before ts rest : List Token) :
    segmentsFrom finish before (ts ++ semicolon :: rest) =
      segmentsFrom semicolon before ts ++ segmentsFrom finish [] rest := by
  induction ts generalizing before with
  | nil => simp only [List.nil_append, segmentsFrom, if_pos h]
  | cons t ts ih =>
    rw [List.cons_append, segmentsFrom, segmentsFrom]
    split
    · rw [ih [], List.append_assoc]
    · exact ih _

/-- The segments of two texts with a semicolon between them. -/
theorem segments_append_semicolon {a : String} {semicolon : Token}
    (hKind : semicolon.kind = .symbol .semicolon)
    (hTokens : tokensOf (a ++ ";") = tokensOf a ++ [semicolon]) (b : String) :
    segments (a ++ ";" ++ b) = (segments a).map (Segment.atSemicolon semicolon) ++
      (segments b).map (Segment.shift semicolon.span.last) := by
  obtain ⟨hAll, hEnd⟩ := tokensOf_append_semicolon hTokens b
  have hFinish : (Token.endOfInput (endOf a)).isEnd = true := rfl
  rw [segments, hAll, hEnd, segmentsFrom_append (isSemicolon_iff.mpr hKind), segments, segments,
    ← segmentsFrom_shift, segmentsFrom_atSemicolon hFinish semicolon [] _ (isEnd_tokensOf a)]
  rfl

/-! ## Readings -/

/-- Two readings of like statements; an error of the one is an error of the other, at the place that
`f` says. -/
structure Reading.Same (f : ParseError → ParseError) (r u : Reading) : Prop where
  statement : Like .spans u.statement r.statement
  error : u.error = r.error.map f

/-- Two segments that are read alike from any declared types, and declare the same types. -/
def Segment.Same (f : ParseError → ParseError) (s u : Segment) : Prop :=
  ∀ bindings, (s.read bindings).1.Same f (u.read bindings).1 ∧
    (u.read bindings).2 = (s.read bindings).2

theorem Segment.same_shift (base : Position) {s : Segment}
    (hEnd : s.terminator.kind.IsEnd) : s.Same (ParseError.shift base) (s.shift base) := by
  intro bindings
  have hLength : (s.shift base).tokens.length = s.tokens.length := by
    simp [shift, tokens]
  have hStart : (Simulation.shift base).state (s.start bindings) ((s.shift base).start bindings) :=
    ⟨rfl, hEnd⟩
  obtain ⟨hLike, hState, -⟩ :=
    similar_statement (keep_upTo (Simulation.shift base) (s.tokens.length + 1)) hStart
  simp only [read, Rules.forTokens, hLength]
  rw [hState]
  exact ⟨⟨hLike.symm, State.error_shift base _⟩, rfl⟩

/-- In a segment with a semicolon behind it no error is at the end of the text. -/
theorem Segment.error_atSemicolon (semicolon : Token) {s : Segment}
    (hTerminator : isSemicolon s.terminator = true) (hTokens : ∀ t ∈ s.tokens, t.isEnd = false)
    (bindings : Bindings) :
    (s.read bindings).1.error.map (ParseError.atSemicolon semicolon) =
      (s.read bindings).1.error := by
  have hEnd : s.terminator.isEnd = false := by
    rw [Token.isEnd, isSemicolon_iff.mp hTerminator]
    rfl
  have hNote : ∀ {u : State} {e : ParseError}, u.error.map (ParseError.atSemicolon semicolon) =
      u.error → e.atSemicolon semicolon = e →
      (u.note e).error.map (ParseError.atSemicolon semicolon) = (u.note e).error := by
    intro u e hError he
    rw [State.error_note, Option.map_or, hError, Option.map_some, he]
  have hInvariant : Invariant fun u => u.terminator = s.terminator ∧
      (∀ t ∈ u.tokens, t.isEnd = false) ∧
      u.error.map (ParseError.atSemicolon semicolon) = u.error := by
    refine ⟨?_, ?_, ?_, ?_, ?_, ?_⟩
    · rintro u ⟨hu, -⟩
      rw [hu]
      exact Or.inl (isSemicolon_iff.mp hTerminator)
    · rintro u t rest ⟨hu, hInside, hError⟩ hRest -
      exact ⟨hu, fun v hv => hInside v (hRest ▸ List.mem_cons_of_mem _ hv), hError⟩
    · rintro u expected ⟨hu, hInside, hError⟩
      refine ⟨by rwa [State.note_terminator], by rwa [State.note_tokens], hNote hError ?_⟩
      have hCurrent : u.current.isEnd = false := by
        cases hRest : u.tokens with
        | nil => rw [State.current_nil hRest, hu, hEnd]
        | cons t rest => exact State.current_cons hRest ▸ hInside t (hRest ▸ List.mem_cons_self)
      simp only [ParseError.atSemicolon, hCurrent, Bool.false_eq_true, if_false]
    · rintro _ u t rest name - - - - ⟨hu, hInside, hError⟩
      exact ⟨by rwa [State.note_terminator], by rwa [State.note_tokens], hNote hError rfl⟩
    · exact fun _ _ h => h
    · exact fun h => h
  simp only [read, Rules.forTokens]
  exact (hInvariant.run_statement _ ⟨rfl, hTokens, rfl⟩).2.2

theorem Segment.same_atSemicolon {semicolon : Token} (hKind : semicolon.kind = .symbol .semicolon)
    {s : Segment} (hTerminator : isSemicolon s.terminator = true ∨ s.terminator.isEnd = true)
    (hTokens : ∀ t ∈ s.tokens, t.isEnd = false) :
    s.Same (ParseError.atSemicolon semicolon) (s.atSemicolon semicolon) := by
  intro bindings
  rcases hTerminator with hTerminator | hTerminator
  · have hSelf : s.atSemicolon semicolon = s := by
      rw [atSemicolon, if_neg]
      simp [Token.isEnd, isSemicolon_iff.mp hTerminator]
    rw [hSelf]
    exact ⟨⟨rfl, (error_atSemicolon semicolon hTerminator hTokens bindings).symm⟩, rfl⟩
  · have hStart : (Simulation.semicolon hKind).state (s.start bindings)
        ((s.atSemicolon semicolon).start bindings) := by
      rw [atSemicolon, if_pos hTerminator]
      exact ⟨rfl, hTerminator, hTokens⟩
    obtain ⟨hLike, hState, -⟩ :=
      similar_statement (keep_upTo (Simulation.semicolon hKind) (s.tokens.length + 1)) hStart
    have hLength : (s.atSemicolon semicolon).tokens.length = s.tokens.length := by
      rw [atSemicolon, if_pos hTerminator]
      rfl
    simp only [read, Rules.forTokens, hLength]
    rw [hState]
    exact ⟨⟨hLike.symm, State.error_atSemicolon semicolon _⟩, rfl⟩

/-- The types declared behind some segments. -/
def bindingsAfter (scope : ParameterScope) (bindings : Bindings) : List Segment → Bindings
  | [] => bindings
  | s :: rest => bindingsAfter scope (scope.handOn (s.read bindings).2) rest

theorem readSegments_append (scope : ParameterScope) (bindings : Bindings) (xs ys : List Segment) :
    readSegments scope bindings (xs ++ ys) =
      readSegments scope bindings xs ++
        readSegments scope (bindingsAfter scope bindings xs) ys := by
  induction xs generalizing bindings with
  | nil => rfl
  | cons x xs ih =>
    rw [List.cons_append, readSegments, readSegments, bindingsAfter, ih]
    rfl

/-- Segments that are read alike one by one are read alike in a row. -/
theorem readSegments_map {f : ParseError → ParseError} {g : Segment → Segment}
    (scope : ParameterScope) (bindings : Bindings) {segs : List Segment}
    (h : ∀ s ∈ segs, s.Same f (g s)) :
    List.Forall₂ (Reading.Same f) (readSegments scope bindings segs)
        (readSegments scope bindings (segs.map g)) ∧
      bindingsAfter scope bindings (segs.map g) = bindingsAfter scope bindings segs := by
  induction segs generalizing bindings with
  | nil => exact ⟨.nil, rfl⟩
  | cons s segs ih =>
    obtain ⟨hSame, hBindings⟩ := h s List.mem_cons_self bindings
    obtain ⟨hRest, hAfter⟩ := ih (scope.handOn (s.read bindings).2)
      fun u hu => h u (List.mem_cons_of_mem _ hu)
    simp only [List.map_cons, readSegments, bindingsAfter, hBindings]
    exact ⟨.cons hSame hRest, hAfter⟩

/-! ## Results -/

/-- The types declared behind a text. -/
def bindingsLeft (options : ParseOptions) (text : String) : Bindings :=
  ((Progress.ofText [] text).finish options).state.bindings

/-- The types that the loop hands on are those that the segments do. -/
theorem Progress.handOn_finish (options : ParseOptions) (p : Progress) (h : p.state.InOrder) :
    options.scope.handOn (p.finish options).state.bindings =
      bindingsAfter options.scope (options.scope.handOn p.state.bindings)
        (segmentsFrom p.state.terminator [] p.state.tokens) := by
  fun_induction p.finish options with
  | case1 p hNext =>
    rw [← segmentsFrom_dropWhile, tokens_of_next?_eq_none h hNext]
    rfl
  | case2 p q hNext ih =>
    obtain ⟨first, rest, hTokens, hFirst, rfl⟩ := exists_of_next? hNext
    have hReads := reads_skipSemicolons options h hTokens hFirst
    rw [ih hReads.inOrder, hReads.segments, hReads.bindings]
    rfl

theorem handOn_bindingsLeft (options : ParseOptions) (text : String) :
    options.scope.handOn (bindingsLeft options text) =
      bindingsAfter options.scope [] (segments text) := by
  rw [bindingsLeft, Progress.handOn_finish options _ (Progress.inOrder_ofText [] text)]
  cases options.scope <;> rfl

/-- The result of reading two texts one after the other, with a semicolon between them: the same
trees, and the same errors. Errors at the end of the first text are at the semicolon, those of the
second one behind it. -/
structure Joined (semicolon : Token) (left right whole : ParseResult) : Prop where
  statements : Like .spans whole.statements (left.statements ++ right.statements)
  recovered : Like .spans whole.recovered (left.recovered ++ right.recovered)
  errors : whole.errors = left.errors.map (ParseError.atSemicolon semicolon) ++
    right.errors.map (ParseError.shift semicolon.span.last)

theorem ofReadings_same {f : ParseError → ParseError} {rs us : List Reading}
    (h : List.Forall₂ (Reading.Same f) rs us) :
    Like .spans (ParseResult.ofReadings .all us).statements
        (ParseResult.ofReadings .all rs).statements ∧
      Like .spans (ParseResult.ofReadings .all us).recovered
        (ParseResult.ofReadings .all rs).recovered ∧
      (ParseResult.ofReadings .all us).errors =
        (ParseResult.ofReadings .all rs).errors.map f := by
  induction h with
  | nil => exact ⟨rfl, rfl, rfl⟩
  | @cons r u rs us hSame _ ih =>
    obtain ⟨hStatements, hRecovered, hErrors⟩ := ih
    obtain ⟨hStatement, hError⟩ := hSame
    simp only [ParseResult.ofReadings, Retention.keeps, List.filter_true] at *
    cases hOld : r.error with
    | none =>
      rw [hOld, Option.map_none] at hError
      simp only [List.filter_cons, List.filterMap_cons, hOld, hError]
      exact ⟨hStatement.cons hStatements, hRecovered, hErrors⟩
    | some e =>
      rw [hOld, Option.map_some] at hError
      simp only [List.filter_cons, List.filterMap_cons, hOld, hError]
      exact ⟨hStatements, hStatement.cons hRecovered, congrArg _ hErrors⟩

theorem parseFrom_append_semicolon {a : String} {semicolon : Token}
    (hKind : semicolon.kind = .symbol .semicolon)
    (hTokens : tokensOf (a ++ ";") = tokensOf a ++ [semicolon]) (b : String)
    (scope : ParameterScope) :
    Joined semicolon (parse ⟨scope, .all⟩ a)
      (parseFrom ⟨scope, .all⟩ (bindingsLeft ⟨scope, .all⟩ a) b)
      (parse ⟨scope, .all⟩ (a ++ ";" ++ b)) := by
  have hEnds : ∀ text, ∀ s ∈ segments text, ∀ t ∈ s.tokens, t.isEnd = false :=
    fun text s hs t ht => isEnd_tokensOf text t (segments_mem hs ht)
  have hA : ∀ s ∈ segments a,
      s.Same (ParseError.atSemicolon semicolon) (s.atSemicolon semicolon) := fun s hs =>
    Segment.same_atSemicolon hKind ((segments_pairwise a).1 s hs).terminator (hEnds a s hs)
  have hB : ∀ s ∈ segments b,
      s.Same (ParseError.shift semicolon.span.last) (s.shift semicolon.span.last) := fun s hs =>
    Segment.same_shift _ (segments_isEnd hs)
  obtain ⟨hLeft, hBindings⟩ := readSegments_map scope [] hA
  obtain ⟨hRight, -⟩ := readSegments_map scope (bindingsAfter scope [] (segments a)) hB
  obtain ⟨hStatements, hRecovered, hErrors⟩ := ofReadings_same hLeft
  obtain ⟨hStatements', hRecovered', hErrors'⟩ := ofReadings_same hRight
  have hWhole : parse ⟨scope, .all⟩ (a ++ ";" ++ b) = .ofReadings .all
      (readSegments scope [] ((segments a).map (Segment.atSemicolon semicolon)) ++
        readSegments scope (bindingsAfter scope [] (segments a))
          ((segments b).map (Segment.shift semicolon.span.last))) := by
    rw [← hBindings, ← readSegments_append, ← segments_append_semicolon hKind hTokens b, parse_eq]
    rfl
  rw [hWhole, ParseResult.ofReadings_append, parse_eq, parseFrom_eq, handOn_bindingsLeft]
  exact ⟨hStatements.append hStatements', hRecovered.append hRecovered',
    congrArg₂ (· ++ ·) hErrors hErrors'⟩

/-- **Statements are isolated.** Where a semicolon behind a text is the only token that it adds, the
loop over the text and any other one behind the semicolon does what it does over each of them alone:
the trees are the same up to their places, and so are the errors, except that an error at the end of
the first text is at the semicolon and those of the second text stand behind it. Where declared
types last for the whole text, the second text is read with those that are left behind the first
one. -/
theorem parse_append_semicolon {a : String} {semicolon : Token}
    (hKind : semicolon.kind = .symbol .semicolon)
    (hTokens : tokensOf (a ++ ";") = tokensOf a ++ [semicolon]) (b : String) :
    Joined semicolon (parse ⟨.statement, .all⟩ a) (parse ⟨.statement, .all⟩ b)
        (parse ⟨.statement, .all⟩ (a ++ ";" ++ b)) ∧
      Joined semicolon (parse ⟨.session, .all⟩ a)
        (parseFrom ⟨.session, .all⟩ (bindingsLeft ⟨.session, .all⟩ a) b)
        (parse ⟨.session, .all⟩ (a ++ ";" ++ b)) := by
  have hStatement := parseFrom_append_semicolon hKind hTokens b .statement
  -- Within one statement, types declared before the text are not known.
  have hAlone : parseFrom ⟨.statement, .all⟩ (bindingsLeft ⟨.statement, .all⟩ a) b =
      parse ⟨.statement, .all⟩ b := by
    rw [parse, parseFrom_eq, parseFrom_eq]
    rfl
  rw [hAlone] at hStatement
  exact ⟨hStatement, parseFrom_append_semicolon hKind hTokens b .session⟩

/-- A statement that breaks off in front of one that is whole. -/
theorem joined_broken_statement :
    tokensOf ("SELECT @a:INT," ++ ";") =
        tokensOf "SELECT @a:INT," ++ [Token.semicolonAt ⟨14, 1, 15⟩] ∧
      Joined (.semicolonAt ⟨14, 1, 15⟩) (parse ⟨.statement, .all⟩ "SELECT @a:INT,")
        (parse ⟨.statement, .all⟩ "SELECT @a")
        (parse ⟨.statement, .all⟩ ("SELECT @a:INT," ++ ";" ++ "SELECT @a")) ∧
      Joined (.semicolonAt ⟨14, 1, 15⟩) (parse ⟨.session, .all⟩ "SELECT @a:INT,")
        (parseFrom ⟨.session, .all⟩ (bindingsLeft ⟨.session, .all⟩ "SELECT @a:INT,") "SELECT @a")
        (parse ⟨.session, .all⟩ ("SELECT @a:INT," ++ ";" ++ "SELECT @a")) := by
  have hTokens : tokensOf ("SELECT @a:INT," ++ ";") =
      tokensOf "SELECT @a:INT," ++ [Token.semicolonAt ⟨14, 1, 15⟩] := by decide +kernel
  exact ⟨hTokens, parse_append_semicolon rfl hTokens "SELECT @a"⟩

end SqlKit
