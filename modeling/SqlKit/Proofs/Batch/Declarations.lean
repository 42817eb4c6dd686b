import SqlKit.Proofs.Batch.ErrorPlaces
import SqlKit.Proofs.Batch.Parameters

/-!
# What is known of parameters behind an error

The types that are known behind a statement come from the declarations in it, whatever became of the
statement (`Segment.binding_of_read`). A declaration that misses a name declares what is left of it,
so a parameter without a type has the type of some declaration in front of it, as far as that one is
written, and the declarations of its own statement are complete (`parse_declarations`).
-/

namespace SqlKit

open Grammar

/-! ## Segments -/

/-- What is known of parameters behind a declaration. -/
def Attempt.binding (a : Attempt) : String × String := (a.name.toLower, a.typeName)

/-- The declarations in a segment, as far as they are written. -/
def Segment.attempts (s : Segment) : List Attempt := SqlKit.attempts s.tokens

/-- The declarations in front of a statement from which a parameter in it may take its type. -/
def ParameterScope.attempted (scope : ParameterScope) (before : List Segment) : List Attempt :=
  match scope with
  | .session => before.flatMap Segment.attempts
  | .statement => []

/-- The declarations of a text are those of its segments. -/
theorem attempts_segments (text : String) :
    (segments text).flatMap Segment.attempts = attempts (tokensOf text) := by
  refine flatMap_segmentsFrom SqlKit.attempts rfl (fun before t ts hSemicolon => ?_) _ []
    (tokensOf text)
  have hKind := isSemicolon_iff.mp hSemicolon
  rw [attempts_append (stops_semicolon hKind), attempts_cons (by simp [hKind])]

namespace Segment

variable {seg : Segment} {b : Bindings}

/-- While a segment is read, what is known of parameters was known before or is declared in it. -/
structure Records (seg : Segment) (b : Bindings) (s : State) : Prop where
  tokens : s.tokens <:+ seg.tokens
  terminator : s.terminator = seg.terminator
  bindings : ∀ x ∈ s.bindings, x ∈ b ∨ ∃ a ∈ seg.attempts, a.binding = x

theorem Records.note {s : State} {e : ParseError} (h : seg.Records b s) :
    seg.Records b (s.note e) :=
  ⟨by rw [State.note_tokens]; exact h.tokens, by rw [State.note_terminator]; exact h.terminator,
    by rw [State.note_bindings]; exact h.bindings⟩

theorem invariant_records (hEnd : seg.terminator.kind.IsEnd) : Invariant (seg.Records b) where
  terminator hs := hs.terminator ▸ hEnd
  take hs hTokens _ :=
    ⟨(List.suffix_cons _ _).trans (hTokens ▸ hs.tokens), hs.terminator, hs.bindings⟩
  unexpected _ hs := hs.note
  untyped _ _ _ _ hu := hu.note
  declare {s u a} hs hAttempt hu := by
    refine ⟨hu.tokens, hu.terminator, fun x hx => ?_⟩
    rcases List.mem_cons.mp hx with rfl | hx
    · exact .inr ⟨a, mem_attempts hs.tokens hAttempt, rfl⟩
    · exact hu.bindings x hx
  countPlaceholder hs := ⟨hs.tokens, hs.terminator, hs.bindings⟩

/-- Whatever became of a segment, what is known behind it was known before or is declared in it. -/
theorem binding_of_read (hEnd : seg.terminator.kind.IsEnd) :
    ∀ x ∈ (seg.read b).2, x ∈ b ∨ ∃ a ∈ seg.attempts, a.binding = x := by
  have hStart : seg.Records b (seg.start b) := ⟨List.suffix_rfl, rfl, fun x hx => .inl hx⟩
  exact ((invariant_records hEnd).run_statement _ hStart).bindings

/-- In a segment that is read without an error no declaration misses a name. -/
theorem complete_of_read (hWhole : seg.Whole) (hError : (seg.read b).1.error = none) :
    ∀ a ∈ seg.attempts, a.Complete :=
  after_statement_attempts (s := seg.start b) (collects_upTo _) hWhole hError

end Segment

/-- A statement that is read behind others starts with what was declared in its reach, as far as it
is written. -/
theorem readSegments_attempted {scope : ParameterScope} {before ss : List Segment} {b : Bindings}
    (hEnd : ∀ s ∈ ss, s.terminator.kind.IsEnd)
    (hb : ∀ x ∈ b, ∃ a ∈ scope.attempted before, a.binding = x) :
    ∀ r ∈ readSegments scope b ss, ∃ front s back b', ss = front ++ s :: back ∧
      r = (s.read b').1 ∧ ∀ x ∈ b', ∃ a ∈ scope.attempted (before ++ front), a.binding = x := by
  induction ss generalizing before b with
  | nil => simp [readSegments]
  | cons s ss ih =>
    obtain ⟨hHead, hTail⟩ := List.forall_mem_cons.mp hEnd
    have hNext : ∀ x ∈ scope.handOn (s.read b).2,
        ∃ a ∈ scope.attempted (before ++ [s]), a.binding = x := by
      cases scope with
      | statement => simp [ParameterScope.handOn]
      | session =>
        intro x hx
        simp only [ParameterScope.attempted, List.flatMap_append, List.flatMap_singleton,
          List.mem_append] at hb ⊢
        rcases Segment.binding_of_read hHead x hx with hOld | ⟨a, ha, hBinding⟩
        · obtain ⟨a, ha, hBinding⟩ := hb x hOld
          exact ⟨a, .inl ha, hBinding⟩
        · exact ⟨a, .inr ha, hBinding⟩
    intro r hr
    rcases List.mem_cons.mp hr with rfl | hr
    · exact ⟨[], s, ss, b, rfl, rfl, by rwa [List.append_nil]⟩
    · obtain ⟨front, t, back, b', rfl, hRead, hKnown⟩ := ih hTail hNext r hr
      exact ⟨s :: front, t, back, b', rfl, hRead, by rwa [List.append_assoc] at hKnown⟩

/-! ## Parameters without a type -/

/-- What is known of parameters behind some of them was known before, or is declared by one of
them. -/
theorem mem_of_declarations {os : List Occurrence} {b : Bindings} {x : String × String}
    (h : x ∈ declarations b os) : x ∈ b ∨
      ∃ o ∈ os, o.name.toLower = x.1 ∧ o.typeName? = some x.2 := by
  induction os generalizing b with
  | nil => exact .inl h
  | cons o os ih =>
    rcases ih h with hDeclared | ⟨o', ho', hSame⟩
    · rw [Occurrence.declare] at hDeclared
      split at hDeclared
      · next typeName hType =>
        rcases List.mem_cons.mp hDeclared with rfl | hOld
        · exact .inr ⟨o, List.mem_cons_self, rfl, hType⟩
        · exact .inl hOld
      · exact .inl hDeclared
    · exact .inr ⟨o', List.mem_cons_of_mem o ho', hSame⟩

/-- A declaration in reach of which nothing is missing is a parameter in reach that has a type. -/
theorem exists_occurrence_of_attempted {scope : ParameterScope} {before : List Segment}
    {front : List Token} {a : Attempt} (ha : a ∈ scope.attempted before ++ attempts front)
    (h : a.Complete) : ∃ o ∈ scope.reach before ++ occurrences front, o.name = a.name ∧
      o.typeName? = some a.typeName := by
  rcases List.mem_append.mp ha with ha | ha
  · cases scope with
    | statement => cases ha
    | session =>
      obtain ⟨segment, hSegment, ha⟩ := List.mem_flatMap.mp ha
      obtain ⟨o, ho, hSame⟩ := exists_occurrence_of_attempts ha h
      exact ⟨o, List.mem_append_left _ (List.mem_flatMap.mpr ⟨segment, hSegment, ho⟩), hSame⟩
  · obtain ⟨o, ho, hSame⟩ := exists_occurrence_of_attempts ha h
    exact ⟨o, List.mem_append_right _ ho, hSame⟩

/-- A statement was read from a segment without an error, so that its declarations are complete; and
each parameter without a type in it has the type of a declaration of its name in front of it, in the
statement itself or in reach of it. If this declaration misses no name, it stands there as a
parameter with this type. -/
structure Statement.TypedBehind (statement : Statement) (segment : Segment) (scope : ParameterScope)
    (before : List Segment) : Prop where
  read : ∃ bindings, (segment.read bindings).1 = ⟨statement, none⟩
  complete : ∀ a ∈ segment.attempts, a.Complete
  untyped : ∀ p ∈ statement.parameters, p.declared = false → ∃ front mark back,
    segment.tokens = front ++ mark :: back ∧ mark.kind = .symbol .atSign ∧
      mark.span.first = p.span.first ∧ ∃ a ∈ scope.attempted before ++ attempts front,
        Text.sameName a.name p.name ∧ a.typeName = p.typeName ∧
          (a.Complete → ∃ o ∈ scope.reach before ++ occurrences front, o.name = a.name ∧
            o.typeName? = some p.typeName)

theorem Statement.typedBehind_of_read {segment : Segment} {b : Bindings} {statement : Statement}
    {scope : ParameterScope} {before : List Segment} (hWhole : segment.Whole)
    (hRead : (segment.read b).1 = ⟨statement, none⟩)
    (hb : ∀ x ∈ b, ∃ a ∈ scope.attempted before, a.binding = x) :
    statement.TypedBehind segment scope before := by
  have hError : (segment.read b).1.error = none := by rw [hRead]
  have hComplete := Segment.complete_of_read hWhole hError
  refine ⟨⟨b, hRead⟩, hComplete, fun p hp hUndeclared => ?_⟩
  obtain ⟨⟨ps, hPerm, hBound⟩, -⟩ := Segment.read_parameters hWhole b hError
  rw [hRead] at hPerm
  obtain ⟨earlier, o, later, hOccurrences, hGives⟩ := hBound.exists_gives p (hPerm.mem_iff.mp hp)
  obtain ⟨front, mark, back, hTokens, hMark, hPlace, rfl⟩ :=
    exists_split_of_occurrences hOccurrences
  refine ⟨front, mark, back, hTokens, hMark, hPlace.trans hGives.position.symm, ?_⟩
  have hType : o.typeName? = none := by
    cases hType : o.typeName? with
    | none => rfl
    | some typeName => exact nomatch hUndeclared.symm.trans (hGives.typed typeName hType).1
  have hKnown : (p.name.toLower, p.typeName) ∈ declarations b (occurrences front) := by
    obtain ⟨_, _, hSplit, -⟩ := List.lookup_eq_some_iff.mp (hGives.untyped hType).2
    rw [hSplit, hGives.name]
    simp
  suffices hAttempt : ∃ a ∈ scope.attempted before ++ attempts front,
      a.name.toLower = p.name.toLower ∧ a.typeName = p.typeName by
    obtain ⟨a, ha, hName, hTypeName⟩ := hAttempt
    exact ⟨a, ha, Text.sameName_iff.mpr hName, hTypeName,
      hTypeName ▸ exists_occurrence_of_attempted ha⟩
  rcases mem_of_declarations hKnown with hOld | ⟨o', ho', hName, hType'⟩
  · obtain ⟨a, ha, hBinding⟩ := hb _ hOld
    exact ⟨a, List.mem_append_left _ ha, Prod.mk.inj hBinding⟩
  · have hFront : ∀ a ∈ attempts front, a.Complete := by
      intro a ha
      refine hComplete a ?_
      rw [Segment.attempts, hTokens, attempts_append (stops_atSign hMark)]
      exact List.mem_append_left _ ha
    obtain ⟨a, ha, hSame, hTypeName⟩ := exists_attempt_of_occurrences hFront ho' hType'
    exact ⟨a, List.mem_append_right _ ha, hSame ▸ hName, hTypeName⟩

/-- **Where the types of parameters come from.** However a text is read, and whatever became of the
statements in front, each parameter without a type in a statement without an error has the type of a
declaration of its name in front of it, as far as that one is written; only in an earlier statement
may names be missing in it. If none of them is missing, it stands there as a parameter with this
type. -/
theorem parse_declarations (options : ParseOptions) (text : String) :
    attempts (tokensOf text) = (segments text).flatMap Segment.attempts ∧
      ∀ statement ∈ (parse options text).statements, ∃ before segment after,
        segments text = before ++ segment :: after ∧
        statement.TypedBehind segment options.scope before := by
  refine ⟨(attempts_segments text).symm, fun statement hStatement => ?_⟩
  rw [parse_eq] at hStatement
  obtain ⟨r, hr, rfl⟩ := List.mem_map.mp hStatement
  obtain ⟨hKept, hError⟩ := List.mem_filter.mp hr
  have hEnd : ∀ segment ∈ segments text, segment.terminator.kind.IsEnd := fun _ => segments_isEnd
  have hNothing : ∀ x ∈ ([] : Bindings), ∃ a ∈ options.scope.attempted [], a.binding = x := by simp
  obtain ⟨before, segment, after, b, hSplit, hRead, hKnown⟩ :=
    readSegments_attempted hEnd hNothing r (List.mem_filter.mp hKept).1
  have hWhole : segment.Whole := @segments_whole text _ (by rw [hSplit]; simp)
  refine ⟨before, segment, after, hSplit, Statement.typedBehind_of_read (b := b) hWhole ?_ hKnown⟩
  rw [← hRead, ← Option.isNone_iff_eq_none.mp hError]

/-- A declaration that misses the second name of its type, and a use of its parameter behind it. -/
def sampleDeclarations : String := "SELECT @p:app.; SELECT @p"

theorem parse_declarations_sampleDeclarations :
    (parse .standard sampleDeclarations).statements.map (·.parameters.map (·.typeName)) =
        [["app."]] ∧
      ∀ statement ∈ (parse .standard sampleDeclarations).statements, ∃ before segment after,
        segments sampleDeclarations = before ++ segment :: after ∧
        statement.TypedBehind segment .session before :=
  ⟨by decide +kernel, (parse_declarations .standard sampleDeclarations).2⟩

/-- A declaration without a type binds its parameter: a later use of it is well-formed, though there
is no type anywhere in the text. -/
theorem type_of_broken_declaration :
    (∃ statement ∈ (parse .standard "SELECT @p:; SELECT @p").statements,
        ∃ p ∈ statement.parameters, p.declared = false ∧ p.name = "p" ∧ p.typeName = "") ∧
      ∀ o ∈ occurrences (tokensOf "SELECT @p:; SELECT @p"), o.typeName? = none := by
  decide +kernel

end SqlKit
