import SqlKit.Proofs.Batch.Isolation
import SqlKit.Proofs.Grammar.Parameters

/-!
# Parameters and their types

In a text without errors every parameter with a name has the type that is written at it, or else the
one of the last declaration of its name in front of it: in the whole text, or in its own statement,
as the options say (`parse_parameters`).
-/

namespace SqlKit

open Grammar

/-- The parameters that are written in a segment. -/
def Segment.occurrences (s : Segment) : List Occurrence := SqlKit.occurrences s.tokens

/-- The parameters in front of a statement from which one in it may take its type. -/
def ParameterScope.reach (scope : ParameterScope) (before : List Segment) : List Occurrence :=
  match scope with
  | .session => before.flatMap Segment.occurrences
  | .statement => []

/-! ## Segments -/

/-- The parameters of a text are those of its segments. -/
theorem occurrences_segments (text : String) :
    (segments text).flatMap Segment.occurrences = occurrences (tokensOf text) := by
  refine flatMap_segmentsFrom occurrences rfl (fun before t ts hSemicolon => ?_) _ []
    (tokensOf text)
  have hKind := isSemicolon_iff.mp hSemicolon
  rw [occurrences_append (stops_semicolon hKind), occurrences_cons (by simp [hKind])]

/-- What is read of a segment, when it has no error. -/
theorem Segment.read_parameters {s : Segment} (hWhole : s.Whole) (bindings : Bindings)
    (hError : (s.read bindings).1.error = none) :
    (∃ ps, (s.read bindings).1.statement.parameters.Perm ps ∧ Bound bindings s.occurrences ps) ∧
      (s.read bindings).2 = declarations bindings s.occurrences :=
  after_statement_parameters (s := s.start bindings) (collects_upTo _) hWhole hError

/-- A statement that is read behind others starts with what is declared in its reach. -/
theorem readSegments_reach (scope : ParameterScope) (before : List Segment) {ss : List Segment}
    (hWhole : ∀ s ∈ ss, s.Whole)
    (hErrors : ∀ r ∈ readSegments scope (declarations [] (scope.reach before)) ss, r.error = none) :
    ∀ r ∈ readSegments scope (declarations [] (scope.reach before)) ss, ∃ front s back,
      ss = front ++ s :: back ∧ r = (s.read (declarations [] (scope.reach (before ++ front)))).1 :=
        by
  induction ss generalizing before with
  | nil => simp [readSegments]
  | cons s ss ih =>
    have hHead := hErrors _ List.mem_cons_self
    obtain ⟨hSelf, hOthers⟩ := List.forall_mem_cons.mp hWhole
    have hNext : scope.handOn (s.read (declarations [] (scope.reach before))).2 =
        declarations [] (scope.reach (before ++ [s])) := by
      rw [(Segment.read_parameters hSelf _ hHead).2]
      cases scope with
      | session => simp [ParameterScope.handOn, ParameterScope.reach, declarations_append]
      | statement => rfl
    rw [readSegments, hNext] at hErrors ⊢
    have hRest := ih (before ++ [s]) hOthers fun r hr => hErrors r (List.mem_cons_of_mem _ hr)
    intro r hr
    rcases List.mem_cons.mp hr with rfl | hr
    · exact ⟨[], s, ss, rfl, by rw [List.append_nil]⟩
    · obtain ⟨front, t, back, rfl, hRead⟩ := hRest r hr
      exact ⟨s :: front, t, back, rfl, by rw [hRead, List.append_assoc]; rfl⟩

/-! ## Texts -/

/-- Without errors every statement that is kept is the reading of a segment, behind what is declared
in its reach. -/
theorem exists_segment {options : ParseOptions} {text : String}
    (hErrors : (parse options text).errors = []) {statement : Statement}
    (h : statement ∈ (parse options text).statements) :
    ∃ before segment after, segments text = before ++ segment :: after ∧
      (segment.read (declarations [] (options.scope.reach before))).1 = ⟨statement, none⟩ := by
  rw [parse_eq] at hErrors h
  have hNone : ∀ r ∈ readings options.scope text, r.error = none := by
    intro r hr
    exact List.filterMap_eq_nil_iff.mp hErrors r hr
  obtain ⟨r, hr, rfl⟩ := List.mem_map.mp h
  have hMem : r ∈ readings options.scope text := (List.mem_filter.mp (List.mem_filter.mp hr).1).1
  have hStart : declarations [] (options.scope.reach []) = [] := by cases options.scope <;> rfl
  have hReadings : readings options.scope text =
      readSegments options.scope (declarations [] (options.scope.reach [])) (segments text) := by
    rw [hStart]
    rfl
  have hWhole : ∀ s ∈ segments text, s.Whole := fun s => segments_whole
  rw [hReadings] at hNone hMem
  obtain ⟨before, segment, after, hSplit, hRead⟩ := readSegments_reach _ _ hWhole hNone r hMem
  refine ⟨before, segment, after, hSplit, ?_⟩
  rw [List.nil_append] at hRead
  rw [← hRead]
  exact congrArg (Reading.mk r.statement) (hNone r hMem)

/-- The parameter `p` is the one written as `o` behind the parameters in front: with a type it is
declared with it, and without one it has the last type of its name. -/
structure NamedParameter.WrittenAs (p : NamedParameter) (o : Occurrence) (front : List Occurrence) :
    Prop where
  name : p.name = o.name
  position : p.span.first = o.position
  typed : ∀ typeName, o.typeName? = some typeName → p.declared = true ∧ p.typeName = typeName
  untyped : o.typeName? = none → p.declared = false ∧ LastType front p.name p.typeName

theorem Occurrence.Gives.writtenAs {o : Occurrence} {os : List Occurrence} {p : NamedParameter}
    (h : o.Gives (declarations [] os) p) : p.WrittenAs o os where
  name := h.name
  position := h.position
  typed := h.typed
  untyped hType := by
    obtain ⟨hDeclared, hLookup⟩ := h.untyped hType
    rw [h.name]
    exact ⟨hDeclared, (lookup_declarations os o.name p.typeName).mp hLookup⟩

/-- A statement was read from a segment without an error, and its parameters with a name are those
that are written there, each of them once and each with its type. -/
structure Statement.TypedIn (statement : Statement) (segment : Segment) (reach : List Occurrence) :
    Prop where
  read : ∃ bindings, (segment.read bindings).1 = ⟨statement, none⟩
  positions : (statement.parameters.map (·.span.first)).Perm (segment.occurrences.map (·.position))
  written : ∀ p ∈ statement.parameters, ∃ earlier o later,
    segment.occurrences = earlier ++ o :: later ∧ p.WrittenAs o (reach ++ earlier)

/-- **The types of named parameters.** In a text without errors every statement that is kept is read
from one of the segments, and each parameter with a name in it stands there. One with a type is
declared with it; one without has the type of the last parameter of its name that has one and stands
before it, in the whole text or in its own statement. -/
theorem parse_parameters (options : ParseOptions) (text : String)
    (hErrors : (parse options text).errors = []) :
    occurrences (tokensOf text) = (segments text).flatMap Segment.occurrences ∧
      ∀ statement ∈ (parse options text).statements, ∃ before segment after,
        segments text = before ++ segment :: after ∧
        statement.TypedIn segment (options.scope.reach before) := by
  refine ⟨(occurrences_segments text).symm, fun statement hStatement => ?_⟩
  obtain ⟨before, segment, after, hSplit, hRead⟩ := exists_segment hErrors hStatement
  have hError : (segment.read (declarations [] (options.scope.reach before))).1.error = none := by
    rw [hRead]
  have hWhole : segment.Whole := @segments_whole text _ (by rw [hSplit]; simp)
  obtain ⟨⟨ps, hPerm, hBound⟩, -⟩ := Segment.read_parameters hWhole _ hError
  rw [hRead] at hPerm
  refine ⟨before, segment, after, hSplit, ⟨_, hRead⟩, ?_, fun p hp => ?_⟩
  · exact (hPerm.map _).trans (.of_eq hBound.positions)
  · obtain ⟨earlier, o, later, hOccurrences, hGives⟩ := hBound.exists_gives p (hPerm.mem_iff.mp hp)
    rw [← declarations_append] at hGives
    exact ⟨earlier, o, later, hOccurrences, hGives.writtenAs⟩

/-- A name that is declared in a condition of a table, declared anew in a limit, where it stands
behind its use, and used in other statements. -/
def sampleParameters : String :=
  "CREATE TABLE t (a INT DEFAULT @x:app.id CHECK (a < @X)); " ++
    "SELECT (SELECT @x) FROM t LIMIT @x, @x:int; DELETE FROM t WHERE a = @x"

theorem sampleParameters_typed :
    (parse .standard sampleParameters).errors = [] ∧
      occurrences (tokensOf sampleParameters) =
        (segments sampleParameters).flatMap Segment.occurrences ∧
      ∀ statement ∈ (parse .standard sampleParameters).statements, ∃ before segment after,
        segments sampleParameters = before ++ segment :: after ∧
        statement.TypedIn segment (ParameterScope.session.reach before) := by
  have hErrors : (parse .standard sampleParameters).errors = [] := by decide +kernel
  exact ⟨hErrors, parse_parameters .standard sampleParameters hErrors⟩

end SqlKit
