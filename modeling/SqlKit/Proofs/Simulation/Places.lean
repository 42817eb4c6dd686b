import SqlKit.Proofs.Simulation.Statement
import SqlKit.Proofs.Token.Shift

/-!
# Statements at other places

Two simulations of a reading with the reading of the same tokens in another text: one where the
whole statement stands further on (`Simulation.shift`), and one where a semicolon stands behind the
statement in place of the end of the text (`Simulation.semicolon`). Both readings make the same
trees, and one finds an error where the other does.
-/

namespace SqlKit

/-! ## Errors at other places -/

namespace ParseError

/-- An error in a text that starts at `base`. -/
def shift (base : Position) (e : ParseError) : ParseError where
  position := base.shift e.position
  cause :=
    match e.cause with
    | .unexpected expected found => .unexpected expected (found.shift base)
    | .untypedParameter name => .untypedParameter name

/-- An error at the end of a text, at the semicolon that stands there instead. Other errors stay
where they are. -/
def atSemicolon (semicolon : Token) (e : ParseError) : ParseError :=
  match e.cause with
  | .unexpected expected found =>
    if found.isEnd then ⟨semicolon.span.first, .unexpected expected semicolon⟩ else e
  | .untypedParameter _ => e

end ParseError

namespace Grammar

/-- A state with other errors, one for each. -/
def State.mapErrors (f : ParseError → ParseError) (s : State) : State :=
  { s with errors := s.errors.map f, noted := by simpa using s.noted }

theorem State.error_mapErrors (f : ParseError → ParseError) (s : State) :
    (s.mapErrors f).error = s.error.map f := by
  unfold error mapErrors
  dsimp only
  split <;> simp

/-! ## Further on -/

/-- A state in the reading of a text that starts at `base`. -/
def State.shift (base : Position) (s : State) : State :=
  { s.mapErrors (ParseError.shift base) with
    tokens := s.tokens.map (Token.shift base)
    terminator := s.terminator.shift base
    previous := s.previous.shift base }

theorem State.current_shift (base : Position) (s : State) :
    (s.shift base).current = s.current.shift base := by
  unfold current shift
  cases s.tokens <;> rfl

theorem State.errorPosition_shift (base : Position) (s : State) :
    (s.shift base).errorPosition = base.shift s.errorPosition := by
  unfold errorPosition
  rw [current_shift]
  have hEnd : (s.current.shift base).isEnd = s.current.isEnd := rfl
  rw [hEnd]
  split <;> rfl

theorem State.note_shift (base : Position) (s : State) (e : ParseError) :
    (s.note e).shift base = (s.shift base).note (e.shift base) := by
  cases h : s.failed <;> simp [shift, mapErrors, note, h]

theorem State.error_shift (base : Position) (s : State) :
    (s.shift base).error = s.error.map (ParseError.shift base) := State.error_mapErrors _ s

theorem Token.touches_shift (base : Position) (a c : Token) :
    (c.shift base).span.first.offset = (a.shift base).span.last.offset ↔
      c.span.first.offset = a.span.last.offset := by
  simp only [Token.shift, Span.shift, Position.shift]
  omega

/-- A reading and the reading of the same statement further on. -/
def Simulation.shift (base : Position) : Simulation Erasure.spans where
  state s t := t = s.shift base ∧ s.terminator.kind.IsEnd
  lower := by
    rintro a _ rfl
    rfl
  append := by
    rintro a _ c _ rfl rfl
    rfl
  ends := by
    rintro s _ ⟨rfl, -⟩ hNext
    rw [State.current_shift]
    exact hNext
  cons := by
    rintro s _ ⟨rfl, hEnd⟩ hNext
    obtain ⟨a, as, hTokens⟩ := State.exists_cons hEnd hNext
    exact ⟨a, as, a.shift base, as.map (Token.shift base), hTokens,
      by rw [State.shift, hTokens, List.map_cons], ⟨rfl, rfl⟩, rfl, hEnd⟩
  touches := by
    rintro s _ a b c d as bs n ⟨rfl, -⟩ hs ht - -
    rw [State.shift, hs, List.map_cons, List.map_cons] at ht
    obtain ⟨rfl, hRest⟩ := List.cons.inj ht
    obtain ⟨rfl, -⟩ := List.cons.inj hRest
    exact (Token.touches_shift base a c).symm
  spanFrom := fun _ _ => rfl
  unexpected := by
    rintro s _ expected ⟨rfl, hEnd⟩
    refine ⟨?_, by rwa [State.note_terminator]⟩
    rw [State.note_shift, State.errorPosition_shift, State.current_shift]
    rfl
  untyped := by
    rintro s _ u _ a b as bs m _ ⟨rfl, -⟩ hs ht - - ⟨rfl, hEnd⟩ rfl
    rw [State.shift, hs, List.map_cons] at ht
    obtain ⟨rfl, -⟩ := List.cons.inj ht
    refine ⟨?_, by rwa [State.note_terminator]⟩
    rw [State.note_shift]
    rfl
  declare := by
    rintro s _ u _ x y - - - ⟨rfl, hEnd⟩ hName hType
    rw [show x.name = y.name from hName, show x.typeName = y.typeName from hType]
    exact ⟨rfl, hEnd⟩
  lookup := by
    rintro s _ name ⟨rfl, -⟩
    rfl
  placeholders := by
    rintro s _ ⟨rfl, -⟩
    rfl
  countPlaceholder := by
    rintro s _ ⟨rfl, hEnd⟩
    exact ⟨rfl, hEnd⟩

/-! ## In front of a semicolon -/

/-- A state in the reading of a text where `semicolon` stands in place of the end. -/
def State.atSemicolon (semicolon : Token) (s : State) : State :=
  { s.mapErrors (·.atSemicolon semicolon) with terminator := semicolon }

theorem State.note_atSemicolon (semicolon : Token) (s : State) (e : ParseError) :
    (s.note e).atSemicolon semicolon =
      (s.atSemicolon semicolon).note (e.atSemicolon semicolon) := by
  cases h : s.failed <;> simp [atSemicolon, mapErrors, note, h]

theorem State.error_atSemicolon (semicolon : Token) (s : State) :
    (s.atSemicolon semicolon).error = s.error.map (·.atSemicolon semicolon) :=
  State.error_mapErrors _ s

theorem State.current_atSemicolon_nil {semicolon : Token} {s : State} (h : s.tokens = []) :
    (s.atSemicolon semicolon).current = semicolon := current_nil (s := s.atSemicolon semicolon) h

theorem State.current_atSemicolon_cons {semicolon t : Token} {rest : List Token} {s : State}
    (h : s.tokens = t :: rest) : (s.atSemicolon semicolon).current = t :=
  current_cons (s := s.atSemicolon semicolon) h

theorem State.unexpected_atSemicolon {semicolon : Token} (hSemicolon : semicolon.isEnd = false)
    {s : State} (hTerminator : s.terminator.isEnd = true)
    (hTokens : ∀ t ∈ s.tokens, t.isEnd = false) (expected : Expected) :
    (⟨s.errorPosition, .unexpected expected s.current⟩ : ParseError).atSemicolon semicolon =
      ⟨(s.atSemicolon semicolon).errorPosition,
        .unexpected expected (s.atSemicolon semicolon).current⟩ := by
  cases hRest : s.tokens with
  | nil =>
    simp only [errorPosition, ParseError.atSemicolon, State.current_nil hRest, hTerminator,
      State.current_atSemicolon_nil hRest, hSemicolon, if_true, Bool.false_eq_true, if_false]
  | cons t rest =>
    have hEnd := hTokens t (hRest ▸ List.mem_cons_self)
    simp only [errorPosition, ParseError.atSemicolon, State.current_cons hRest,
      State.current_atSemicolon_cons hRest, hEnd,
      Bool.false_eq_true, if_false]

/-- A reading up to the end of a text, and the reading up to a semicolon that stands there
instead. -/
def Simulation.semicolon {semicolon : Token} (hKind : semicolon.kind = .symbol .semicolon) :
    Simulation Erasure.spans where
  state s t := t = s.atSemicolon semicolon ∧ s.terminator.isEnd = true ∧
    ∀ t ∈ s.tokens, t.isEnd = false
  lower := by
    rintro a _ rfl
    rfl
  append := by
    rintro a _ c _ rfl rfl
    rfl
  ends := by
    rintro s _ ⟨rfl, hEnd, hInside⟩ hNext
    cases hTokens : s.tokens with
    | nil => exact Or.inl (by rw [State.current_atSemicolon_nil hTokens, hKind])
    | cons a as =>
      rw [State.current_cons hTokens] at hNext
      rwa [State.current_atSemicolon_cons hTokens]
  cons := by
    rintro s _ ⟨rfl, hEnd, hInside⟩ hNext
    obtain ⟨a, as, hTokens⟩ := State.exists_cons (Or.inr (eq_of_beq hEnd)) hNext
    refine ⟨a, as, a, as, hTokens, hTokens, ⟨rfl, rfl⟩, rfl, hEnd, fun t ht => ?_⟩
    exact hInside t (hTokens ▸ List.mem_cons_of_mem _ ht)
  touches := by
    rintro s _ a b c d as bs n ⟨rfl, -⟩ hs ht - -
    obtain ⟨rfl, hRest⟩ := List.cons.inj (hs.symm.trans ht)
    obtain ⟨rfl, -⟩ := List.cons.inj hRest
    rfl
  spanFrom := fun _ _ => rfl
  unexpected := by
    rintro s _ expected ⟨rfl, hEnd, hInside⟩
    refine ⟨?_, by rwa [State.note_terminator], by rwa [State.note_tokens]⟩
    have hSemicolon : semicolon.isEnd = false := by rw [Token.isEnd, hKind]; rfl
    rw [State.note_atSemicolon, State.unexpected_atSemicolon hSemicolon hEnd hInside]
  untyped := by
    rintro s _ u _ a b as bs m _ ⟨rfl, -⟩ hs ht - - ⟨rfl, hEnd, hInside⟩ rfl
    obtain ⟨rfl, -⟩ := List.cons.inj (hs.symm.trans ht)
    exact ⟨(State.note_atSemicolon semicolon u ⟨a.span.first, .untypedParameter m⟩).symm,
      by rwa [State.note_terminator], by rwa [State.note_tokens]⟩
  declare := by
    rintro s _ u _ x y - - - ⟨rfl, hEnd, hInside⟩ hName hType
    rw [show x.name = y.name from hName, show x.typeName = y.typeName from hType]
    exact ⟨rfl, hEnd, hInside⟩
  lookup := by
    rintro s _ name ⟨rfl, -⟩
    rfl
  placeholders := by
    rintro s _ ⟨rfl, -⟩
    rfl
  countPlaceholder := by
    rintro s _ ⟨rfl, hEnd, hInside⟩
    exact ⟨rfl, hEnd, hInside⟩

end Grammar

end SqlKit
