import SqlKit.Proofs.Simulation.Statement

/-!
# Invariants of reading

What every move keeps holds behind a whole statement. An invariant is a simulation of a reading with
itself, so nothing has to be said about the readers again.
-/

namespace SqlKit.Grammar

/-- A property of states that every move in front of the end of a statement keeps, and that puts an
end behind the last token. -/
structure Invariant (P : State → Prop) : Prop where
  terminator : ∀ {s}, P s → s.terminator.kind.IsEnd
  take : ∀ {s t rest}, P s → s.tokens = t :: rest → ¬ t.kind.IsEnd → P (s.take t rest)
  unexpected : ∀ {s} (expected : Expected), P s →
    P (s.note ⟨s.errorPosition, .unexpected expected s.current⟩)
  untyped : ∀ {s u t rest name}, P s → s.tokens = t :: rest → t.kind = .symbol .atSign →
    (u.error = none → ∃ c, rest.head? = some c ∧ nameOf? c = some name) → P u →
    P (u.note ⟨t.span.first, .untypedParameter name⟩)
  declare : ∀ {s u a}, P s → attemptAt? s.tokens = some a → P u →
    P (u.declare a.name.toLower a.typeName)
  countPlaceholder : ∀ {s}, P s → P s.countPlaceholder

variable {P : State → Prop}

/-- An invariant as a relation of a reading with itself. -/
def Invariant.simulation (h : Invariant P) : Simulation Erasure.nothing where
  state s t := s = t ∧ P s
  lower := @lower_of_nothing
  append := @append_of_nothing
  ends := by
    rintro s _ ⟨rfl, -⟩ hEnd
    exact hEnd
  cons := by
    rintro s _ ⟨rfl, hs⟩ hNext
    obtain ⟨a, as, hTokens⟩ := State.exists_cons (h.terminator hs) hNext
    rw [State.current_cons hTokens] at hNext
    exact ⟨a, as, a, as, hTokens, hTokens, ⟨rfl, rfl⟩, rfl, h.take hs hTokens hNext⟩
  touches := by
    rintro s _ a b c d as bs n ⟨rfl, -⟩ hs ht - -
    obtain ⟨rfl, hRest⟩ := List.cons.inj (hs.symm.trans ht)
    obtain ⟨rfl, -⟩ := List.cons.inj hRest
    rfl
  spanFrom := by
    rintro s _ u _ ⟨rfl, -⟩ ⟨rfl, -⟩
    rfl
  unexpected := by
    rintro s _ expected ⟨rfl, hs⟩
    exact ⟨rfl, h.unexpected expected hs⟩
  untyped := by
    rintro s _ u _ a b as bs m _ ⟨rfl, hs⟩ hTokens hTokens' hKind hNamed ⟨rfl, hu⟩ rfl
    obtain ⟨rfl, -⟩ := List.cons.inj (hTokens.symm.trans hTokens')
    exact ⟨rfl, h.untyped hs hTokens hKind hNamed hu⟩
  declare := by
    rintro s _ u _ x y ⟨rfl, hs⟩ hx hy ⟨rfl, hu⟩ - -
    obtain rfl := Option.some.inj (hx.symm.trans hy)
    exact ⟨rfl, h.declare hs hx hu⟩
  lookup := by
    rintro s _ name ⟨rfl, -⟩
    rfl
  placeholders := by
    rintro s _ ⟨rfl, -⟩
    rfl
  countPlaceholder := by
    rintro s _ ⟨rfl, hs⟩
    exact ⟨rfl, h.countPlaceholder hs⟩

/-- What every move keeps holds behind a statement. -/
theorem Invariant.run_statement (h : Invariant P) (depth : Nat) {s : State} (hs : P s) :
    P ((statement (Rules.upTo depth)).run s).2 :=
  (similar_statement (keep_upTo h.simulation depth) ⟨rfl, hs⟩).2.2

end SqlKit.Grammar
