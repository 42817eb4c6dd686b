import SqlKit.Batch

/-!
# Dropped statements

Where only some statements are kept, the others are read all the same. The loop that drops them and
the loop that keeps all go side by side (`Progress.Filtered`): after each round they are in the same
state, so what is left of the text, the errors noted and the types declared are the same, and the
lists of the one are those of the other less what was dropped. So the result is the one of keeping
all, less what is no definition (`parse_definitions`).
-/

namespace SqlKit

open Grammar

namespace Progress

/-- The progress `p` of a loop that keeps all statements, and the progress `q` of one that drops
some. -/
structure Filtered (retention : Retention) (p q : Progress) : Prop where
  state : q.state = p.state
  statements : q.statements = p.statements.filter retention.keeps
  recovered : q.recovered = p.recovered.filter retention.keeps

variable {retention : Retention} {p q : Progress}

/-- Going on behind a statement, which the one loop may drop. -/
theorem Filtered.keep (h : Filtered retention p q) {read read' : Statement × State}
    (hRead : read' = read) (ends : read.2.terminator.isEnd = true)
    (ends' : read'.2.terminator.isEnd = true) :
    Filtered retention (p.keep .all read ends) (q.keep retention read' ends') := by
  subst hRead
  have hAll : (!Retention.all.keeps read'.1) = false := rfl
  unfold Progress.keep
  simp only [hAll, Bool.false_eq_true, if_false]
  cases hKept : retention.keeps read'.1 <;> cases hFailed : read'.2.failed <;>
    exact ⟨rfl, by simp [h.statements, hKept], by simp [h.recovered, hKept]⟩

theorem Filtered.skipSemicolons (h : Filtered retention p q) :
    Filtered retention p.skipSemicolons q.skipSemicolons :=
  ⟨congrArg State.skipSemicolons h.state, h.statements, h.recovered⟩

/-- The same statement is read by both, from the same state. -/
theorem Filtered.read (scope : ParameterScope) (h : Filtered retention p q) :
    Filtered retention (p.read ⟨scope, .all⟩) (q.read ⟨scope, retention⟩) :=
  h.keep (congrArg (State.readStatement scope) h.state) _ _

/-- One round: both loops end, or both go on. -/
theorem Filtered.next? (scope : ParameterScope) (h : Filtered retention p q) :
    Option.Rel (Filtered retention) (p.next? ⟨scope, .all⟩) (q.next? ⟨scope, retention⟩) := by
  have hStart := h.skipSemicolons
  unfold Progress.next?
  dsimp only
  rw [hStart.state]
  split
  · exact .none
  · exact .some (hStart.read scope)

/-- All rounds. -/
theorem Filtered.finish (scope : ParameterScope) (h : Filtered retention p q) :
    Filtered retention (p.finish ⟨scope, .all⟩) (q.finish ⟨scope, retention⟩) := by
  fun_induction p.finish ⟨scope, .all⟩ generalizing q with
  | case1 p hNext =>
    have hBoth := h.next? scope
    rw [hNext] at hBoth
    cases hOther : q.next? ⟨scope, retention⟩ with
    | none => rwa [Progress.finish_of_none hOther]
    | some q' =>
      rw [hOther] at hBoth
      cases hBoth
  | case2 p p' hNext ih =>
    have hBoth := h.next? scope
    rw [hNext] at hBoth
    cases hOther : q.next? ⟨scope, retention⟩ with
    | none =>
      rw [hOther] at hBoth
      cases hBoth
    | some q' =>
      rw [hOther] at hBoth
      cases hBoth with
      | some hRest =>
        rw [Progress.finish_of_some hOther]
        exact ih hRest

end Progress

/-- **Retention drops and does nothing else.** The loop over a text that keeps the definitions of
tables only ends in the state of the loop that keeps all statements: the same errors were noted, in
the same order and at the same places, and the same types were declared. The statements are the
definitions among those of the other loop, and the recovered statements are the definitions among
the recovered ones there: the same trees in the same order, with their spans, their placeholders and
the types of their parameters. -/
theorem parse_definitions (scope : ParameterScope) (text : String) :
    (parse ⟨scope, .definitions⟩ text).errors = (parse ⟨scope, .all⟩ text).errors ∧
      (parse ⟨scope, .definitions⟩ text).statements =
        (parse ⟨scope, .all⟩ text).statements.filter (·.createTable?.isSome) ∧
      (parse ⟨scope, .definitions⟩ text).recovered =
        (parse ⟨scope, .all⟩ text).recovered.filter (·.createTable?.isSome) ∧
      ((Progress.ofText [] text).finish ⟨scope, .definitions⟩).state =
        ((Progress.ofText [] text).finish ⟨scope, .all⟩).state := by
  have hStart : Progress.Filtered .definitions (.ofText [] text) (.ofText [] text) :=
    ⟨rfl, rfl, rfl⟩
  have hEnd := hStart.finish scope
  exact ⟨congrArg State.errors hEnd.state, hEnd.statements, hEnd.recovered, hEnd.state⟩

/-- A parameter that is declared in a query, which is dropped, and used in a definition. -/
example : (parse ⟨.session, .definitions⟩
    "SELECT @x:INT; CREATE TABLE t (a INT DEFAULT @x); SELECT @y").errors.length = 1 := by
  decide +kernel

end SqlKit
