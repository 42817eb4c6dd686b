import SqlKit.Proofs.Grammar.Unbounded
import SqlKit.Proofs.Grammar.Yielding
import SqlKit.Proofs.Rendering.RoundTrip

/-!
# What the statements of a text are like

A property of trees that every reader of the grammar yields, given that the readers it comes back to
do, is one of all statements that are read without an error (`yields_of_mem`). The readers at the
bound of the recursion need not yield it: they are out of reach.
-/

namespace SqlKit

namespace Grammar

/-- The readers that the grammar comes back to yield such expressions, queries and clauses. -/
structure Rules.Yield (T : Token → Prop) (E : Expr → Prop) (S : Select → Prop)
    (J : JoinClause → Prop)
    (rules : Rules) : Prop where
  expr : Yields T rules.expr E
  select : Yields T rules.select S
  joinClause : Yields T rules.joinClause J

end Grammar

open Grammar

/-- A statement that is read without an error is read by such rules, from all tokens of its
segment. -/
theorem exists_run_of_mem {P : Rules → Prop} (hFail : P .failing)
    (hNext : ∀ rules : Rules, P rules → P rules.next) {options : ParseOptions} {text : String}
    {x : Statement} (h : x ∈ (parse options text).statements) :
    ∃ seg ∈ segments text, ∃ b, (seg.read b).1 = ⟨x, none⟩ ∧ ∃ rules, P rules ∧
      ∃ s', (statementOfKind rules).run (seg.start b) = (x, s') ∧ s'.error = none ∧
      s'.tokens = [] := by
  obtain ⟨seg, hSegment, b, rfl, hError⟩ := mem_statements h
  obtain ⟨rules, hRules, hSame⟩ :=
    Rules.exists_sameBelow hFail hNext (Nat.le_succ seg.tokens.length)
  have hEnd : (seg.start b).terminator.kind.IsEnd := segments_isEnd hSegment
  have hRun := sameBelow_statement hSame (seg.start b) hEnd (Nat.lt_succ_self _)
  have hNone : ((statement rules).run (seg.start b)).2.error = none := by
    rw [hRun]
    exact hError
  obtain ⟨hKind, hTokens⟩ :=
    Segment.After.statement (s := seg.start b) (segments_whole hSegment) hNone
  have hStatement : ((statement rules).run (seg.start b)).1 = (seg.read b).1.statement :=
    congrArg Prod.fst hRun
  rw [hStatement] at hKind
  exact ⟨seg, hSegment, b, by rw [← hError], rules, hRules, _, hKind, hNone, hTokens⟩

variable {T : Token → Prop} {E : Expr → Prop} {S : Select → Prop} {J : JoinClause → Prop}
  {P : Statement → Prop}

/-- What the grammar yields of the tokens of a text is true of the statements of the text that were
read without an error. -/
theorem yields_of_mem (hNext : ∀ rules : Rules, rules.Yield T E S J → rules.next.Yield T E S J)
    (hStatement : ∀ rules : Rules, rules.Yield T E S J → Yields T (statementOfKind rules) P)
    {options : ParseOptions} {text : String} (hTokens : ∀ t ∈ tokensOf text, T t) :
    ∀ x ∈ (parse options text).statements, P x := by
  intro x hx
  obtain ⟨seg, hSegment, b, -, rules, hYield, s', hRun, hError, -⟩ :=
    exists_run_of_mem ⟨.fail, .fail, .fail⟩ hNext hx
  exact (hStatement rules hYield (seg.start b)
    fun t ht => hTokens t (segments_mem hSegment ht)).result hRun hError

end SqlKit
