import SqlKit.Syntax.Statement

/-!
# Views of expressions and queries

The entries of a chain as a list, the one entry of a chain that has no more, and the sources of a
clause. `JoinClause.sources` takes nested clauses from a stack; `JoinClause.leaves` says which
sources there are.
-/

namespace SqlKit

/-! ## Chains as lists -/

/-- The conjunctions of an expression from left to right. -/
def Expr.conjunctions : Expr → List Conjunction
  | .single conjunction => [conjunction]
  | .or left right => left.conjunctions ++ [right]

/-- The conditions of a conjunction from left to right. -/
def Conjunction.conditions : Conjunction → List Condition
  | .single condition => [condition]
  | .and left right => left.conditions ++ [right]

/-- The sums of an operand from left to right. -/
def Operand.sums : Operand → List Sum
  | .single sum => [sum]
  | .concat left right => left.sums ++ [right]

/-- The products of a sum from left to right, each but the first with the operator before it. -/
def Sum.entries : Sum → List (Option AddOp × Product)
  | .single product => [(none, product)]
  | .add left operator right => left.entries ++ [(some operator, right)]

/-- The terms of a product from left to right, each but the first with the operator before it. -/
def Product.entries : Product → List (Option MulOp × Term)
  | .single term => [(none, term)]
  | .mul left operator right => left.entries ++ [(some operator, right)]

/-! ## Single entries -/

/-- A term as an operand. -/
def Term.toOperand (t : Term) : Operand := .single (.single (.single t))

/-- A term as an expression. -/
def Term.toExpr (t : Term) : Expr := .single (.single (.operand t.toOperand))

/-- The term that an operand is, if it is nothing more. -/
def Operand.term? : Operand → Option Term
  | .single (.single (.single term)) => some term
  | _ => none

/-- The condition that an expression is, if it is nothing more. -/
def Expr.condition? : Expr → Option Condition
  | .single (.single condition) => some condition
  | _ => none

/-- The term that an expression is, if it is nothing more. -/
def Expr.term? : Expr → Option Term
  | .single (.single (.operand operand)) => operand.term?
  | _ => none

theorem Operand.term?_eq_some_iff {o : Operand} {t : Term} :
    o.term? = some t ↔ o = t.toOperand := by
  unfold Operand.term? Term.toOperand
  split
  · simp
  · next h => exact ⟨nofun, fun h' => absurd h' (h t)⟩

theorem Expr.term?_eq_some_iff {e : Expr} {t : Term} : e.term? = some t ↔ e = t.toExpr := by
  unfold Expr.term? Term.toExpr
  split
  · simp [Operand.term?_eq_some_iff]
  · next h => exact ⟨nofun, fun h' => absurd h' (h t.toOperand)⟩

/-- The operand that a condition compares its left operand with: the lower bound of a range, the
pattern of a match. A condition without a test has none, and neither has a test for a missing value,
for membership or for existence. -/
def Condition.secondOperand? : Condition → Option Operand
  | .comparison _ _ right | .same _ _ right => some right
  | .between _ _ low _ => some low
  | .like _ _ pattern | .likeEscape _ _ pattern _ | .regexp _ _ pattern => some pattern
  | .operand _ | .isNull _ _ | .oneOf _ _ _ | .oneOfQuery _ _ _ | .existence _
  | .negation _ => none

/-! ## Sources -/

namespace JoinClause

/-- The sources that a clause joins, from left to right, nested clauses among them. -/
def joined : JoinClause → List Source
  | .single source => [source]
  | .join left _ right _ => left.joined ++ [right]

end JoinClause

/-- The clause that a source is, if it is a clause in parentheses. -/
def Source.clause? : Source → Option JoinClause
  | .nested clause => some clause
  | .table _ _ | .subquery _ _ => none

mutual

/-- All tables and queries that a clause draws from, from left to right. -/
def JoinClause.leaves : JoinClause → List Source
  | .single source => source.leaves
  | .join left _ right _ => left.leaves ++ right.leaves

/-- All tables and queries that a source draws from. -/
def Source.leaves : Source → List Source
  | .nested clause => clause.leaves
  | .table name asName => [.table name asName]
  | .subquery query asName => [.subquery query asName]

end

mutual

/-- The number of clauses that a clause consists of, itself included. -/
def JoinClause.clauseCount : JoinClause → Nat
  | .single source => source.clauseCount + 1
  | .join left _ right _ => left.clauseCount + right.clauseCount

/-- The number of clauses inside a source. -/
def Source.clauseCount : Source → Nat
  | .nested clause => clause.clauseCount
  | .table _ _ | .subquery _ _ => 0

end

namespace JoinClause

/-- The number of clauses on a stack, with all those inside them. -/
def pending : List JoinClause → Nat
  | [] => 0
  | clause :: stack => clause.clauseCount + pending stack

/-- The clauses in parentheses that a clause joins, from left to right. -/
def nestedClauses (c : JoinClause) : List JoinClause := c.joined.filterMap Source.clause?

theorem pending_append (cs ds : List JoinClause) :
    pending (cs ++ ds) = pending cs + pending ds := by
  induction cs with
  | nil => simp [pending]
  | cons c cs ih => simp only [List.cons_append, pending, ih, Nat.add_assoc]

theorem pending_reverse (cs : List JoinClause) : pending cs.reverse = pending cs := by
  induction cs with
  | nil => rfl
  | cons c cs ih =>
    simp only [List.reverse_cons, pending_append, pending, ih]
    omega

theorem pending_clause? (s : Source) : pending s.clause?.toList = s.clauseCount := by
  cases s <;> simp [Source.clause?, pending, Source.clauseCount]

theorem pending_nestedClauses (c : JoinClause) : pending c.nestedClauses + 1 = c.clauseCount := by
  fun_induction joined c with
  | case1 s =>
    have hSource : nestedClauses (.single s) = s.clause?.toList := by
      cases s <;> simp [nestedClauses, joined, Source.clause?]
    rw [hSource, pending_clause?, clauseCount]
  | case2 left operator right constraint ih =>
    have := pending_clause? right
    have hAppend : nestedClauses (.join left operator right constraint) =
        left.nestedClauses ++ right.clause?.toList := by
      cases right <;> simp [nestedClauses, joined, Source.clause?]
    rw [hAppend, pending_append, clauseCount]
    omega

/-- Takes a clause from the stack, lists the tables and queries it joins, puts the clauses in
parentheses on the stack in their order, and goes on with the last of them. -/
def sourcesFrom : List JoinClause → List Source
  | [] => []
  | clause :: stack =>
    clause.joined.filter (·.clause?.isNone) ++ sourcesFrom (clause.nestedClauses.reverse ++ stack)
termination_by stack => pending stack
decreasing_by
  have := pending_nestedClauses clause
  rw [pending_append, pending_reverse]
  simp only [pending]
  omega

/-- The tables and queries of a clause. Those of a nested clause come after those of the clause
around it, and the last nested clause comes first. -/
def sources (c : JoinClause) : List Source := sourcesFrom [c]

end JoinClause

end SqlKit
