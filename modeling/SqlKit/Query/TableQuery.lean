import SqlKit.Data.Row
import SqlKit.Query.Predicate

/-!
# Queries over one table

A query asks for the rows of a table, or for their number, and may be narrowed by predicates. It is
only a description: each use binds it anew and hands it to an executor, which stands for the
database. What an executor does besides answering is up to its monad `m`.
-/

namespace SqlKit

/-- Something that answers queries. -/
abbrev Executor (m : Type → Type) : Type := BoundSql → m (Except ExecutionError (List Row))

/-- A query over the rows of a table that satisfy a predicate, or over all of them. -/
structure TableQuery where
  table : Table
  predicate : Option Predicate
  deriving Repr, Inhabited

namespace TableQuery

/-- The query over all rows of a table. -/
def all (t : Table) : TableQuery := ⟨t, none⟩

/-- The query narrowed by a predicate. -/
def filter (q : TableQuery) (p : Predicate) : TableQuery :=
  { q with predicate := some (match q.predicate with
      | some earlier => earlier.and p
      | none => p) }

/-- The query for something from each row, or from all of them together. -/
def project (q : TableQuery) (projection : String) : Except QueryError BoundSql :=
  let sql := "SELECT " ++ projection ++ " FROM " ++ q.table.qualifiedName
  match q.predicate with
  | none => .ok ⟨sql, []⟩
  | some p => (p.bind q.table).map fun bound => ⟨sql ++ " WHERE " ++ bound.sql, bound.arguments⟩

/-- The query for the rows. -/
def selectRows (q : TableQuery) : Except QueryError BoundSql := q.project "*"

/-- The query for the number of rows. -/
def selectCount (q : TableQuery) : Except QueryError BoundSql := q.project "COUNT(*)"

/-- The number that the first value of the first row gives. -/
def countOf (rows : List Row) : Except QueryError Nat :=
  match rows.head?.bind (·.at? 0) with
  | none => .error (.unexpectedResult "count query returned no rows")
  | some (.integer n) =>
    if 0 ≤ n.toInt then .ok n.toInt.toNat
    else .error (.unexpectedResult s!"negative count {n.toInt}")
  | some value => .error (.unexpectedResult ("count query returned " ++ value.sql))

section Execution

variable {m : Type → Type} [Monad m]

/-- Hands a query to an executor, unless it could not be bound. -/
def execute (executor : Executor m) (query : Except QueryError BoundSql) :
    m (Except QueryError (List Row)) :=
  match query with
  | .error e => pure (.error e)
  | .ok bound => return (← executor bound).mapError .execution

/-- The rows. -/
def rows (q : TableQuery) (executor : Executor m) : m (Except QueryError (List Row)) :=
  execute executor q.selectRows

/-- The number of rows. -/
def count (q : TableQuery) (executor : Executor m) : m (Except QueryError Nat) :=
  return (← execute executor q.selectCount).bind countOf

/-- Whether there is a row. -/
def isInhabited (q : TableQuery) (executor : Executor m) : m (Except QueryError Bool) :=
  return (← q.count executor).map (0 < ·)

end Execution

end TableQuery

end SqlKit
