/-!
# Query errors

What can go wrong with a query over a table: a predicate names no column of it, the database refuses
the query, or its answer is not of the kind that was asked for.
-/

namespace SqlKit

/-- Why a database did not answer: its message, and what lies behind it where that is known. -/
structure ExecutionError where
  message : String
  source : Option String
  deriving Repr, DecidableEq, Inhabited

/-- Why a query has no result. -/
inductive QueryError where
  | unknownColumn (table column : String)
  | execution (error : ExecutionError)
  | unexpectedResult (description : String)
  deriving Repr, DecidableEq, Inhabited

namespace QueryError

/-- The error in words. -/
def message : QueryError → String
  | unknownColumn table column => s!"unknown column `{column}` in table `{table}`"
  | execution error => "execution failed: " ++ error.message
  | unexpectedResult description => "unexpected result: " ++ description

/-- What lies behind an error of the database, where that is known. -/
def source : QueryError → Option String
  | execution error => error.source
  | unknownColumn .. | unexpectedResult _ => none

end QueryError

end SqlKit
