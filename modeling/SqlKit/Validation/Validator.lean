import SqlKit.Query.TableQuery
import SqlKit.Text.Quote
import SqlKit.Validation.Format

/-!
# Validators

A validator judges the value of one column, with the rest of the record in view, and gives a message
if it is not content. Validators of texts judge a value by its plain text, so that a number is as
good as its digits. Only the validators that look into a table depend on the monad `m` in which
queries are answered.
-/

namespace SqlKit

open Text

/-- A judge of values. Missing values are shown only to those who ask for them. -/
structure Validator (m : Type → Type) where
  checksNull : Bool
  check : (column : String) → Value → Record → m (Option String)

section Plain

variable {m : Type → Type} [Monad m]

/-! ## Presence -/

/-- The value must not be missing. -/
def Validator.required (message : Option String) : Validator m where
  checksNull := true
  check _ value _ :=
    pure (if value.isNull then some (message.getD "This field is required.") else none)

/-! ## Format -/

/-- The value must have a format. Blobs have no text and are not judged. -/
def Validator.format (f : Format) : Validator m where
  checksNull := false
  check _ value _ := pure (value.plainText?.bind f.complaint?)

/-! ## Choice -/

/-- Whether the plain text of a value is one of some texts. Missing values need not be. -/
def isChoice (allowed : List String) (value : Value) : Bool :=
  match value.plainText? with
  | some text => allowed.contains text
  | none => value.isNull

/-- The value must be one of some texts. -/
def Validator.oneOf (allowed : List String) (message : Option String) : Validator m where
  checksNull := false
  check _ value _ :=
    pure (if isChoice allowed value then none
      else some (message.getD
        ("Select a valid choice. Expected one of: " ++ commaSeparated allowed ++ ".")))

/-! ## Uniqueness -/

/-- The demand that no other row of a table has the value. -/
structure Uniqueness where
  table : Table
  message : String

namespace Uniqueness

/-- The demand for a table, with a message other than the usual one if there is one. -/
def ofTable (t : Table) (message : Option String) : Uniqueness :=
  ⟨t, message.getD "A record with this value already exists."⟩

/-- The name by which a predicate speaks of a column. -/
def reference (u : Uniqueness) (column : String) : String :=
  match u.table.column? column with
  | some c => c.property
  | none => column

/-- The predicate that sets the row of the record itself apart. It takes a primary key of a single
column, which is not the one in question, and a value for it. -/
def exclusion? (u : Uniqueness) (column : String) (record : Record) : Option Predicate :=
  match u.table.primaryKey with
  | [key] =>
    if (record.get key).isNull || sameName key column then none
    else some (.equal (u.reference key) true (record.get key))
  | _ => none

/-- The query for other rows with the value. -/
def query (u : Uniqueness) (column : String) (value : Value) (record : Record) : TableQuery :=
  let same := (TableQuery.all u.table).filter (.equal (u.reference column) false value)
  match u.exclusion? column record with
  | none => same
  | some other => same.filter other

/-- What the answer to the query means. Without an answer the value is not accepted. -/
def verdict (u : Uniqueness) : Except QueryError Bool → Option String
  | .ok true => some u.message
  | .ok false => none
  | .error e => some ("Could not verify uniqueness: " ++ e.message)

/-- The demand in words. -/
def described (u : Uniqueness) : String :=
  "UniqueValidator \x7b table: " ++ quoted u.table.name ++ ", message: " ++ quoted u.message ++
    ", .. \x7d"

end Uniqueness

/-- No other row may have the value. -/
def Validator.unique (u : Uniqueness) (executor : Executor m) : Validator m where
  checksNull := false
  check column value record :=
    return u.verdict (← (u.query column value record).isInhabited executor)

end Plain

end SqlKit
