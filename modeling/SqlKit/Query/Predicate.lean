import SqlKit.Data.Value
import SqlKit.Query.Error
import SqlKit.Schema.Table

/-!
# Predicates

Conditions on the rows of a table, joined by `AND` only. A predicate speaks of columns by their
properties and is turned into SQL for a given table by `Predicate.bind`. Values never become part of
the text: they stay beside it, one for every placeholder and in the same order.
-/

namespace SqlKit

/-- SQL text with the values for its placeholders in the order of the text. -/
structure BoundSql where
  sql : String
  arguments : List Value
  deriving Repr, DecidableEq, Inhabited

/-- A condition on the rows of a table. -/
inductive Predicate where
  | equal (column : String) (negated : Bool) (value : Value)
  | oneOf (column : String) (values : List Value)
  | like (column : String) (pattern : Value)
  | all (parts : List Predicate)
  deriving Repr, Inhabited

namespace Predicate

/-- The parts of a conjunction. Any other predicate is its own only part. -/
def parts : Predicate → List Predicate
  | all parts => parts
  | single => [single]

/-- The conjunction of two predicates, without conjunctions directly inside it that either of them
was. -/
def and (p q : Predicate) : Predicate := all (p.parts ++ q.parts)

end Predicate

/-- The column that a caller means by a name: one of that property, or else one of that physical
name. -/
def Table.resolve (t : Table) (name : String) : Except QueryError Column :=
  match (t.property? name).or (t.column? name) with
  | some column => .ok column
  | none => .error (.unknownColumn t.name name)

namespace BoundSql

/-- A column is equal to a value, or not equal to it. A missing value is asked for by `IS`. -/
def equality (c : Column) (negated : Bool) (value : Value) : BoundSql :=
  if value.isNull then ⟨c.name ++ (if negated then " IS NOT NULL" else " IS NULL"), []⟩
  else ⟨c.name ++ (if negated then "<>?" else "=?"), [value]⟩

/-- A column holds one of some values. None of no values is ever held. -/
def membership (c : Column) (values : List Value) : BoundSql :=
  if values.isEmpty then ⟨"1=0", []⟩
  else ⟨c.name ++ " IN (" ++ commaSeparated (values.map fun _ => "?") ++ ")", values⟩

/-- A column matches a pattern. -/
def likeness (c : Column) (pattern : Value) : BoundSql := ⟨c.name ++ " LIKE ?", [pattern]⟩

/-- All of some conditions hold. With no conditions that is always so. -/
def conjunction (conditions : List BoundSql) : BoundSql :=
  if conditions.isEmpty then ⟨"1=1", []⟩
  else ⟨" AND ".intercalate (conditions.map (·.sql)), conditions.flatMap (·.arguments)⟩

end BoundSql

namespace Predicate

mutual

/-- The SQL of a predicate for a table. The first column that the table does not have is an
error. -/
def bind (t : Table) : Predicate → Except QueryError BoundSql
  | equal column negated value => (t.resolve column).map fun c => .equality c negated value
  | oneOf column values => (t.resolve column).map fun c => .membership c values
  | like column pattern => (t.resolve column).map fun c => .likeness c pattern
  | all parts => (bindAll t parts).map .conjunction

/-- The SQL of several predicates for a table. -/
def bindAll (t : Table) : List Predicate → Except QueryError (List BoundSql)
  | [] => .ok []
  | p :: rest => do
    let first ← p.bind t
    let others ← bindAll t rest
    return first :: others

end

end Predicate

end SqlKit
