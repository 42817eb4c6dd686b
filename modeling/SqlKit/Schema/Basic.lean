import SqlKit.Schema.Table

/-!
# Schemas

The tables that a sequence of statements leaves, in the order in which they were first defined. Each
statement takes a schema to the next one; statements about rows change nothing.
-/

namespace SqlKit

/-- All tables known. -/
structure Schema where
  tables : List Table
  deriving Repr, DecidableEq, Inhabited

namespace Schema

/-- No tables. -/
def empty : Schema := ⟨[]⟩

/-- Whether a table has this name. -/
def isNamed (name : String) (t : Table) : Bool := Text.sameName t.name name

/-- The first table of this name. -/
def table? (s : Schema) (name : String) : Option Table := s.tables.find? (isNamed name)

/-- The schema with the first table of a name changed. -/
def updateTable (s : Schema) (name : String) (f : Table → Table) : Schema :=
  ⟨updateFirst (isNamed name) f s.tables⟩

/-- The schema with a table, which takes the place of an earlier one of its name. -/
def define (s : Schema) (t : Table) : Schema :=
  if (s.table? t.name).isSome then s.updateTable t.name fun _ => t else ⟨s.tables ++ [t]⟩

/-- The schema without the first table of a name. -/
def dropTable (s : Schema) (name : String) : Schema := ⟨s.tables.eraseP (isNamed name)⟩

/-- The schema after a statement. Changes of unknown tables are passed over. -/
def apply (s : Schema) : Statement → Schema
  | .createTable statement => s.define (.ofCreateTable statement)
  | .alterTable statement => s.updateTable statement.table.name (·.alter statement.action)
  | .dropTable statement => statement.names.foldl (fun s name => s.dropTable name.name) s
  | .insert _ | .update _ | .delete _ | .select _ => s

/-- The schema after each of several statements. -/
def states (s : Schema) : List Statement → List Schema
  | [] => []
  | statement :: rest => s.apply statement :: (s.apply statement).states rest

/-- The schema after several statements. -/
def applyAll (s : Schema) (statements : List Statement) : Schema := statements.foldl apply s

/-- The schema that several statements make. -/
def ofStatements (statements : List Statement) : Schema := empty.applyAll statements

end Schema

end SqlKit
