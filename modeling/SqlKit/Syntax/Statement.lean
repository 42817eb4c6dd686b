import SqlKit.Syntax.Query

/-!
# Statements

Definitions of tables with their columns and constraints, changes of such definitions, changes of
rows, and queries. Every statement knows the span of text it was read from.
-/

namespace SqlKit

/-! ## Tables -/

/-- The first number and the step of a column that numbers its rows. -/
structure Sequence where
  start : Int64
  increment : Int64
  deriving Repr, DecidableEq, Inhabited

/-- What a column definition says about missing values. -/
inductive Nullability where
  | unstated | null | notNull
  deriving Repr, DecidableEq, Inhabited

/-- Whether a column numbers its rows, and how. -/
inductive Numbering where
  | none
  | automatic (sequence : Option Sequence)
  deriving Repr, DecidableEq, Inhabited

/-- Whether a column is the primary key of its table, and by which kind of index. -/
inductive ColumnKey where
  | none | plain | hash
  deriving Repr, DecidableEq, Inhabited

/-- The definition of a column: its name and type, and what may follow them, in this order. -/
structure ColumnDefinition where
  name : String
  type : ColumnType
  default : Option Term
  nullability : Nullability
  numbering : Numbering
  unique : Bool
  primaryKey : ColumnKey
  check : Option Expr
  span : Span

namespace ColumnDefinition

/-- Whether the definition makes the column the primary key. -/
def isPrimaryKey (c : ColumnDefinition) : Bool := c.primaryKey != .none

/-- Whether the column numbers its rows. -/
def isNumbered (c : ColumnDefinition) : Bool := c.numbering != .none

/-- The sequence of a column that numbers its rows, where one is stated. -/
def sequence (c : ColumnDefinition) : Option Sequence :=
  match c.numbering with
  | .automatic sequence => sequence
  | .none => none

/-- Whether values may be missing. A primary key is never missing. -/
def isNullable (c : ColumnDefinition) : Bool :=
  c.nullability != .notNull && !c.isPrimaryKey

end ColumnDefinition

/-- What happens to rows whose referenced row is deleted or changed. -/
inductive ReferentialAction where
  | cascade | restrict | noAction | setDefault | setNull
  deriving Repr, DecidableEq, Inhabited

/-- The table and columns that a foreign key refers to. No columns stand for that table's primary
key. -/
structure Reference where
  table : QualifiedName
  columns : List String
  onDelete : Option ReferentialAction
  onUpdate : Option ReferentialAction
  deriving Repr, DecidableEq, Inhabited

/-- The action on deletion, `RESTRICT` unless another one is stated. -/
def Reference.effectiveOnDelete (r : Reference) : ReferentialAction := r.onDelete.getD .restrict

/-- The action on change, `RESTRICT` unless another one is stated. -/
def Reference.effectiveOnUpdate (r : Reference) : ReferentialAction := r.onUpdate.getD .restrict

/-- What a table constraint demands. The condition of a `CHECK` is missing only in a constraint that
could not be read. -/
inductive Demand where
  | check (condition : Option Expr)
  | unique (columns : List String)
  | foreignKey (columns : List String) (reference : Reference)
  | primaryKey (hash : Bool) (columns : List String)

namespace Demand

/-- The columns that a demand is about; a `CHECK` lists none. -/
def columns : Demand → List String
  | check _ => []
  | unique columns | foreignKey columns _ | primaryKey _ columns => columns

/-- The condition of a `CHECK`. -/
def condition? : Demand → Option Expr
  | check condition => condition
  | _ => none

/-- What a foreign key refers to. -/
def reference? : Demand → Option Reference
  | foreignKey _ reference => some reference
  | _ => none

end Demand

/-- A table constraint with its name, if it has one. -/
structure Constraint where
  name : Option String
  demand : Demand
  span : Span

/-- An entry in the body of a table. -/
inductive TableElement where
  | column (definition : ColumnDefinition)
  | constraint (constraint : Constraint)

/-- `CREATE TABLE`. -/
structure CreateTable where
  temporary : Bool
  ifNotExists : Bool
  name : QualifiedName
  elements : List TableElement
  withoutRowid : Bool
  span : Span

namespace CreateTable

/-- The columns in the order of their definitions. -/
def columns (t : CreateTable) : List ColumnDefinition :=
  t.elements.filterMap fun
    | .column definition => some definition
    | .constraint _ => none

/-- The table constraints in the order of their definitions. -/
def constraints (t : CreateTable) : List Constraint :=
  t.elements.filterMap fun
    | .constraint constraint => some constraint
    | .column _ => none

/-- The first column of this name, up to letter case. -/
def column? (t : CreateTable) (name : String) : Option ColumnDefinition :=
  t.columns.find? fun c => Text.sameName c.name name

end CreateTable

/-- A change of one column. -/
inductive ColumnChange where
  | rename (newName : String)
  | setDefault (value : Term)
  | dropDefault
  | setNotNull
  | dropNotNull
  | setNull
  | redefine (definition : ColumnDefinition)

/-- A change of a table. -/
inductive AlterAction where
  | addColumn (definition : ColumnDefinition)
  | addConstraint (constraint : Constraint)
  | alterColumn (column : String) (change : ColumnChange)
  | dropColumn (column : String)
  | dropConstraint (name : String)
  | dropPrimaryKey
  | renameTable (newName : String)
  | renameColumn (column newName : String)

/-- `ALTER TABLE`. -/
structure AlterTable where
  table : QualifiedName
  action : AlterAction
  span : Span

/-- What happens to objects that depend on a dropped table. -/
inductive DropBehavior where
  | cascade | restrict
  deriving Repr, DecidableEq, Inhabited

/-- `DROP TABLE`. -/
structure DropTable where
  ifExists : Bool
  names : List QualifiedName
  behavior : Option DropBehavior
  span : Span

/-! ## Rows -/

/-- What to do with a row that conflicts with another one. -/
inductive ConflictResolution where
  | rollback | abort | fail | ignore | replace
  deriving Repr, DecidableEq, Inhabited

/-- Whether an insertion replaces rows, or which conflict resolution it states. -/
inductive InsertMode where
  | replace
  | insert (resolution : Option ConflictResolution)
  deriving Repr, DecidableEq, Inhabited

/-- The conflict resolution that an insertion states. -/
def InsertMode.resolution : InsertMode → Option ConflictResolution
  | replace => none
  | insert resolution => resolution

/-- Where inserted rows come from. -/
inductive InsertSource where
  | values (rows : List (List Expr))
  | query (query : Select)
  | defaultValues

/-- `INSERT` and `REPLACE`. -/
structure Insert where
  mode : InsertMode
  table : QualifiedName
  columns : List String
  source : InsertSource
  span : Span

/-- A new value for a column. -/
structure Assignment where
  column : String
  value : Expr

/-- `UPDATE`. -/
structure Update where
  resolution : Option ConflictResolution
  table : QualifiedName
  assignments : List Assignment
  condition : Option Expr
  span : Span

/-- `DELETE`. -/
structure Delete where
  table : QualifiedName
  condition : Option Expr
  span : Span

/-! ## Statements -/

/-- A statement. -/
inductive Statement where
  | createTable (statement : CreateTable)
  | alterTable (statement : AlterTable)
  | dropTable (statement : DropTable)
  | insert (statement : Insert)
  | update (statement : Update)
  | delete (statement : Delete)
  | select (statement : Select)

namespace Statement

/-- The name of the kind of a statement. -/
def kindName : Statement → String
  | createTable _ => "CREATE TABLE"
  | alterTable _ => "ALTER TABLE"
  | dropTable _ => "DROP TABLE"
  | insert _ => "INSERT"
  | update _ => "UPDATE"
  | delete _ => "DELETE"
  | select _ => "SELECT"

/-- The text that a statement was read from. -/
def span : Statement → Span
  | createTable s => s.span
  | alterTable s => s.span
  | dropTable s => s.span
  | insert s => s.span
  | update s => s.span
  | delete s => s.span
  | select s => s.span

/-- The table definition that a statement is, if it is one. -/
def createTable? : Statement → Option CreateTable
  | createTable s => some s
  | _ => none

end Statement

end SqlKit
