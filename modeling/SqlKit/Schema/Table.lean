import SqlKit.Syntax.Render

/-!
# Tables

What is known of a table: its columns in the order of their definitions, and its keys, merged from
what columns and table constraints say. A column has two names, the physical one that SQL knows and
the property by which callers refer to it.

Names are looked up without regard to letter case, and where several columns have one name the first
of them is meant.
-/

namespace SqlKit

/-- Whether a list holds a name, up to letter case. -/
def hasName (names : List String) (name : String) : Bool := names.any (Text.sameName · name)

/-- The list with its first entry of a kind changed. -/
def updateFirst {α : Type} (p : α → Bool) (f : α → α) : List α → List α
  | [] => []
  | a :: as => if p a then f a :: as else a :: updateFirst p f as

@[simp] theorem length_updateFirst {α : Type} (p : α → Bool) (f : α → α) (as : List α) :
    (updateFirst p f as).length = as.length := by
  induction as with
  | nil => rfl
  | cons a as ih => by_cases h : p a <;> simp [updateFirst, h, ih]

/-! ## Columns and keys -/

/-- What is known of a column. -/
structure Column where
  property : String
  name : String
  typeName : String
  nullable : Bool
  primaryKey : Bool
  unique : Bool
  numbered : Bool
  deriving Repr, DecidableEq, Inhabited

namespace Column

/-- The type that the type name stands for. -/
def sqlType (c : Column) : SqlType := .ofName c.typeName

/-- The column that a definition describes. Its property is its name. -/
def ofDefinition (d : ColumnDefinition) : Column where
  property := d.name
  name := d.name
  typeName := d.type.name
  nullable := d.isNullable
  primaryKey := d.isPrimaryKey
  unique := d.unique
  numbered := d.isNumbered

/-- Whether a column has this physical name. -/
def isNamed (name : String) (c : Column) : Bool := Text.sameName c.name name

/-- The column as a part of the primary key, which holds no missing values. -/
def asPrimaryKey (c : Column) : Column := { c with primaryKey := true, nullable := false }

/-- The column under another physical name. A property that is nothing but the name follows it. -/
def renamed (newName : String) (c : Column) : Column :=
  { c with name := newName, property := if c.property = c.name then newName else c.property }

/-- The column after a new definition. It keeps its property and its part in the primary key. -/
def redefined (d : ColumnDefinition) (c : Column) : Column :=
  let new := { ofDefinition d with property := c.property }
  if c.primaryKey then new.asPrimaryKey else new

end Column

/-- Columns whose values are unique together. -/
structure UniqueKey where
  name : Option String
  columns : List String
  deriving Repr, DecidableEq, Inhabited

/-- Whether two lists hold the same names in the same order, up to letter case. -/
def sameNames : List String → List String → Bool
  | [], [] => true
  | a :: as, b :: bs => Text.sameName a b && sameNames as bs
  | _, _ => false

/-- Whether a key is over these columns. -/
def UniqueKey.isOver (columns : List String) (k : UniqueKey) : Bool := sameNames k.columns columns

/-- The key with a name, unless it has one. -/
def UniqueKey.withName (name : Option String) (k : UniqueKey) : UniqueKey :=
  { k with name := k.name.or name }

/-- Columns that refer to a row of another table. No referenced columns stand for the primary key of
that table. -/
structure ForeignKey where
  name : Option String
  columns : List String
  table : String
  referencedColumns : List String
  onDelete : ReferentialAction
  onUpdate : ReferentialAction
  deriving Repr, DecidableEq, Inhabited

/-- Whether an optional name is this one, up to letter case. -/
def isCalled (wanted : String) (name : Option String) : Bool := name.any (Text.sameName · wanted)

/-- Names with one of them replaced. -/
def replaceName (column newName : String) (names : List String) : List String :=
  names.map fun n => if Text.sameName n column then newName else n

/-! ## Tables -/

/-- A table. -/
structure Table where
  name : String
  schema : Option String
  columns : List Column
  primaryKey : List String
  uniqueKeys : List UniqueKey
  foreignKeys : List ForeignKey
  deriving Repr, DecidableEq, Inhabited

namespace Table

/-- The name in SQL, with its schema in front if it has one. -/
def qualifiedName (t : Table) : String := (QualifiedName.mk t.schema t.name).sql

/-- The first column of this physical name. -/
def column? (t : Table) (name : String) : Option Column := t.columns.find? (·.isNamed name)

/-- The first column of this property. -/
def property? (t : Table) (name : String) : Option Column :=
  t.columns.find? fun c => Text.sameName c.property name

/-- The columns of the primary key, as far as the table has them. -/
def keyColumns (t : Table) : List Column := t.primaryKey.filterMap t.column?

/-- The table with the first column of a name changed. -/
def updateColumn (t : Table) (name : String) (f : Column → Column) : Table :=
  { t with columns := updateFirst (Column.isNamed name) f t.columns }

/-- The table with another property for a column. -/
def mapProperty (t : Table) (column property : String) : Table :=
  t.updateColumn column fun c => { c with property }

/-- The table with one more unique key. Where there is one over the same columns, that one stays,
and takes the name if it has none. -/
def addUniqueKey (t : Table) (name : Option String) (columns : List String) : Table :=
  if t.uniqueKeys.any (·.isOver columns) then
    { t with uniqueKeys := updateFirst (·.isOver columns) (·.withName name) t.uniqueKeys }
  else { t with uniqueKeys := t.uniqueKeys ++ [⟨name, columns⟩] }

/-- The table with one more column, and with the keys that its definition states. -/
def addColumn (t : Table) (d : ColumnDefinition) : Table :=
  let column := Column.ofDefinition d
  let t := if column.primaryKey && !hasName t.primaryKey column.name then
    { t with primaryKey := t.primaryKey ++ [column.name] } else t
  let t := if column.unique then t.addUniqueKey none [column.name] else t
  { t with columns := t.columns ++ [column] }

/-- The table with these columns for its primary key. Columns that were in an earlier key remain
marked. -/
def setPrimaryKey (t : Table) (columns : List String) : Table :=
  { t with
    primaryKey := columns
    columns := t.columns.map fun c => if hasName columns c.name then c.asPrimaryKey else c }

/-- The table with a constraint that asks for unique values. Over a single column it marks that
column. -/
def addUnique (t : Table) (name : Option String) (columns : List String) : Table :=
  match columns with
  | [single] => (t.updateColumn single fun c => { c with unique := true }).addUniqueKey name columns
  | _ => t.addUniqueKey name columns

/-- The foreign key that a reference makes of some columns. -/
def foreignKey (name : Option String) (columns : List String) (r : Reference) : ForeignKey where
  name := name
  columns := columns
  table := r.table.name
  referencedColumns := r.columns
  onDelete := r.effectiveOnDelete
  onUpdate := r.effectiveOnUpdate

/-- The table with one more constraint. A `CHECK` leaves no trace. -/
def addConstraint (t : Table) (c : Constraint) : Table :=
  match c.demand with
  | .primaryKey _ columns => t.setPrimaryKey columns
  | .unique columns => t.addUnique c.name columns
  | .foreignKey columns r =>
    { t with foreignKeys := t.foreignKeys ++ [foreignKey c.name columns r] }
  | .check _ => t

/-- The table with one more entry of its definition. -/
def addElement (t : Table) : TableElement → Table
  | .column definition => t.addColumn definition
  | .constraint c => t.addConstraint c

/-- The table that a definition describes. -/
def ofCreateTable (c : CreateTable) : Table :=
  c.elements.foldl addElement ⟨c.name.name, c.name.schema, [], [], [], []⟩

/-! ### Changes -/

/-- The table without the columns of a name, and without the keys over them. -/
def dropColumn (t : Table) (name : String) : Table :=
  { t with
    columns := t.columns.filter (!·.isNamed name)
    primaryKey := t.primaryKey.filter (!Text.sameName · name)
    uniqueKeys := t.uniqueKeys.filter (!hasName ·.columns name)
    foreignKeys := t.foreignKeys.filter (!hasName ·.columns name) }

/-- The table with another physical name for a column, in its keys too. -/
def renameColumn (t : Table) (column newName : String) : Table :=
  { t.updateColumn column (·.renamed newName) with
    primaryKey := replaceName column newName t.primaryKey
    uniqueKeys := t.uniqueKeys.map fun k =>
      { k with columns := replaceName column newName k.columns }
    foreignKeys := t.foreignKeys.map fun k =>
      { k with columns := replaceName column newName k.columns } }

/-- The table without the constraints of a name. -/
def dropConstraint (t : Table) (name : String) : Table :=
  { t with
    uniqueKeys := t.uniqueKeys.filter (!isCalled name ·.name)
    foreignKeys := t.foreignKeys.filter (!isCalled name ·.name) }

/-- The table without a primary key. -/
def dropPrimaryKey (t : Table) : Table :=
  { t with primaryKey := [], columns := t.columns.map fun c => { c with primaryKey := false } }

/-- The table with a new definition for a column, and with a key over it if it is now unique. -/
def redefineColumn (t : Table) (column : String) (d : ColumnDefinition) : Table :=
  let changed := t.updateColumn column (·.redefined d)
  if (t.column? column).isSome && d.unique then changed.addUniqueKey none [d.name] else changed

/-- The table after a change of a column. Default values are not recorded. -/
def alterColumn (t : Table) (column : String) : ColumnChange → Table
  | .rename newName => t.renameColumn column newName
  | .setNotNull => t.updateColumn column fun c => { c with nullable := false }
  | .dropNotNull | .setNull => t.updateColumn column fun c => { c with nullable := !c.primaryKey }
  | .redefine definition => t.redefineColumn column definition
  | .setDefault _ | .dropDefault => t

/-- The table after a change. -/
def alter (t : Table) : AlterAction → Table
  | .addColumn definition => t.addColumn definition
  | .addConstraint c => t.addConstraint c
  | .alterColumn column change => t.alterColumn column change
  | .dropColumn column => t.dropColumn column
  | .dropConstraint name => t.dropConstraint name
  | .dropPrimaryKey => t.dropPrimaryKey
  | .renameTable newName => { t with name := newName }
  | .renameColumn column newName => t.renameColumn column newName

end Table

end SqlKit
