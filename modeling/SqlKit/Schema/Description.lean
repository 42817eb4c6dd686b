import SqlKit.Data.Json
import SqlKit.Schema.Basic

/-!
# Descriptions of schemas

A schema in words, a line for each column and for each key that no column line can tell of, and a
schema in JSON.
-/

namespace SqlKit

/-! ## Words -/

namespace Column

/-- What there is to say about a column besides its name and type. -/
def remarks (c : Column) : List String :=
  (if c.primaryKey then ["primary key"] else []) ++
    (if c.unique then ["unique"] else []) ++
    (if c.nullable then [] else ["not null"]) ++
    (if c.numbered then ["auto increment"] else [])

/-- The line of a column. -/
def description (c : Column) : String :=
  "  " ++ c.name ++ " " ++ c.typeName ++
    (if c.remarks.isEmpty then "" else " (" ++ commaSeparated c.remarks ++ ")") ++ "\n"

end Column

/-- The line of a foreign key. -/
def ForeignKey.description (k : ForeignKey) : String :=
  "  foreign key (" ++ commaSeparated k.columns ++ ") references " ++ k.table ++
    "(" ++ commaSeparated k.referencedColumns ++ ") on delete " ++ k.onDelete.sql ++
    " on update " ++ k.onUpdate.sql ++ "\n"

/-- The line of a key over several columns. A key over one column is told of in its line. -/
def keyDescription (kind : String) (columns : List String) : String :=
  if 1 < columns.length then "  " ++ kind ++ " (" ++ commaSeparated columns ++ ")\n" else ""

/-- The lines of a table. -/
def Table.description (t : Table) : String :=
  t.qualifiedName ++ "\n" ++
    String.join (t.columns.map (·.description)) ++
    keyDescription "primary key" t.primaryKey ++
    String.join (t.uniqueKeys.map fun k => keyDescription "unique" k.columns) ++
    String.join (t.foreignKeys.map (·.description))

/-- The lines of a schema. -/
def Schema.description (s : Schema) : String := String.join (s.tables.map (·.description))

/-! ## JSON -/

/-- A column in JSON. -/
def Column.json (c : Column) : Json :=
  .object [("property", .text c.property), ("name", .text c.name), ("type_name", .text c.typeName),
    ("sql_type", .text c.sqlType.constant), ("nullable", .boolean c.nullable),
    ("primary_key", .boolean c.primaryKey), ("unique", .boolean c.unique),
    ("auto_increment", .boolean c.numbered)]

/-- A unique key in JSON. -/
def UniqueKey.json (k : UniqueKey) : Json :=
  .object [("name", .ofText? k.name), ("columns", .texts k.columns)]

/-- A foreign key in JSON. -/
def ForeignKey.json (k : ForeignKey) : Json :=
  .object [("name", .ofText? k.name), ("columns", .texts k.columns), ("references", .text k.table),
    ("referenced_columns", .texts k.referencedColumns), ("on_delete", .text k.onDelete.constant),
    ("on_update", .text k.onUpdate.constant)]

/-- A table in JSON. It has a member for its schema only if it is in one. -/
def Table.json (t : Table) : Json :=
  .object ([("name", .text t.name)] ++ (t.schema.map fun s => ("schema", .text s)).toList ++
    [("columns", .array (t.columns.map (·.json))), ("primary_key", .texts t.primaryKey),
      ("unique_keys", .array (t.uniqueKeys.map (·.json))),
      ("foreign_keys", .array (t.foreignKeys.map (·.json)))])

/-- A schema in JSON. -/
def Schema.json (s : Schema) : Json := .object [("tables", .array (s.tables.map (·.json)))]

end SqlKit
