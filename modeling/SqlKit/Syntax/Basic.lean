import SqlKit.Number.Binary64
import SqlKit.Source.Span
import SqlKit.Text.Case

/-!
# The leaves of the syntax tree

Names, column types, literals, parameters and operators: all parts of a statement that hold no
further part of the same statement.
-/

namespace SqlKit

/-! ## Names -/

/-- A name with an optional schema in front: `name` or `schema.name`. -/
structure QualifiedName where
  schema : Option String
  name : String
  deriving Repr, DecidableEq, Inhabited

namespace QualifiedName

/-- A name without a schema. -/
def unqualified (name : String) : QualifiedName := ⟨none, name⟩

/-- Whether the name after the schema is this one, up to letter case. -/
def isNamed (q : QualifiedName) (name : String) : Bool := Text.sameName q.name name

end QualifiedName

/-- A dotted path such as `name` or `table.name`, never empty. -/
structure Path where
  first : String
  rest : List String
  deriving Repr, DecidableEq, Inhabited

namespace Path

/-- The parts of a path in order. -/
def parts (p : Path) : List String := p.first :: p.rest

/-- The last part, which names the column. -/
def name (p : Path) : String := p.rest.getLastD p.first

/-- The part before the last one, which names the table. -/
def qualifier (p : Path) : Option String := p.parts.dropLast.getLast?

end Path

/-! ## Column types -/

/-- The types of columns that are told apart. -/
inductive SqlType where
  | bit | tinyInt | smallInt | integer | bigInt
  | float | real | double | numeric | decimal
  | char | varChar | longVarChar | nChar | nVarChar
  | date | time | timestamp | timestampWithTimezone
  | binary | varBinary | longVarBinary | blob | clob
  | boolean | array | other
  deriving Repr, DecidableEq, Inhabited

namespace SqlType

/-- The type that a name in lower case stands for. Unknown names stand for `other`. -/
def ofLowerName : String → SqlType
  | "bit" => .bit
  | "tinyint" => .tinyInt
  | "smallint" | "int2" | "year" => .smallInt
  | "int" | "integer" | "mediumint" | "int4" | "signed" => .integer
  | "bigint" | "int8" | "long" | "identity" | "serial" | "bigserial" => .bigInt
  | "real" | "float4" => .real
  | "float" => .float
  | "float8" | "double" | "double precision" => .double
  | "number" | "numeric" => .numeric
  | "decimal" | "dec" => .decimal
  | "char" | "character" => .char
  | "varchar" | "varchar2" | "character varying" | "varchar_ignorecase"
  | "varchar_casesensitive" => .varChar
  | "longvarchar" => .longVarChar
  | "nchar" => .nChar
  | "nvarchar" | "nvarchar2" => .nVarChar
  | "date" => .date
  | "time" => .time
  | "timestamp" | "datetime" | "smalldatetime" => .timestamp
  | "timestamptz" => .timestampWithTimezone
  | "binary" => .binary
  | "varbinary" | "raw" | "bytea" => .varBinary
  | "longvarbinary" => .longVarBinary
  | "blob" | "tinyblob" | "mediumblob" | "longblob" | "image" | "oid" => .blob
  | "clob" | "text" | "tinytext" | "mediumtext" | "longtext" | "ntext" | "nclob" => .clob
  | "bool" | "boolean" => .boolean
  | "array" => .array
  | _ => .other

/-- The type that a name stands for, in any letter case. -/
def ofName (name : String) : SqlType := ofLowerName name.toLower

/-- The type names whose columns number their rows by themselves. -/
def identityNames : List String := ["identity", "serial", "bigserial"]

/-- Whether a type name makes the column number its rows. -/
def impliesIdentity (name : String) : Bool := identityNames.contains name.toLower

/-- The number by which database drivers know a type. -/
def code : SqlType → Int
  | .bit => -7
  | .tinyInt => -6
  | .smallInt => 5
  | .integer => 4
  | .bigInt => -5
  | .float => 6
  | .real => 7
  | .double => 8
  | .numeric => 2
  | .decimal => 3
  | .char => 1
  | .varChar => 12
  | .longVarChar => -1
  | .nChar => -15
  | .nVarChar => -9
  | .date => 91
  | .time => 92
  | .timestamp => 93
  | .timestampWithTimezone => 2014
  | .binary => -2
  | .varBinary => -3
  | .longVarBinary => -4
  | .blob => 2004
  | .clob => 2005
  | .boolean => 16
  | .array => 2003
  | .other => 1111

/-- The name of a type in data exchange. -/
def constant : SqlType → String
  | .bit => "BIT"
  | .tinyInt => "TINY_INT"
  | .smallInt => "SMALL_INT"
  | .integer => "INTEGER"
  | .bigInt => "BIG_INT"
  | .float => "FLOAT"
  | .real => "REAL"
  | .double => "DOUBLE"
  | .numeric => "NUMERIC"
  | .decimal => "DECIMAL"
  | .char => "CHAR"
  | .varChar => "VAR_CHAR"
  | .longVarChar => "LONG_VAR_CHAR"
  | .nChar => "N_CHAR"
  | .nVarChar => "N_VAR_CHAR"
  | .date => "DATE"
  | .time => "TIME"
  | .timestamp => "TIMESTAMP"
  | .timestampWithTimezone => "TIMESTAMP_WITH_TIMEZONE"
  | .binary => "BINARY"
  | .varBinary => "VAR_BINARY"
  | .longVarBinary => "LONG_VAR_BINARY"
  | .blob => "BLOB"
  | .clob => "CLOB"
  | .boolean => "BOOLEAN"
  | .array => "ARRAY"
  | .other => "OTHER"

/-- Text, decimal and binary types may be followed by `(length[, scale])`. -/
def acceptsLength : SqlType → Bool
  | .char | .varChar | .longVarChar | .nChar | .nVarChar | .numeric | .decimal
  | .binary | .varBinary | .longVarBinary => true
  | _ => false

end SqlType

/-- The type of a column as it is written: its name, and a length or precision and a scale. -/
structure ColumnType where
  name : String
  length : Option Nat
  scale : Option Nat
  deriving Repr, DecidableEq, Inhabited

/-- The type that the name stands for. -/
def ColumnType.sqlType (t : ColumnType) : SqlType := .ofName t.name

/-! ## Leaves of expressions -/

/-- Constant values. -/
inductive Literal where
  | integer (value : Int64)
  | float (value : Binary64)
  | string (value : String)
  | boolean (value : Bool)
  | null
  deriving Repr, DecidableEq, Inhabited

/-- A named parameter `@name` or `@name:type`. One without a type has the type that its name was
last declared with. -/
structure NamedParameter where
  name : String
  typeName : String
  declared : Bool
  span : Span
  deriving Repr, DecidableEq, Inhabited

/-- A placeholder `?` or `?7`, with its place among the placeholders of its statement, which counts
from one. -/
structure Placeholder where
  number : Option Nat
  position : Nat
  deriving Repr, DecidableEq, Inhabited

/-- Multiplicative operators. -/
inductive MulOp where
  | times | over | modulo
  deriving Repr, DecidableEq, Inhabited

/-- Additive operators. -/
inductive AddOp where
  | plus | minus
  deriving Repr, DecidableEq, Inhabited

/-- Comparison operators. -/
inductive CompareOp where
  | equal | notEqual | less | lessEqual | greater | greaterEqual
  deriving Repr, DecidableEq, Inhabited

/-! ## Leaves of queries -/

/-- The direction of a sort. -/
inductive Direction where
  | ascending | descending
  deriving Repr, DecidableEq, Inhabited

/-- Where a sort puts the missing values. -/
inductive NullPlacement where
  | first | last
  deriving Repr, DecidableEq, Inhabited

/-- The kinds of joins. A comma between two sources is a join as well. -/
inductive JoinKind where
  | comma | plain | inner | left | right | full | cross
  deriving Repr, DecidableEq, Inhabited

/-- A join operator such as `NATURAL LEFT OUTER JOIN`. -/
structure JoinOperator where
  natural : Bool
  kind : JoinKind
  outer : Bool
  deriving Repr, DecidableEq, Inhabited

/-- The comma between two sources. -/
def JoinOperator.ofComma : JoinOperator := ⟨false, .comma, false⟩

/-- The operators between the bodies of a compound query. -/
inductive SetOperator where
  | union | unionAll | intersect | except
  deriving Repr, DecidableEq, Inhabited

end SqlKit
