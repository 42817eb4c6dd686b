import SqlKit.Syntax.Statement
import SqlKit.Number.Shortest
import SqlKit.Token.Quoted

/-!
# Writing SQL

The text of expressions and queries. Layers are joined by their operators with a blank on either
side, lists by a comma and a blank; parentheses stand where the tree has them and nowhere else.
Keywords are written in capitals, names as they were read.
-/

namespace SqlKit

/-- Items in a row, with a comma and a blank between them. -/
def commaSeparated (items : List String) : String := ", ".intercalate items

/-! ## Leaves -/

/-- A name with its schema in front, if it has one. -/
def QualifiedName.sql (q : QualifiedName) : String :=
  match q.schema with
  | some schema => schema ++ "." ++ q.name
  | none => q.name

/-- The parts of a path with points between them. -/
def Path.sql (p : Path) : String := ".".intercalate p.parts

/-- A type name with its length and scale. A scale is written only after a length. -/
def ColumnType.sql (t : ColumnType) : String :=
  match t.length, t.scale with
  | some length, some scale =>
    t.name ++ "(" ++ toString length ++ ", " ++ toString scale ++ ")"
  | some length, none => t.name ++ "(" ++ toString length ++ ")"
  | none, _ => t.name

/-- A constant. -/
def Literal.sql : Literal → String
  | .integer value => toString value.toInt
  | .float value => value.text
  | .string value => stringLiteral value
  | .boolean true => "TRUE"
  | .boolean false => "FALSE"
  | .null => "NULL"

/-- A named parameter, with its type where it was declared. -/
def NamedParameter.sql (p : NamedParameter) : String :=
  if p.declared then "@" ++ p.name ++ ":" ++ p.typeName else "@" ++ p.name

/-- A placeholder with its number, if it has one. -/
def Placeholder.sql (p : Placeholder) : String :=
  match p.number with
  | some number => "?" ++ toString number
  | none => "?"

def MulOp.sql : MulOp → String
  | .times => "*"
  | .over => "/"
  | .modulo => "%"

def AddOp.sql : AddOp → String
  | .plus => "+"
  | .minus => "-"

def CompareOp.sql : CompareOp → String
  | .equal => "="
  | .notEqual => "<>"
  | .less => "<"
  | .lessEqual => "<="
  | .greater => ">"
  | .greaterEqual => ">="

def Direction.sql : Direction → String
  | .ascending => "ASC"
  | .descending => "DESC"

def NullPlacement.sql : NullPlacement → String
  | .first => "NULLS FIRST"
  | .last => "NULLS LAST"

def SetOperator.sql : SetOperator → String
  | .union => "UNION"
  | .unionAll => "UNION ALL"
  | .intersect => "INTERSECT"
  | .except => "EXCEPT"

/-- The word for a kind of join with a blank behind it; comma and plain joins have none. -/
def JoinKind.word : JoinKind → String
  | .comma | .plain => ""
  | .inner => "INNER "
  | .left => "LEFT "
  | .right => "RIGHT "
  | .full => "FULL "
  | .cross => "CROSS "

/-- A join operator in words, or a comma. -/
def JoinOperator.sql (o : JoinOperator) : String :=
  if o.kind = .comma then ","
  else (if o.natural then "NATURAL " else "") ++ o.kind.word ++ (if o.outer then "OUTER " else "")
    ++ "JOIN"

def ReferentialAction.sql : ReferentialAction → String
  | .cascade => "CASCADE"
  | .restrict => "RESTRICT"
  | .noAction => "NO ACTION"
  | .setDefault => "SET DEFAULT"
  | .setNull => "SET NULL"

/-- The name of an action in data exchange. -/
def ReferentialAction.constant : ReferentialAction → String
  | .cascade => "CASCADE"
  | .restrict => "RESTRICT"
  | .noAction => "NO_ACTION"
  | .setDefault => "SET_DEFAULT"
  | .setNull => "SET_NULL"

def DropBehavior.sql : DropBehavior → String
  | .cascade => "CASCADE"
  | .restrict => "RESTRICT"

def ConflictResolution.sql : ConflictResolution → String
  | .rollback => "ROLLBACK"
  | .abort => "ABORT"
  | .fail => "FAIL"
  | .ignore => "IGNORE"
  | .replace => "REPLACE"

/-- A predicate's words, with `NOT` in front of them when it is negated. -/
def negatable (negated : Bool) (word : String) : String := if negated then "NOT " ++ word else word

/-- The words by which a condition tests its operand, if it does. -/
def Condition.operator? : Condition → Option String
  | .comparison _ operator _ => some operator.sql
  | .isNull _ negated => some (if negated then "IS NOT NULL" else "IS NULL")
  | .same _ negated _ => some (if negated then "IS NOT" else "IS")
  | .between _ negated _ _ => some (negatable negated "BETWEEN")
  | .oneOf _ negated _ | .oneOfQuery _ negated _ => some (negatable negated "IN")
  | .like _ negated _ | .likeEscape _ negated _ _ => some (negatable negated "LIKE")
  | .regexp _ negated _ => some (negatable negated "REGEXP")
  | .operand _ | .existence _ | .negation _ => none

/-- The words that give a source or a result another name. -/
def renamedSql : Option String → String
  | some name => " AS " ++ name
  | none => ""

/-! ## Expressions and queries -/

mutual

def Expr.sql : Expr → String
  | .single conjunction => conjunction.sql
  | .or left right => left.sql ++ " OR " ++ right.sql

def Conjunction.sql : Conjunction → String
  | .single condition => condition.sql
  | .and left right => left.sql ++ " AND " ++ right.sql

def Condition.sql : Condition → String
  | .operand operand => operand.sql
  | .comparison left operator right => left.sql ++ " " ++ operator.sql ++ " " ++ right.sql
  | .isNull left negated => left.sql ++ (if negated then " IS NOT NULL" else " IS NULL")
  | .same left negated right => left.sql ++ (if negated then " IS NOT " else " IS ") ++ right.sql
  | .between left negated low high =>
    left.sql ++ " " ++ negatable negated "BETWEEN" ++ " " ++ low.sql ++ " AND " ++ high.sql
  | .oneOf left negated values =>
    left.sql ++ " " ++ negatable negated "IN" ++ " (" ++ commaSeparated (Expr.sqlAll values) ++ ")"
  | .oneOfQuery left negated query =>
    left.sql ++ " " ++ negatable negated "IN" ++ " (" ++ query.sql ++ ")"
  | .like left negated pattern =>
    left.sql ++ " " ++ negatable negated "LIKE" ++ " " ++ pattern.sql
  | .likeEscape left negated pattern escape =>
    left.sql ++ " " ++ negatable negated "LIKE" ++ " " ++ pattern.sql ++ " ESCAPE " ++ escape.sql
  | .regexp left negated pattern =>
    left.sql ++ " " ++ negatable negated "REGEXP" ++ " " ++ pattern.sql
  | .existence query => "EXISTS (" ++ query.sql ++ ")"
  | .negation inner => "NOT " ++ inner.sql

def Operand.sql : Operand → String
  | .single sum => sum.sql
  | .concat left right => left.sql ++ " || " ++ right.sql

def Sum.sql : Sum → String
  | .single product => product.sql
  | .add left operator right => left.sql ++ " " ++ operator.sql ++ " " ++ right.sql

def Product.sql : Product → String
  | .single term => term.sql
  | .mul left operator right => left.sql ++ " " ++ operator.sql ++ " " ++ right.sql

def Term.sql : Term → String
  | .path path => path.sql
  | .literal value => value.sql
  | .parameter parameter => parameter.sql
  | .placeholder placeholder => placeholder.sql
  | .paren inner => "(" ++ inner.sql ++ ")"
  | .subquery query => "(" ++ query.sql ++ ")"
  | .case operand branches otherwise =>
    "CASE" ++ Expr.sqlAfter " " operand ++ Branch.sqlAll branches ++
      Expr.sqlAfter " ELSE " otherwise ++ " END"
  | .cast inner target => "CAST(" ++ inner.sql ++ " AS " ++ target.sql ++ ")"
  | .call function distinct arguments =>
    function ++ "(" ++ (if distinct then "DISTINCT " else "") ++
      commaSeparated (Expr.sqlAll arguments) ++ ")"
  | .callStar function => function ++ "(*)"
  | .signed negative inner => (if negative then "-" else "+") ++ inner.sql

/-- The texts of several expressions. -/
def Expr.sqlAll : List Expr → List String
  | [] => []
  | e :: es => e.sql :: Expr.sqlAll es

/-- An optional expression after the words that announce it. -/
def Expr.sqlAfter (words : String) : Option Expr → String
  | none => ""
  | some e => words ++ e.sql

/-- The branches of a `CASE`. -/
def Branch.sqlAll : List Branch → String
  | [] => ""
  | ⟨condition, result⟩ :: branches =>
    " WHEN " ++ condition.sql ++ " THEN " ++ result.sql ++ Branch.sqlAll branches

def Select.sql : Select → String
  | ⟨recursive, tables, bodies, orderBy, limit, _⟩ =>
    (if tables.isEmpty then ""
      else "WITH " ++ (if recursive then "RECURSIVE " else "") ++
        commaSeparated (CommonTable.sqlAll tables) ++ " ") ++
      bodies.sql ++
      (if orderBy.isEmpty then "" else " ORDER BY " ++ commaSeparated (OrderTerm.sqlAll orderBy)) ++
      limit.sql

/-- The tables that a query defines. -/
def CommonTable.sqlAll : List CommonTable → List String
  | [] => []
  | ⟨name, columns, query⟩ :: tables =>
    (name ++ (if columns.isEmpty then "" else "(" ++ commaSeparated columns ++ ")") ++
      " AS (" ++ query.sql ++ ")") :: CommonTable.sqlAll tables

def Bodies.sql : Bodies → String
  | .single body => body.sql
  | .compound left operator right => left.sql ++ " " ++ operator.sql ++ " " ++ right.sql

def Body.sql : Body → String
  | .select distinct columns source condition groupBy having =>
    "SELECT " ++ (if distinct then "DISTINCT " else "") ++
      commaSeparated (ResultColumn.sqlAll columns) ++ JoinClause.sqlAfterFrom source ++
      Expr.sqlAfter " WHERE " condition ++
      (if groupBy.isEmpty then "" else " GROUP BY " ++ commaSeparated (Expr.sqlAll groupBy)) ++
      Expr.sqlAfter " HAVING " having
  | .values rows => "VALUES " ++ commaSeparated (Expr.sqlRows rows)

/-- Rows of values. -/
def Expr.sqlRows : List (List Expr) → List String
  | [] => []
  | row :: rows => ("(" ++ commaSeparated (Expr.sqlAll row) ++ ")") :: Expr.sqlRows rows

def ResultColumn.sql : ResultColumn → String
  | .star => "*"
  | .tableStar table => table ++ ".*"
  | .expr expr asName => expr.sql ++ renamedSql asName

/-- The columns of a result. -/
def ResultColumn.sqlAll : List ResultColumn → List String
  | [] => []
  | column :: columns => column.sql :: ResultColumn.sqlAll columns

/-- The `FROM` of a body, if it has one. -/
def JoinClause.sqlAfterFrom : Option JoinClause → String
  | none => ""
  | some clause => " FROM " ++ clause.sql

def JoinClause.sql : JoinClause → String
  | .single source => source.sql
  | .join left operator right constraint =>
    left.sql ++ (if operator.kind = .comma then "" else " ") ++ operator.sql ++ " " ++ right.sql ++
      constraint.sql

def JoinConstraint.sql : JoinConstraint → String
  | .none => ""
  | .on condition => " ON " ++ condition.sql
  | .using columns => " USING (" ++ commaSeparated columns ++ ")"

def Source.sql : Source → String
  | .table name asName => name.sql ++ renamedSql asName
  | .subquery query asName => "(" ++ query.sql ++ ")" ++ renamedSql asName
  | .nested clause => "(" ++ clause.sql ++ ")"

/-- The keys of a sort. -/
def OrderTerm.sqlAll : List OrderTerm → List String
  | [] => []
  | ⟨key, direction, nulls⟩ :: terms =>
    (key.sql ++ " " ++ direction.sql ++ ((nulls.map fun n => " " ++ n.sql).getD "")) ::
      OrderTerm.sqlAll terms

def Limit.sql : Limit → String
  | .none => ""
  | .first count => " LIMIT " ++ count.sql
  | .window count offset => " LIMIT " ++ count.sql ++ " OFFSET " ++ offset.sql

end

end SqlKit
