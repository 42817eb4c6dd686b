import SqlKit.Syntax.Basic

/-!
# Expressions and queries

An expression is a chain of layers, one for each strength of binding, and each layer owns the next:
disjunctions of conjunctions of conditions, and below a condition concatenations of sums of
products of terms. Every layer is left associative: it is a single entry of the next layer, or a
shorter chain with one entry more. So no chain is empty, and a single entry adds nothing.

Terms hold expressions again in parentheses, calls and `CASE`, and whole queries, so that
expressions and queries are defined together.
-/

namespace SqlKit

mutual

/-- Conjunctions joined by `OR`. -/
inductive Expr where
  | single (conjunction : Conjunction)
  | or (left : Expr) (right : Conjunction)

/-- Conditions joined by `AND`. -/
inductive Conjunction where
  | single (condition : Condition)
  | and (left : Conjunction) (right : Condition)

/-- A condition: an operand, alone or tested, the existence of a row, or a negated condition. -/
inductive Condition where
  | operand (operand : Operand)
  | comparison (left : Operand) (operator : CompareOp) (right : Operand)
  | isNull (left : Operand) (negated : Bool)
  | same (left : Operand) (negated : Bool) (right : Operand)
  | between (left : Operand) (negated : Bool) (low high : Operand)
  | oneOf (left : Operand) (negated : Bool) (values : List Expr)
  | oneOfQuery (left : Operand) (negated : Bool) (query : Select)
  | like (left : Operand) (negated : Bool) (pattern : Operand)
  | likeEscape (left : Operand) (negated : Bool) (pattern escape : Operand)
  | regexp (left : Operand) (negated : Bool) (pattern : Operand)
  | existence (query : Select)
  | negation (inner : Condition)

/-- Sums joined by `||`. -/
inductive Operand where
  | single (sum : Sum)
  | concat (left : Operand) (right : Sum)

/-- Products joined by `+` and `-`. -/
inductive Sum where
  | single (product : Product)
  | add (left : Sum) (operator : AddOp) (right : Product)

/-- Terms joined by `*`, `/` and `%`. -/
inductive Product where
  | single (term : Term)
  | mul (left : Product) (operator : MulOp) (right : Term)

/-- The innermost layer. -/
inductive Term where
  | path (path : Path)
  | literal (value : Literal)
  | parameter (parameter : NamedParameter)
  | placeholder (placeholder : Placeholder)
  | paren (inner : Expr)
  | subquery (query : Select)
  | case (operand : Option Expr) (branches : List Branch) (otherwise : Option Expr)
  | cast (inner : Expr) (target : ColumnType)
  | call (function : String) (distinct : Bool) (arguments : List Expr)
  | callStar (function : String)
  | signed (negative : Bool) (inner : Term)

/-- One `WHEN condition THEN result` of a `CASE`. -/
structure Branch where
  condition : Expr
  result : Expr

/-- A query: tables defined up front, a chain of bodies, and an order and a limit that apply to all
bodies together. -/
structure Select where
  recursive : Bool
  tables : List CommonTable
  bodies : Bodies
  orderBy : List OrderTerm
  limit : Limit
  span : Span

/-- A table defined by a query. -/
structure CommonTable where
  name : String
  columns : List String
  query : Select

/-- Bodies of queries joined by set operators. -/
inductive Bodies where
  | single (body : Body)
  | compound (left : Bodies) (operator : SetOperator) (right : Body)

/-- One body of a query. -/
inductive Body where
  | select (distinct : Bool) (columns : List ResultColumn) (source : Option JoinClause)
    (condition : Option Expr) (groupBy : List Expr) (having : Option Expr)
  | values (rows : List (List Expr))

/-- An entry of the list of results. -/
inductive ResultColumn where
  | star
  | tableStar (table : String)
  | expr (expr : Expr) (asName : Option String)

/-- Sources joined to each other. -/
inductive JoinClause where
  | single (source : Source)
  | join (left : JoinClause) (operator : JoinOperator) (right : Source)
    (constraint : JoinConstraint)

/-- The condition of a join. -/
inductive JoinConstraint where
  | none
  | on (condition : Expr)
  | using (columns : List String)

/-- Where rows come from. -/
inductive Source where
  | table (name : QualifiedName) (asName : Option String)
  | subquery (query : Select) (asName : Option String)
  | nested (clause : JoinClause)

/-- One key of a sort. -/
structure OrderTerm where
  key : Expr
  direction : Direction
  nulls : Option NullPlacement

/-- How many rows are wanted, and how many are skipped before them. -/
inductive Limit where
  | none
  | first (count : Expr)
  | window (count offset : Expr)

end

end SqlKit
