import SqlKit.Syntax.Render
import SqlKit.Syntax.Statement

/-!
# Outlines

An outline shows a statement as a tree of labels. Every node may carry the role that it plays in the
node above. What adds nothing is left out: a chain with a single entry, a pair of parentheses and a
condition without a test all have the outline of what they hold.

`Outline.walk` lists the nodes of an outline with their depths, from a stack of nodes still to be
visited; `Outline.preorder` says by recursion what that list is. `Outline.lines` writes one line for
each node.
-/

namespace SqlKit

/-- A tree of labels; each node has the role that it plays in the node above, if it has one. -/
inductive Outline where
  | node (role : Option String) (label : String) (children : List Outline)
  deriving Inhabited

namespace Outline

/-- The node without its children, at a depth below the root. -/
structure Visit where
  depth : Nat
  role : Option String
  label : String
  deriving Repr, DecidableEq, Inhabited

/-- The same tree in another role. -/
def withRole (role : String) : Outline → Outline
  | node _ label children => node (some role) label children

/-- A node without a role. -/
def plain (label : String) (children : List Outline) : Outline := node none label children

mutual

/-- The number of nodes. -/
def size : Outline → Nat
  | node _ _ children => sizeAll children + 1

/-- The number of nodes of several trees. -/
def sizeAll : List Outline → Nat
  | [] => 0
  | tree :: trees => tree.size + sizeAll trees

end

mutual

/-- The nodes of a tree whose root stands at a depth: the root, and then its children one level
below it, from left to right. -/
def preorder (depth : Nat) : Outline → List Visit
  | node role label children => ⟨depth, role, label⟩ :: preorderAll (depth + 1) children

/-- The nodes of several trees whose roots stand at one depth. -/
def preorderAll (depth : Nat) : List Outline → List Visit
  | [] => []
  | tree :: trees => tree.preorder depth ++ preorderAll depth trees

end

/-- The number of nodes still to be visited. -/
def pending : List (Nat × Outline) → Nat
  | [] => 0
  | (_, tree) :: stack => tree.size + pending stack

/-- Puts trees on a stack, all at one depth, the first one on top. -/
def push (depth : Nat) (children : List Outline) (stack : List (Nat × Outline)) :
    List (Nat × Outline) :=
  children.map (fun child => (depth, child)) ++ stack

theorem pending_push (depth : Nat) (children : List Outline) (stack : List (Nat × Outline)) :
    pending (push depth children stack) = sizeAll children + pending stack := by
  induction children with
  | nil => simp [push, sizeAll]
  | cons child children ih =>
    simp only [push, pending, List.map_cons, List.cons_append, sizeAll] at ih ⊢
    omega

/-- Visits the tree on top of the stack, puts its children on the stack in its place, and goes
on. -/
def visit : List (Nat × Outline) → List Visit
  | [] => []
  | (depth, node role label children) :: stack =>
    ⟨depth, role, label⟩ :: visit (push (depth + 1) children stack)
termination_by stack => pending stack
decreasing_by
  rw [pending_push]
  simp only [pending, size]
  omega

/-- The nodes of a tree with their depths, each node before its children. -/
def walk (tree : Outline) : List Visit := visit [(0, tree)]

/-- A node as a line: two blanks for each level of depth, and the role before the label. -/
def Visit.line (v : Visit) : String :=
  String.ofList (List.replicate (2 * v.depth) ' ') ++ (v.role.map (· ++ ": ")).getD "" ++ v.label

/-- The outline as text, a line for each node. -/
def lines (tree : Outline) : String := String.join (tree.walk.map fun v => v.line ++ "\n")

end Outline

/-! ## Expressions and queries -/

/-- The words after a label that stand for columns in parentheses. -/
def columnsLabel (columns : List String) : String :=
  if columns.isEmpty then "" else "(" ++ commaSeparated columns ++ ")"

namespace Outline

/-- A tree in a role, or nothing. -/
def optional (role : String) (tree : Option Outline) : List Outline :=
  (tree.map (withRole role)).toList

end Outline

/-- The operators of a sum from left to right. -/
def Sum.operators : Sum → List AddOp
  | .single _ => []
  | .add left operator _ => left.operators ++ [operator]

/-- The operators of a product from left to right. -/
def Product.operators : Product → List MulOp
  | .single _ => []
  | .mul left operator _ => left.operators ++ [operator]

/-- The label of a join: its operator, and the columns of `USING`. -/
def JoinConstraint.label (operator : JoinOperator) : JoinConstraint → String
  | .using columns => operator.sql ++ " USING (" ++ commaSeparated columns ++ ")"
  | .none | .on _ => operator.sql

mutual

def Expr.outline : Expr → Outline
  | .single conjunction => conjunction.outline
  | .or left right => .plain "OR" (left.outlines ++ [right.outline])

/-- The outlines of the conjunctions of an expression. -/
def Expr.outlines : Expr → List Outline
  | .single conjunction => [conjunction.outline]
  | .or left right => left.outlines ++ [right.outline]

def Conjunction.outline : Conjunction → Outline
  | .single condition => condition.outline
  | .and left right => .plain "AND" (left.outlines ++ [right.outline])

/-- The outlines of the conditions of a conjunction. -/
def Conjunction.outlines : Conjunction → List Outline
  | .single condition => [condition.outline]
  | .and left right => left.outlines ++ [right.outline]

def Condition.outline : Condition → Outline
  | .operand operand => operand.outline
  | .comparison left operator right => .plain operator.sql [left.outline, right.outline]
  | .isNull left negated => .plain (if negated then "IS NOT NULL" else "IS NULL") [left.outline]
  | .same left negated right =>
    .plain (if negated then "IS NOT" else "IS") [left.outline, right.outline]
  | .between left negated low high =>
    .plain (negatable negated "BETWEEN")
      [left.outline, low.outline.withRole "low", high.outline.withRole "high"]
  | .oneOf left negated values =>
    .plain (negatable negated "IN") (left.outline :: Expr.outlineAll values)
  | .oneOfQuery left negated query => .plain (negatable negated "IN") [left.outline, query.outline]
  | .like left negated pattern =>
    .plain (negatable negated "LIKE") [left.outline, pattern.outline]
  | .likeEscape left negated pattern escape =>
    .plain (negatable negated "LIKE")
      [left.outline, pattern.outline, escape.outline.withRole "escape"]
  | .regexp left negated pattern =>
    .plain (negatable negated "REGEXP") [left.outline, pattern.outline]
  | .existence query => .plain "EXISTS" [query.outline]
  | .negation inner => .plain "NOT" [inner.outline]

def Operand.outline : Operand → Outline
  | .single sum => sum.outline
  | .concat left right => .plain "||" (left.outlines ++ [right.outline])

/-- The outlines of the sums of an operand. -/
def Operand.outlines : Operand → List Outline
  | .single sum => [sum.outline]
  | .concat left right => left.outlines ++ [right.outline]

def Sum.outline : Sum → Outline
  | .single product => product.outline
  | .add left operator right =>
    .plain (" ".intercalate ((left.operators ++ [operator]).map AddOp.sql))
      (left.outlines ++ [right.outline])

/-- The outlines of the products of a sum. -/
def Sum.outlines : Sum → List Outline
  | .single product => [product.outline]
  | .add left _ right => left.outlines ++ [right.outline]

def Product.outline : Product → Outline
  | .single term => term.outline
  | .mul left operator right =>
    .plain (" ".intercalate ((left.operators ++ [operator]).map MulOp.sql))
      (left.outlines ++ [right.outline])

/-- The outlines of the terms of a product. -/
def Product.outlines : Product → List Outline
  | .single term => [term.outline]
  | .mul left _ right => left.outlines ++ [right.outline]

def Term.outline : Term → Outline
  | .path path => .plain ("Path " ++ path.sql) []
  | .literal value => .plain ("Literal " ++ value.sql) []
  | .parameter parameter => .plain ("Param " ++ parameter.sql) []
  | .placeholder placeholder =>
    .plain ("Placeholder " ++ placeholder.sql ++ " #" ++ toString placeholder.position) []
  | .paren inner => inner.outline
  | .subquery query => .plain "Subquery" [query.outline]
  | .case operand branches otherwise =>
    .plain "Case" (Expr.outlineOptional "operand" operand ++ Branch.outlineAll branches ++
      Expr.outlineOptional "else" otherwise)
  | .cast inner target => .plain ("Cast AS " ++ target.sql) [inner.outline]
  | .call function distinct arguments =>
    .plain ("Function " ++ function ++ (if distinct then " DISTINCT" else ""))
      (Expr.outlineAll arguments)
  | .callStar function => .plain ("Function " ++ function ++ " (*)") []
  | .signed negative inner => .plain (if negative then "Negate" else "Plus") [inner.outline]

/-- Several expressions, none in a role. -/
def Expr.outlineAll : List Expr → List Outline
  | [] => []
  | e :: es => e.outline :: Expr.outlineAll es

/-- An expression in a role, if it is there. -/
def Expr.outlineOptional (role : String) : Option Expr → List Outline
  | none => []
  | some e => [e.outline.withRole role]

/-- Several expressions, each in the same role. -/
def Expr.outlineEach (role : String) : List Expr → List Outline
  | [] => []
  | e :: es => e.outline.withRole role :: Expr.outlineEach role es

/-- The branches of a `CASE`: condition and result in turn. -/
def Branch.outlineAll : List Branch → List Outline
  | [] => []
  | ⟨condition, result⟩ :: branches =>
    condition.outline.withRole "when" :: result.outline.withRole "then" ::
      Branch.outlineAll branches

def Select.outline : Select → Outline
  | ⟨recursive, tables, bodies, orderBy, limit, _⟩ =>
    .plain (if tables.isEmpty then "Select"
        else if recursive then "Select WITH RECURSIVE" else "Select WITH")
      (CommonTable.outlineAll tables ++ bodies.outlines ++ OrderTerm.outlineAll orderBy ++
        limit.outlines)

/-- The tables that a query defines. -/
def CommonTable.outlineAll : List CommonTable → List Outline
  | [] => []
  | ⟨name, columns, query⟩ :: tables =>
    .plain ("Cte " ++ name ++ columnsLabel columns) [query.outline] ::
      CommonTable.outlineAll tables

/-- The bodies of a query, each but the first in the role of its set operator. -/
def Bodies.outlines : Bodies → List Outline
  | .single body => [body.outline]
  | .compound left operator right => left.outlines ++ [right.outline.withRole operator.sql]

def Body.outline : Body → Outline
  | .select distinct columns source condition groupBy having =>
    .plain (if distinct then "Query DISTINCT" else "Query")
      (ResultColumn.outlineAll columns ++ JoinClause.outlineOptional source ++
        Expr.outlineOptional "where" condition ++ Expr.outlineEach "group by" groupBy ++
        Expr.outlineOptional "having" having)
  | .values rows => .plain "Values" (Expr.outlineRows rows)

/-- Rows of values. -/
def Expr.outlineRows : List (List Expr) → List Outline
  | [] => []
  | row :: rows => .plain "Row" (Expr.outlineAll row) :: Expr.outlineRows rows

def ResultColumn.outline : ResultColumn → Outline
  | .star => .plain "Column *" []
  | .tableStar table => .plain ("Column " ++ table ++ ".*") []
  | .expr expr asName => .plain ("Column" ++ renamedSql asName) [expr.outline]

/-- The columns of a result. -/
def ResultColumn.outlineAll : List ResultColumn → List Outline
  | [] => []
  | column :: columns => column.outline :: ResultColumn.outlineAll columns

/-- The sources of a body, if it has any. -/
def JoinClause.outlineOptional : Option JoinClause → List Outline
  | none => []
  | some clause => [.node (some "from") "JoinClause" clause.outlines]

/-- The sources of a clause: the first one, and the others below the operators that join them. -/
def JoinClause.outlines : JoinClause → List Outline
  | .single source => [source.outline]
  | .join left operator right constraint =>
    left.outlines ++
      [.plain (constraint.label operator) (right.outline :: constraint.outlines)]

/-- The condition of a join. Columns of `USING` stand in the label instead. -/
def JoinConstraint.outlines : JoinConstraint → List Outline
  | .none => []
  | .on condition => [condition.outline.withRole "on"]
  | .using _ => []

def Source.outline : Source → Outline
  | .table name asName => .plain ("Table " ++ name.sql ++ renamedSql asName) []
  | .subquery query asName => .plain ("Subquery" ++ renamedSql asName) [query.outline]
  | .nested clause => .plain "JoinClause" clause.outlines

/-- The keys of a sort. -/
def OrderTerm.outlineAll : List OrderTerm → List Outline
  | [] => []
  | ⟨key, direction, nulls⟩ :: terms =>
    .plain ("OrderBy " ++ direction.sql ++ ((nulls.map fun n => " " ++ n.sql).getD ""))
      [key.outline] :: OrderTerm.outlineAll terms

/-- The count and the offset, as far as they are there. -/
def Limit.outlines : Limit → List Outline
  | .none => []
  | .first count => [count.outline.withRole "limit"]
  | .window count offset => [count.outline.withRole "limit", offset.outline.withRole "offset"]

end

/-! ## Other statements -/

/-- The words for the kind of a constraint. -/
def Demand.kindName : Demand → String
  | .check _ => "CHECK"
  | .unique _ => "UNIQUE"
  | .foreignKey _ _ => "FOREIGN KEY"
  | .primaryKey false _ => "PRIMARY KEY"
  | .primaryKey true _ => "PRIMARY KEY HASH"

/-- The words for a column's attributes, in the order of their definition. -/
def ColumnDefinition.attributes (c : ColumnDefinition) : String :=
  (match c.nullability with
    | .unstated => ""
    | .null => " NULL"
    | .notNull => " NOT NULL") ++
  (match c.numbering with
    | .none => ""
    | .automatic none => " AUTO_INCREMENT"
    | .automatic (some s) =>
      " AUTO_INCREMENT(" ++ toString s.start.toInt ++ ", " ++ toString s.increment.toInt ++ ")") ++
  (if c.unique then " UNIQUE" else "") ++
  (match c.primaryKey with
    | .none => ""
    | .plain => " PRIMARY KEY"
    | .hash => " PRIMARY KEY HASH")

def ColumnDefinition.outline (c : ColumnDefinition) : Outline :=
  .plain ("Column " ++ c.name ++ " " ++ c.type.sql ++ c.attributes)
    (Outline.optional "default" (c.default.map Term.outline) ++
      Expr.outlineOptional "check" c.check)

/-- The words for what a foreign key refers to. -/
def Reference.label (r : Reference) : String :=
  " REFERENCES " ++ r.table.sql ++ columnsLabel r.columns ++
    (r.onDelete.map fun action => " ON DELETE " ++ action.sql).getD "" ++
    (r.onUpdate.map fun action => " ON UPDATE " ++ action.sql).getD ""

def Constraint.outline (c : Constraint) : Outline :=
  .plain ("Constraint" ++ (c.name.map (" " ++ ·)).getD "" ++ " " ++ c.demand.kindName ++
      (if c.demand.columns.isEmpty then "" else " " ++ columnsLabel c.demand.columns) ++
      (c.demand.reference?.map Reference.label).getD "")
    (Expr.outlineOptional "check" c.demand.condition?)

def TableElement.outline : TableElement → Outline
  | .column c => c.outline
  | .constraint c => c.outline

def CreateTable.outline (t : CreateTable) : Outline :=
  .plain ("CreateTable" ++ (if t.temporary then " TEMPORARY" else "") ++
      (if t.ifNotExists then " IF NOT EXISTS" else "") ++ " " ++ t.name.sql ++
      (if t.withoutRowid then " WITHOUT ROWID" else ""))
    (t.elements.map TableElement.outline)

/-- The words for a change of a column. -/
def ColumnChange.label : ColumnChange → String
  | .rename newName => "RENAME TO " ++ newName
  | .setDefault _ => "SET DEFAULT"
  | .dropDefault => "DROP DEFAULT"
  | .setNotNull => "SET NOT NULL"
  | .dropNotNull => "DROP NOT NULL"
  | .setNull => "SET NULL"
  | .redefine _ => "REDEFINE"

/-- What a change brings along: a value or a definition. -/
def ColumnChange.outlines : ColumnChange → List Outline
  | .setDefault value => [value.outline.withRole "default"]
  | .redefine definition => [definition.outline]
  | _ => []

def AlterAction.outline : AlterAction → Outline
  | .addColumn definition => .plain "AddColumn" [definition.outline]
  | .addConstraint constraint => .plain "AddConstraint" [constraint.outline]
  | .alterColumn column change =>
    .plain ("AlterColumn " ++ column ++ " " ++ change.label) change.outlines
  | .dropColumn column => .plain ("DropColumn " ++ column) []
  | .dropConstraint name => .plain ("DropConstraint " ++ name) []
  | .dropPrimaryKey => .plain "DropPrimaryKey" []
  | .renameTable newName => .plain ("RenameTable TO " ++ newName) []
  | .renameColumn column newName => .plain ("RenameColumn " ++ column ++ " TO " ++ newName) []

def AlterTable.outline (t : AlterTable) : Outline :=
  .plain ("AlterTable " ++ t.table.sql) [t.action.outline]

def DropTable.outline (t : DropTable) : Outline :=
  .plain ("DropTable" ++ (if t.ifExists then " IF EXISTS" else "") ++ " " ++
      commaSeparated (t.names.map QualifiedName.sql) ++
      (t.behavior.map fun behavior => " " ++ behavior.sql).getD "") []

/-- The rows or the query that are inserted. -/
def InsertSource.outlines : InsertSource → List Outline
  | .values rows => Expr.outlineRows rows
  | .query q => [q.outline]
  | .defaultValues => []

/-- The words for rows that hold default values only. -/
def InsertSource.label : InsertSource → String
  | .defaultValues => " DEFAULT VALUES"
  | .values _ | .query _ => ""

def Insert.outline (s : Insert) : Outline :=
  .plain ((if s.mode = .replace then "Replace" else "Insert") ++ " INTO " ++ s.table.sql ++
      (if s.columns.isEmpty then "" else " " ++ columnsLabel s.columns) ++ s.source.label)
    s.source.outlines

def Update.outline (s : Update) : Outline :=
  .plain ("Update " ++ s.table.sql)
    (s.assignments.map (fun a => .plain ("Set " ++ a.column) [a.value.outline]) ++
      Expr.outlineOptional "where" s.condition)

def Delete.outline (s : Delete) : Outline :=
  .plain ("Delete FROM " ++ s.table.sql) (Expr.outlineOptional "where" s.condition)

def Statement.outline : Statement → Outline
  | .createTable s => s.outline
  | .alterTable s => s.outline
  | .dropTable s => s.outline
  | .insert s => s.outline
  | .update s => s.outline
  | .delete s => s.outline
  | .select s => s.outline

end SqlKit
