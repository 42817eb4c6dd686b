import SqlKit.Proofs.Rendering.Nodes
import SqlKit.Syntax.Statement

/-!
# The parameters of a statement

`Statement.nodes` lists the nodes of a statement of any kind, as `Select.nodes` does for a query,
and `Statement.parameters` are the parameters with a name among them.
-/

namespace SqlKit

/-! ## Nodes of lists -/

theorem Expr.nodesAll_eq (es : List Expr) : Expr.nodesAll es = es.flatMap Expr.nodes := by
  induction es with
  | nil => rfl
  | cons e es ih => rw [Expr.nodesAll, ih, List.flatMap_cons]

theorem Expr.nodesRows_eq (rows : List (List Expr)) :
    Expr.nodesRows rows = rows.flatMap (List.flatMap Expr.nodes) := by
  induction rows with
  | nil => rfl
  | cons row rows ih => rw [Expr.nodesRows, ih, Expr.nodesAll_eq, List.flatMap_cons]

/-- The nodes of a branch of a `CASE`. -/
def Branch.nodes (b : Branch) : List Node := b.condition.nodes ++ b.result.nodes

theorem Branch.nodesAll_eq (branches : List Branch) :
    Branch.nodesAll branches = branches.flatMap Branch.nodes := by
  induction branches with
  | nil => rfl
  | cons b branches ih =>
    obtain ⟨condition, result⟩ := b
    rw [Branch.nodesAll, ih, List.flatMap_cons, Branch.nodes]

theorem CommonTable.nodesAll_eq (tables : List CommonTable) :
    CommonTable.nodesAll tables = tables.flatMap fun t => t.query.nodes := by
  induction tables with
  | nil => rfl
  | cons t tables ih =>
    obtain ⟨name, columns, query⟩ := t
    rw [CommonTable.nodesAll, ih, List.flatMap_cons]

theorem ResultColumn.nodesAll_eq (columns : List ResultColumn) :
    ResultColumn.nodesAll columns = columns.flatMap ResultColumn.nodes := by
  induction columns with
  | nil => rfl
  | cons c columns ih => rw [ResultColumn.nodesAll, ih, List.flatMap_cons]

theorem OrderTerm.nodesAll_eq (terms : List OrderTerm) :
    OrderTerm.nodesAll terms = terms.flatMap fun t => t.key.nodes := by
  induction terms with
  | nil => rfl
  | cons t terms ih =>
    obtain ⟨key, direction, nulls⟩ := t
    rw [OrderTerm.nodesAll, ih, List.flatMap_cons]

/-! ## Statements -/

/-- The nodes of a part that may be missing. -/
def nodesOption {α : Type} (nodes : α → List Node) : Option α → List Node
  | some x => nodes x
  | none => []

theorem Expr.nodesOption_eq (e : Option Expr) :
    Expr.nodesOption e = SqlKit.nodesOption Expr.nodes e := by
  cases e <;> rfl

theorem JoinClause.nodesOption_eq (clause : Option JoinClause) :
    JoinClause.nodesOption clause = SqlKit.nodesOption JoinClause.nodes clause := by
  cases clause <;> rfl

def ColumnDefinition.nodes (c : ColumnDefinition) : List Node :=
  nodesOption Term.nodes c.default ++ nodesOption Expr.nodes c.check

def Demand.nodes : Demand → List Node
  | .check condition => nodesOption Expr.nodes condition
  | .unique _ | .foreignKey _ _ | .primaryKey _ _ => []

def TableElement.nodes : TableElement → List Node
  | .column definition => definition.nodes
  | .constraint c => c.demand.nodes

def ColumnChange.nodes : ColumnChange → List Node
  | .setDefault value => value.nodes
  | .redefine definition => definition.nodes
  | .rename _ | .dropDefault | .setNotNull | .dropNotNull | .setNull => []

def AlterAction.nodes : AlterAction → List Node
  | .addColumn definition => definition.nodes
  | .addConstraint constraint => constraint.demand.nodes
  | .alterColumn _ change => change.nodes
  | .dropColumn _ | .dropConstraint _ | .dropPrimaryKey | .renameTable _ | .renameColumn _ _ => []

def InsertSource.nodes : InsertSource → List Node
  | .values rows => rows.flatMap (List.flatMap Expr.nodes)
  | .query q => q.nodes
  | .defaultValues => []

def Update.nodes (u : Update) : List Node :=
  u.assignments.flatMap (fun a => a.value.nodes) ++ nodesOption Expr.nodes u.condition

/-- The nodes of a statement. -/
def Statement.nodes : Statement → List Node
  | .createTable s => s.elements.flatMap TableElement.nodes
  | .alterTable s => s.action.nodes
  | .dropTable _ => []
  | .insert s => s.source.nodes
  | .update s => s.nodes
  | .delete s => nodesOption Expr.nodes s.condition
  | .select s => s.nodes

/-! ## Parameters -/

/-- The parameter with a name that a node is, if it is one. -/
def Node.parameter? : Node → Option NamedParameter
  | .term (.parameter p) => some p
  | _ => none

/-- The parameters with a name among some nodes. -/
def parametersOf (ns : List Node) : List NamedParameter := ns.filterMap Node.parameter?

@[simp] theorem parametersOf_nil : parametersOf [] = [] := rfl

@[simp] theorem parametersOf_append (ns ms : List Node) :
    parametersOf (ns ++ ms) = parametersOf ns ++ parametersOf ms := List.filterMap_append

@[simp] theorem parametersOf_cons (n : Node) (ns : List Node) :
    parametersOf (n :: ns) = n.parameter?.toList ++ parametersOf ns := by
  cases h : n.parameter? with
  | none => exact List.filterMap_cons_none h
  | some p => exact List.filterMap_cons_some h

/-- All parameters with a name in a statement. -/
def Statement.parameters (s : Statement) : List NamedParameter := parametersOf s.nodes

end SqlKit
