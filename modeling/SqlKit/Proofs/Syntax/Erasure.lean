import SqlKit.Syntax.Statement
import Mathlib.Tactic.Common

/-!
# Trees up to what does not count

An `Erasure` says which differences between two trees count for nothing: it sends names and spans to
the forms in which they are compared. `Like e a b` says that two trees, names or lists of them have
the same form. With `Erasure.spans` trees are equal up to the places they were read from.

Erasing goes through the whole tree, and leaves literals, operators and the shape of the tree alone.
-/

namespace SqlKit

/-- The forms in which names and spans are compared. -/
structure Erasure where
  name : String → String
  span : Span → Span

/-- Names count as they are, spans not at all. -/
def Erasure.spans : Erasure := ⟨id, fun _ => .atStart⟩

/-- Everything counts. -/
def Erasure.nothing : Erasure := ⟨id, id⟩

/-- Things that names and spans can be erased in. -/
class Erasable (α : Type) where
  erase : Erasure → α → α

/-- Two things that are equal once names and spans are erased. -/
def Like (e : Erasure) {α : Type} [Erasable α] (a b : α) : Prop :=
  Erasable.erase e a = Erasable.erase e b

instance : Erasable String := ⟨Erasure.name⟩

instance : Erasable Span := ⟨Erasure.span⟩

instance {α : Type} [Erasable α] : Erasable (Option α) := ⟨fun e => Option.map (Erasable.erase e)⟩

instance {α : Type} [Erasable α] : Erasable (List α) := ⟨fun e => List.map (Erasable.erase e)⟩

instance {α β : Type} [Erasable α] [Erasable β] : Erasable (α × β) :=
  ⟨fun e => Prod.map (Erasable.erase e) (Erasable.erase e)⟩

instance : Erasable Bool := ⟨fun _ => id⟩

instance : Erasable Unit := ⟨fun _ => id⟩

instance : Erasable MulOp := ⟨fun _ => id⟩

instance : Erasable AddOp := ⟨fun _ => id⟩

instance : Erasable SetOperator := ⟨fun _ => id⟩

theorem Like.cons {e : Erasure} {α : Type} [Erasable α] {a b : α} {as bs : List α}
    (h : Like e a b) (h' : Like e as bs) : Like e (a :: as) (b :: bs) :=
  List.cons_eq_cons.mpr ⟨h, h'⟩

theorem Like.append {e : Erasure} {α : Type} [Erasable α] {as bs cs ds : List α}
    (h : Like e as bs) (h' : Like e cs ds) : Like e (as ++ cs) (bs ++ ds) := by
  simp only [Like, Erasable.erase, List.map_append] at *
  rw [h, h']

theorem Like.some {e : Erasure} {α : Type} [Erasable α] {a b : α} (h : Like e a b) :
    Like e (some a) (some b) := congrArg Option.some h

/-! ## Leaves -/

def QualifiedName.erase (e : Erasure) (q : QualifiedName) : QualifiedName :=
  ⟨q.schema.map e.name, e.name q.name⟩

def Path.erase (e : Erasure) (p : Path) : Path := ⟨e.name p.first, p.rest.map e.name⟩

def ColumnType.erase (e : Erasure) (t : ColumnType) : ColumnType := { t with name := e.name t.name }

def NamedParameter.erase (e : Erasure) (p : NamedParameter) : NamedParameter :=
  { p with name := e.name p.name, typeName := e.name p.typeName, span := e.span p.span }

instance : Erasable QualifiedName := ⟨QualifiedName.erase⟩

instance : Erasable Path := ⟨Path.erase⟩

instance : Erasable ColumnType := ⟨ColumnType.erase⟩

instance : Erasable NamedParameter := ⟨NamedParameter.erase⟩

/-! ## Expressions and queries -/

mutual

def Expr.erase (e : Erasure) : Expr → Expr
  | .single conjunction => .single (conjunction.erase e)
  | .or left right => .or (left.erase e) (right.erase e)

def Conjunction.erase (e : Erasure) : Conjunction → Conjunction
  | .single condition => .single (condition.erase e)
  | .and left right => .and (left.erase e) (right.erase e)

def Condition.erase (e : Erasure) : Condition → Condition
  | .operand operand => .operand (operand.erase e)
  | .comparison left operator right => .comparison (left.erase e) operator (right.erase e)
  | .isNull left negated => .isNull (left.erase e) negated
  | .same left negated right => .same (left.erase e) negated (right.erase e)
  | .between left negated low high => .between (left.erase e) negated (low.erase e) (high.erase e)
  | .oneOf left negated values => .oneOf (left.erase e) negated (Expr.eraseAll e values)
  | .oneOfQuery left negated query => .oneOfQuery (left.erase e) negated (query.erase e)
  | .like left negated pattern => .like (left.erase e) negated (pattern.erase e)
  | .likeEscape left negated pattern escape =>
    .likeEscape (left.erase e) negated (pattern.erase e) (escape.erase e)
  | .regexp left negated pattern => .regexp (left.erase e) negated (pattern.erase e)
  | .existence query => .existence (query.erase e)
  | .negation inner => .negation (inner.erase e)

def Operand.erase (e : Erasure) : Operand → Operand
  | .single sum => .single (sum.erase e)
  | .concat left right => .concat (left.erase e) (right.erase e)

def Sum.erase (e : Erasure) : Sum → Sum
  | .single product => .single (product.erase e)
  | .add left operator right => .add (left.erase e) operator (right.erase e)

def Product.erase (e : Erasure) : Product → Product
  | .single term => .single (term.erase e)
  | .mul left operator right => .mul (left.erase e) operator (right.erase e)

def Term.erase (e : Erasure) : Term → Term
  | .path path => .path (path.erase e)
  | .literal value => .literal value
  | .parameter parameter => .parameter (parameter.erase e)
  | .placeholder placeholder => .placeholder placeholder
  | .paren inner => .paren (inner.erase e)
  | .subquery query => .subquery (query.erase e)
  | .case operand branches otherwise =>
    .case (Expr.eraseOption e operand) (Branch.eraseAll e branches) (Expr.eraseOption e otherwise)
  | .cast inner target => .cast (inner.erase e) (target.erase e)
  | .call function distinct arguments =>
    .call (e.name function) distinct (Expr.eraseAll e arguments)
  | .callStar function => .callStar (e.name function)
  | .signed negative inner => .signed negative (inner.erase e)

/-- Erases in several expressions. -/
def Expr.eraseAll (e : Erasure) : List Expr → List Expr
  | [] => []
  | x :: xs => x.erase e :: Expr.eraseAll e xs

/-- Erases in an expression, if it is there. -/
def Expr.eraseOption (e : Erasure) : Option Expr → Option Expr
  | none => none
  | some x => some (x.erase e)

/-- Erases in the branches of a `CASE`. -/
def Branch.eraseAll (e : Erasure) : List Branch → List Branch
  | [] => []
  | ⟨condition, result⟩ :: branches =>
    ⟨condition.erase e, result.erase e⟩ :: Branch.eraseAll e branches

def Select.erase (e : Erasure) : Select → Select
  | ⟨recursive, tables, bodies, orderBy, limit, span⟩ =>
    ⟨recursive, CommonTable.eraseAll e tables, bodies.erase e, OrderTerm.eraseAll e orderBy,
      limit.erase e, e.span span⟩

/-- Erases in the tables that a query defines. -/
def CommonTable.eraseAll (e : Erasure) : List CommonTable → List CommonTable
  | [] => []
  | ⟨name, columns, query⟩ :: tables =>
    ⟨e.name name, columns.map e.name, query.erase e⟩ :: CommonTable.eraseAll e tables

def Bodies.erase (e : Erasure) : Bodies → Bodies
  | .single body => .single (body.erase e)
  | .compound left operator right => .compound (left.erase e) operator (right.erase e)

def Body.erase (e : Erasure) : Body → Body
  | .select distinct columns source condition groupBy having =>
    .select distinct (ResultColumn.eraseAll e columns) (JoinClause.eraseOption e source)
      (Expr.eraseOption e condition) (Expr.eraseAll e groupBy) (Expr.eraseOption e having)
  | .values rows => .values (Expr.eraseRows e rows)

/-- Erases in rows of values. -/
def Expr.eraseRows (e : Erasure) : List (List Expr) → List (List Expr)
  | [] => []
  | row :: rows => Expr.eraseAll e row :: Expr.eraseRows e rows

def ResultColumn.erase (e : Erasure) : ResultColumn → ResultColumn
  | .star => .star
  | .tableStar table => .tableStar (e.name table)
  | .expr value asName => .expr (value.erase e) (asName.map e.name)

/-- Erases in the columns of a result. -/
def ResultColumn.eraseAll (e : Erasure) : List ResultColumn → List ResultColumn
  | [] => []
  | column :: columns => column.erase e :: ResultColumn.eraseAll e columns

/-- Erases in a clause, if it is there. -/
def JoinClause.eraseOption (e : Erasure) : Option JoinClause → Option JoinClause
  | none => none
  | some clause => some (clause.erase e)

def JoinClause.erase (e : Erasure) : JoinClause → JoinClause
  | .single source => .single (source.erase e)
  | .join left operator right constraint =>
    .join (left.erase e) operator (right.erase e) (constraint.erase e)

def JoinConstraint.erase (e : Erasure) : JoinConstraint → JoinConstraint
  | .none => .none
  | .on condition => .on (condition.erase e)
  | .using columns => .using (columns.map e.name)

def Source.erase (e : Erasure) : Source → Source
  | .table name asName => .table (name.erase e) (asName.map e.name)
  | .subquery query asName => .subquery (query.erase e) (asName.map e.name)
  | .nested clause => .nested (clause.erase e)

/-- Erases in the keys of a sort. -/
def OrderTerm.eraseAll (e : Erasure) : List OrderTerm → List OrderTerm
  | [] => []
  | ⟨key, direction, nulls⟩ :: terms =>
    ⟨key.erase e, direction, nulls⟩ :: OrderTerm.eraseAll e terms

def Limit.erase (e : Erasure) : Limit → Limit
  | .none => .none
  | .first count => .first (count.erase e)
  | .window count offset => .window (count.erase e) (offset.erase e)

end

@[simp] theorem Expr.eraseAll_eq_map (e : Erasure) (xs : List Expr) :
    Expr.eraseAll e xs = xs.map (Expr.erase e) := by
  induction xs with
  | nil => rfl
  | cons x xs ih => rw [Expr.eraseAll, ih, List.map_cons]

@[simp] theorem Expr.eraseOption_eq_map (e : Erasure) (x : Option Expr) :
    Expr.eraseOption e x = x.map (Expr.erase e) := by
  cases x <;> rfl

@[simp] theorem Expr.eraseRows_eq_map (e : Erasure) (rows : List (List Expr)) :
    Expr.eraseRows e rows = rows.map (List.map (Expr.erase e)) := by
  induction rows with
  | nil => rfl
  | cons row rows ih => rw [Expr.eraseRows, ih, Expr.eraseAll_eq_map, List.map_cons]

@[simp] theorem JoinClause.eraseOption_eq_map (e : Erasure) (x : Option JoinClause) :
    JoinClause.eraseOption e x = x.map (JoinClause.erase e) := by
  cases x <;> rfl

@[simp] theorem ResultColumn.eraseAll_eq_map (e : Erasure) (xs : List ResultColumn) :
    ResultColumn.eraseAll e xs = xs.map (ResultColumn.erase e) := by
  induction xs with
  | nil => rfl
  | cons x xs ih => rw [ResultColumn.eraseAll, ih, List.map_cons]

def Branch.erase (e : Erasure) (b : Branch) : Branch := ⟨b.condition.erase e, b.result.erase e⟩

def CommonTable.erase (e : Erasure) (t : CommonTable) : CommonTable :=
  ⟨e.name t.name, t.columns.map e.name, t.query.erase e⟩

def OrderTerm.erase (e : Erasure) (t : OrderTerm) : OrderTerm :=
  ⟨t.key.erase e, t.direction, t.nulls⟩

@[simp] theorem Branch.eraseAll_eq_map (e : Erasure) (xs : List Branch) :
    Branch.eraseAll e xs = xs.map (Branch.erase e) := by
  induction xs with
  | nil => rfl
  | cons x xs ih =>
    cases x
    rw [Branch.eraseAll, ih, List.map_cons, Branch.erase]

@[simp] theorem CommonTable.eraseAll_eq_map (e : Erasure) (xs : List CommonTable) :
    CommonTable.eraseAll e xs = xs.map (CommonTable.erase e) := by
  induction xs with
  | nil => rfl
  | cons x xs ih =>
    cases x
    rw [CommonTable.eraseAll, ih, List.map_cons, CommonTable.erase]

@[simp] theorem OrderTerm.eraseAll_eq_map (e : Erasure) (xs : List OrderTerm) :
    OrderTerm.eraseAll e xs = xs.map (OrderTerm.erase e) := by
  induction xs with
  | nil => rfl
  | cons x xs ih =>
    cases x
    rw [OrderTerm.eraseAll, ih, List.map_cons, OrderTerm.erase]

instance : Erasable Expr := ⟨Expr.erase⟩

instance : Erasable Conjunction := ⟨Conjunction.erase⟩

instance : Erasable Condition := ⟨Condition.erase⟩

instance : Erasable Operand := ⟨Operand.erase⟩

instance : Erasable Sum := ⟨Sum.erase⟩

instance : Erasable Product := ⟨Product.erase⟩

instance : Erasable Term := ⟨Term.erase⟩

instance : Erasable Branch := ⟨Branch.erase⟩

instance : Erasable Select := ⟨Select.erase⟩

instance : Erasable CommonTable := ⟨CommonTable.erase⟩

instance : Erasable Bodies := ⟨Bodies.erase⟩

instance : Erasable Body := ⟨Body.erase⟩

instance : Erasable ResultColumn := ⟨ResultColumn.erase⟩

instance : Erasable JoinClause := ⟨JoinClause.erase⟩

instance : Erasable JoinConstraint := ⟨JoinConstraint.erase⟩

instance : Erasable Source := ⟨Source.erase⟩

instance : Erasable OrderTerm := ⟨OrderTerm.erase⟩

instance : Erasable Limit := ⟨Limit.erase⟩

theorem Like.paren {e : Erasure} {a b : Expr} (h : Like e a b) :
    Like e (Term.paren a) (Term.paren b) := by
  simp_all [Like, Erasable.erase, Term.erase]

theorem Like.subquery {e : Erasure} {a b : Select} (h : Like e a b) :
    Like e (Term.subquery a) (Term.subquery b) := by
  simp_all [Like, Erasable.erase, Term.erase]

theorem Like.negation {e : Erasure} {a b : Condition} (h : Like e a b) :
    Like e (Condition.negation a) (Condition.negation b) := by
  simp_all [Like, Erasable.erase, Condition.erase]

/-! ## Other statements -/

def ColumnDefinition.erase (e : Erasure) (c : ColumnDefinition) : ColumnDefinition :=
  { c with name := e.name c.name, type := c.type.erase e, default := c.default.map (Term.erase e),
           check := c.check.map (Expr.erase e), span := e.span c.span }

def Reference.erase (e : Erasure) (r : Reference) : Reference :=
  { r with table := r.table.erase e, columns := r.columns.map e.name }

def Demand.erase (e : Erasure) : Demand → Demand
  | .check condition => .check (condition.map (Expr.erase e))
  | .unique columns => .unique (columns.map e.name)
  | .foreignKey columns reference => .foreignKey (columns.map e.name) (reference.erase e)
  | .primaryKey hash columns => .primaryKey hash (columns.map e.name)

def Constraint.erase (e : Erasure) (c : Constraint) : Constraint :=
  ⟨c.name.map e.name, c.demand.erase e, e.span c.span⟩

def TableElement.erase (e : Erasure) : TableElement → TableElement
  | .column definition => .column (definition.erase e)
  | .constraint c => .constraint (c.erase e)

def CreateTable.erase (e : Erasure) (t : CreateTable) : CreateTable :=
  { t with name := t.name.erase e, elements := t.elements.map (TableElement.erase e),
           span := e.span t.span }

def ColumnChange.erase (e : Erasure) : ColumnChange → ColumnChange
  | .rename newName => .rename (e.name newName)
  | .setDefault value => .setDefault (value.erase e)
  | .redefine definition => .redefine (definition.erase e)
  | .dropDefault => .dropDefault
  | .setNotNull => .setNotNull
  | .dropNotNull => .dropNotNull
  | .setNull => .setNull

def AlterAction.erase (e : Erasure) : AlterAction → AlterAction
  | .addColumn definition => .addColumn (definition.erase e)
  | .addConstraint constraint => .addConstraint (constraint.erase e)
  | .alterColumn column change => .alterColumn (e.name column) (change.erase e)
  | .dropColumn column => .dropColumn (e.name column)
  | .dropConstraint name => .dropConstraint (e.name name)
  | .dropPrimaryKey => .dropPrimaryKey
  | .renameTable newName => .renameTable (e.name newName)
  | .renameColumn column newName => .renameColumn (e.name column) (e.name newName)

def AlterTable.erase (e : Erasure) (t : AlterTable) : AlterTable :=
  ⟨t.table.erase e, t.action.erase e, e.span t.span⟩

def DropTable.erase (e : Erasure) (t : DropTable) : DropTable :=
  { t with names := t.names.map (QualifiedName.erase e), span := e.span t.span }

def InsertSource.erase (e : Erasure) : InsertSource → InsertSource
  | .values rows => .values (Expr.eraseRows e rows)
  | .query q => .query (q.erase e)
  | .defaultValues => .defaultValues

def Insert.erase (e : Erasure) (s : Insert) : Insert :=
  { s with table := s.table.erase e, columns := s.columns.map e.name, source := s.source.erase e,
           span := e.span s.span }

def Assignment.erase (e : Erasure) (a : Assignment) : Assignment :=
  ⟨e.name a.column, a.value.erase e⟩

def Update.erase (e : Erasure) (s : Update) : Update :=
  { s with table := s.table.erase e, assignments := s.assignments.map (Assignment.erase e),
           condition := s.condition.map (Expr.erase e), span := e.span s.span }

def Delete.erase (e : Erasure) (s : Delete) : Delete :=
  ⟨s.table.erase e, s.condition.map (Expr.erase e), e.span s.span⟩

def Statement.erase (e : Erasure) : Statement → Statement
  | .createTable s => .createTable (s.erase e)
  | .alterTable s => .alterTable (s.erase e)
  | .dropTable s => .dropTable (s.erase e)
  | .insert s => .insert (s.erase e)
  | .update s => .update (s.erase e)
  | .delete s => .delete (s.erase e)
  | .select s => .select (s.erase e)

instance : Erasable ColumnDefinition := ⟨ColumnDefinition.erase⟩

instance : Erasable Reference := ⟨Reference.erase⟩

instance : Erasable Demand := ⟨Demand.erase⟩

instance : Erasable Constraint := ⟨Constraint.erase⟩

instance : Erasable TableElement := ⟨TableElement.erase⟩

instance : Erasable CreateTable := ⟨CreateTable.erase⟩

instance : Erasable ColumnChange := ⟨ColumnChange.erase⟩

instance : Erasable AlterAction := ⟨AlterAction.erase⟩

instance : Erasable AlterTable := ⟨AlterTable.erase⟩

instance : Erasable DropTable := ⟨DropTable.erase⟩

instance : Erasable InsertSource := ⟨InsertSource.erase⟩

instance : Erasable Insert := ⟨Insert.erase⟩

instance : Erasable Assignment := ⟨Assignment.erase⟩

instance : Erasable Update := ⟨Update.erase⟩

instance : Erasable Delete := ⟨Delete.erase⟩

instance : Erasable Statement := ⟨Statement.erase⟩

end SqlKit
