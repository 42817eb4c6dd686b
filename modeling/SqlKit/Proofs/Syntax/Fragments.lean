import SqlKit.Syntax.View

/-!
# Fragments of a statement

`Statement.fragments` lists a statement and everything that it consists of, down to the types of
columns, where a fragment comes before those inside of it. `Fragment.Shaped` says of a single
fragment what the grammar asks of its kind: which lists hold at least one entry, and which of its
parts go together.
-/

namespace SqlKit

/-! ## Single fragments -/

/-- The term that a product starts with. -/
def Product.first : Product → Term
  | .single term => term
  | .mul left _ _ => left.first

/-- The term that a sum starts with. -/
def Sum.first : Sum → Term
  | .single product => product.first
  | .add left _ _ => left.first

/-- The term that an operand starts with. -/
def Operand.first : Operand → Term
  | .single sum => sum.first
  | .concat left _ => left.first

/-- Whether a term is nothing but a number. -/
def Term.isNumber : Term → Bool
  | .literal (.integer _) | .literal (.float _) => true
  | _ => false

/-- Behind `IS` stands no `NULL`: that would be the test for a missing value. -/
def Condition.Shaped : Condition → Prop
  | .same _ _ right => right.first ≠ .literal .null
  | _ => True

/-- A path has parts, a `CASE` has branches, a call with `DISTINCT` has arguments, and a sign in
front of a number is a part of the number. A call of `*` is a form of its own, which has no
arguments and no `DISTINCT` to begin with. -/
def Term.Shaped : Term → Prop
  | .path p => p.parts ≠ []
  | .case _ branches _ => branches ≠ []
  | .call _ distinct arguments => distinct = true → arguments ≠ []
  | .signed _ inner => inner.isNumber = false
  | _ => True

/-- A length stands only behind a type that accepts one, and a scale only behind a length. -/
structure ColumnType.Shaped (t : ColumnType) : Prop where
  length : t.length.isSome → (SqlType.ofName t.name).acceptsLength = true
  scale : t.scale.isSome → t.length.isSome

/-- There are rows, and none of them is empty. -/
def ShapedRows (rows : List (List Expr)) : Prop := rows ≠ [] ∧ ∀ row ∈ rows, row ≠ []

/-- A query has columns, or it has rows of values. -/
def Body.Shaped : Body → Prop
  | .select _ columns _ _ _ _ => columns ≠ []
  | .values rows => ShapedRows rows

/-- Only the joins that keep rows without a partner are outer joins, and no comma is natural. -/
structure JoinOperator.Shaped (o : JoinOperator) : Prop where
  outer : o.outer = true → o.kind = .left ∨ o.kind = .right ∨ o.kind = .full
  comma : o.kind = .comma → o.natural = false

/-- `USING` lists columns. -/
def JoinConstraint.Shaped : JoinConstraint → Prop
  | .using columns => columns ≠ []
  | .none | .on _ => True

/-- A column has a sequence only if it numbers its rows, and a kind of index only if it is the
primary key. That it does not say both `NULL` and `NOT NULL` is left to its type: `Nullability` is
one of them, or neither. -/
structure ColumnDefinition.Shaped (d : ColumnDefinition) : Prop where
  sequence : d.sequence.isSome → d.isNumbered = true
  hash : d.primaryKey = .hash → d.isPrimaryKey = true

theorem ColumnDefinition.shaped (d : ColumnDefinition) : d.Shaped where
  sequence h := by
    unfold isNumbered
    unfold ColumnDefinition.sequence at h
    split at h
    · next hNumbering => rw [hNumbering]; rfl
    · cases h
  hash h := by rw [isPrimaryKey, h]; rfl

/-- A constraint refers to another table exactly if it is a foreign key, and it has a condition
exactly if it is a `CHECK`, which is the one that lists no columns. -/
structure Constraint.Shaped (c : Constraint) : Prop where
  reference : c.demand.reference?.isSome ↔ ∃ columns r, c.demand = .foreignKey columns r
  condition : c.demand.condition?.isSome ↔ ∃ condition, c.demand = .check condition
  columns : c.demand.columns = [] ↔ ∃ condition, c.demand = .check condition

/-- A statement has at least one of what it is about. -/
def Statement.Shaped : Statement → Prop
  | .createTable s => s.elements ≠ []
  | .dropTable s => s.names ≠ []
  | .insert s => ∀ rows, s.source = .values rows → ShapedRows rows
  | .update s => s.assignments ≠ []
  | .alterTable _ | .delete _ | .select _ => True

/-! ## Fragments -/

/-- A part of a statement, or the statement. -/
inductive Fragment where
  | expr (expr : Expr)
  | conjunction (conjunction : Conjunction)
  | condition (condition : Condition)
  | operand (operand : Operand)
  | sum (sum : Sum)
  | product (product : Product)
  | term (term : Term)
  | type (type : ColumnType)
  | select (query : Select)
  | body (body : Body)
  | joinOperator (operator : JoinOperator)
  | joinConstraint (constraint : JoinConstraint)
  | columnDefinition (definition : ColumnDefinition)
  | constraint (constraint : Constraint)
  | statement (statement : Statement)

/-- What the grammar asks of a fragment, apart from those inside of it. Nothing is asked of the kind
of a column type, which is no part of it: `ColumnType.sqlType` finds it by the name. -/
def Fragment.Shaped : Fragment → Prop
  | .expr e => e.conjunctions ≠ []
  | .conjunction c => c.conditions ≠ []
  | .condition c => c.Shaped
  | .operand o => o.sums ≠ []
  | .sum s => s.entries ≠ []
  | .product p => p.entries ≠ []
  | .term t => t.Shaped
  | .type t => t.Shaped
  | .select q => q.recursive = true → q.tables ≠ []
  | .body b => b.Shaped
  | .joinOperator o => o.Shaped
  | .joinConstraint c => c.Shaped
  | .columnDefinition d => d.Shaped
  | .constraint c => c.Shaped
  | .statement x => x.Shaped

/-- The constant that a fragment is, if it is one. -/
@[simp] def Fragment.literal? : Fragment → Option Literal
  | .term (.literal value) => some value
  | _ => none

mutual

/-- The fragments of an expression. -/
def Expr.fragments : Expr → List Fragment
  | .single conjunction => .expr (.single conjunction) :: conjunction.fragments
  | .or left right => .expr (.or left right) :: (left.fragments ++ right.fragments)

def Conjunction.fragments : Conjunction → List Fragment
  | .single condition => .conjunction (.single condition) :: condition.fragments
  | .and left right => .conjunction (.and left right) :: (left.fragments ++ right.fragments)

def Condition.fragments : Condition → List Fragment
  | .operand operand => .condition (.operand operand) :: operand.fragments
  | .comparison left operator right =>
    .condition (.comparison left operator right) :: (left.fragments ++ right.fragments)
  | .isNull left negated => .condition (.isNull left negated) :: left.fragments
  | .same left negated right =>
    .condition (.same left negated right) :: (left.fragments ++ right.fragments)
  | .between left negated low high =>
    .condition (.between left negated low high) ::
      (left.fragments ++ (low.fragments ++ high.fragments))
  | .oneOf left negated values =>
    .condition (.oneOf left negated values) :: (left.fragments ++ Expr.fragmentsAll values)
  | .oneOfQuery left negated query =>
    .condition (.oneOfQuery left negated query) :: (left.fragments ++ query.fragments)
  | .like left negated pattern =>
    .condition (.like left negated pattern) :: (left.fragments ++ pattern.fragments)
  | .likeEscape left negated pattern escape =>
    .condition (.likeEscape left negated pattern escape) ::
      (left.fragments ++ (pattern.fragments ++ escape.fragments))
  | .regexp left negated pattern =>
    .condition (.regexp left negated pattern) :: (left.fragments ++ pattern.fragments)
  | .existence query => .condition (.existence query) :: query.fragments
  | .negation inner => .condition (.negation inner) :: inner.fragments

def Operand.fragments : Operand → List Fragment
  | .single sum => .operand (.single sum) :: sum.fragments
  | .concat left right => .operand (.concat left right) :: (left.fragments ++ right.fragments)

def Sum.fragments : Sum → List Fragment
  | .single product => .sum (.single product) :: product.fragments
  | .add left operator right =>
    .sum (.add left operator right) :: (left.fragments ++ right.fragments)

def Product.fragments : Product → List Fragment
  | .single term => .product (.single term) :: term.fragments
  | .mul left operator right =>
    .product (.mul left operator right) :: (left.fragments ++ right.fragments)

def Term.fragments : Term → List Fragment
  | .path path => [.term (.path path)]
  | .literal value => [.term (.literal value)]
  | .parameter parameter => [.term (.parameter parameter)]
  | .placeholder placeholder => [.term (.placeholder placeholder)]
  | .paren inner => .term (.paren inner) :: inner.fragments
  | .subquery query => .term (.subquery query) :: query.fragments
  | .case operand branches otherwise =>
    .term (.case operand branches otherwise) :: (Expr.fragmentsOption operand ++
      (Branch.fragmentsAll branches ++ Expr.fragmentsOption otherwise))
  | .cast inner target => .term (.cast inner target) :: .type target :: inner.fragments
  | .call function distinct arguments =>
    .term (.call function distinct arguments) :: Expr.fragmentsAll arguments
  | .callStar function => [.term (.callStar function)]
  | .signed negative inner => .term (.signed negative inner) :: inner.fragments

/-- The fragments of several expressions. -/
def Expr.fragmentsAll : List Expr → List Fragment
  | [] => []
  | e :: es => e.fragments ++ Expr.fragmentsAll es

/-- The fragments of an expression, if it is there. -/
def Expr.fragmentsOption : Option Expr → List Fragment
  | none => []
  | some e => e.fragments

/-- The fragments of the branches of a `CASE`. -/
def Branch.fragmentsAll : List Branch → List Fragment
  | [] => []
  | ⟨condition, result⟩ :: branches =>
    (condition.fragments ++ result.fragments) ++ Branch.fragmentsAll branches

/-- The fragments of a query. -/
def Select.fragments : Select → List Fragment
  | ⟨recursive, tables, bodies, orderBy, limit, span⟩ =>
    .select ⟨recursive, tables, bodies, orderBy, limit, span⟩ ::
      (CommonTable.fragmentsAll tables ++
        (bodies.fragments ++ (OrderTerm.fragmentsAll orderBy ++ limit.fragments)))

/-- The fragments of the tables that a query defines. -/
def CommonTable.fragmentsAll : List CommonTable → List Fragment
  | [] => []
  | ⟨_, _, query⟩ :: tables => query.fragments ++ CommonTable.fragmentsAll tables

def Bodies.fragments : Bodies → List Fragment
  | .single body => body.fragments
  | .compound left _ right => left.fragments ++ right.fragments

def Body.fragments : Body → List Fragment
  | .select distinct columns source condition groupBy having =>
    .body (.select distinct columns source condition groupBy having) ::
      (ResultColumn.fragmentsAll columns ++ (JoinClause.fragmentsOption source ++
        (Expr.fragmentsOption condition ++
          (Expr.fragmentsAll groupBy ++ Expr.fragmentsOption having))))
  | .values rows => .body (.values rows) :: Expr.fragmentsRows rows

/-- The fragments of rows of values. -/
def Expr.fragmentsRows : List (List Expr) → List Fragment
  | [] => []
  | row :: rows => Expr.fragmentsAll row ++ Expr.fragmentsRows rows

def ResultColumn.fragments : ResultColumn → List Fragment
  | .star => []
  | .tableStar _ => []
  | .expr expr _ => expr.fragments

/-- The fragments of the columns of a result. -/
def ResultColumn.fragmentsAll : List ResultColumn → List Fragment
  | [] => []
  | column :: columns => column.fragments ++ ResultColumn.fragmentsAll columns

/-- The fragments of a clause, if it is there. -/
def JoinClause.fragmentsOption : Option JoinClause → List Fragment
  | none => []
  | some clause => clause.fragments

def JoinClause.fragments : JoinClause → List Fragment
  | .single source => source.fragments
  | .join left operator right constraint =>
    .joinOperator operator :: (left.fragments ++ (right.fragments ++ constraint.fragments))

def JoinConstraint.fragments : JoinConstraint → List Fragment
  | .none => [.joinConstraint .none]
  | .on condition => .joinConstraint (.on condition) :: condition.fragments
  | .using columns => [.joinConstraint (.using columns)]

def Source.fragments : Source → List Fragment
  | .table _ _ => []
  | .subquery query _ => query.fragments
  | .nested clause => clause.fragments

/-- The fragments of the keys of a sort. -/
def OrderTerm.fragmentsAll : List OrderTerm → List Fragment
  | [] => []
  | ⟨key, _, _⟩ :: terms => key.fragments ++ OrderTerm.fragmentsAll terms

def Limit.fragments : Limit → List Fragment
  | .none => []
  | .first count => count.fragments
  | .window count offset => count.fragments ++ offset.fragments

end

attribute [simp] Term.fragments Condition.fragments Body.fragments

/-! ### Lists of parts -/

theorem Expr.fragmentsAll_eq (es : List Expr) :
    Expr.fragmentsAll es = es.flatMap Expr.fragments := by
  induction es with
  | nil => rfl
  | cons e es ih => rw [Expr.fragmentsAll, ih, List.flatMap_cons]

theorem Expr.fragmentsRows_eq (rows : List (List Expr)) :
    Expr.fragmentsRows rows = rows.flatMap (List.flatMap Expr.fragments) := by
  induction rows with
  | nil => rfl
  | cons row rows ih => rw [Expr.fragmentsRows, ih, Expr.fragmentsAll_eq, List.flatMap_cons]

/-- The fragments of a branch of a `CASE`. -/
def Branch.fragments (b : Branch) : List Fragment := b.condition.fragments ++ b.result.fragments

theorem Branch.fragmentsAll_eq (branches : List Branch) :
    Branch.fragmentsAll branches = branches.flatMap Branch.fragments := by
  induction branches with
  | nil => rfl
  | cons b branches ih =>
    obtain ⟨condition, result⟩ := b
    rw [Branch.fragmentsAll, ih, List.flatMap_cons, Branch.fragments]

theorem CommonTable.fragmentsAll_eq (tables : List CommonTable) :
    CommonTable.fragmentsAll tables = tables.flatMap fun t => t.query.fragments := by
  induction tables with
  | nil => rfl
  | cons t tables ih =>
    obtain ⟨name, columns, query⟩ := t
    rw [CommonTable.fragmentsAll, ih, List.flatMap_cons]

theorem ResultColumn.fragmentsAll_eq (columns : List ResultColumn) :
    ResultColumn.fragmentsAll columns = columns.flatMap ResultColumn.fragments := by
  induction columns with
  | nil => rfl
  | cons c columns ih => rw [ResultColumn.fragmentsAll, ih, List.flatMap_cons]

theorem OrderTerm.fragmentsAll_eq (terms : List OrderTerm) :
    OrderTerm.fragmentsAll terms = terms.flatMap fun t => t.key.fragments := by
  induction terms with
  | nil => rfl
  | cons t terms ih =>
    obtain ⟨key, direction, nulls⟩ := t
    rw [OrderTerm.fragmentsAll, ih, List.flatMap_cons]

/-- The fragments of a part that may be missing. -/
def fragmentsOption {α : Type} (fragments : α → List Fragment) : Option α → List Fragment
  | some x => fragments x
  | none => []

theorem Expr.fragmentsOption_eq (e : Option Expr) :
    Expr.fragmentsOption e = SqlKit.fragmentsOption Expr.fragments e := by
  cases e <;> rfl

theorem JoinClause.fragmentsOption_eq (clause : Option JoinClause) :
    JoinClause.fragmentsOption clause = SqlKit.fragmentsOption JoinClause.fragments clause := by
  cases clause <;> rfl

/-! ### Statements -/

def ColumnDefinition.fragments (d : ColumnDefinition) : List Fragment :=
  .columnDefinition d :: .type d.type ::
    (fragmentsOption Term.fragments d.default ++ fragmentsOption Expr.fragments d.check)

def Constraint.fragments (c : Constraint) : List Fragment :=
  .constraint c :: fragmentsOption Expr.fragments c.demand.condition?

def TableElement.fragments : TableElement → List Fragment
  | .column d => d.fragments
  | .constraint c => c.fragments

def ColumnChange.fragments : ColumnChange → List Fragment
  | .setDefault value => value.fragments
  | .redefine definition => definition.fragments
  | .rename _ | .dropDefault | .setNotNull | .dropNotNull | .setNull => []

def AlterAction.fragments : AlterAction → List Fragment
  | .addColumn definition => definition.fragments
  | .addConstraint constraint => constraint.fragments
  | .alterColumn _ change => change.fragments
  | .dropColumn _ | .dropConstraint _ | .dropPrimaryKey | .renameTable _ | .renameColumn _ _ => []

def InsertSource.fragments : InsertSource → List Fragment
  | .values rows => rows.flatMap (List.flatMap Expr.fragments)
  | .query q => q.fragments
  | .defaultValues => []

/-- The fragments of a statement. -/
def Statement.fragments (x : Statement) : List Fragment :=
  .statement x :: match x with
    | .createTable s => s.elements.flatMap TableElement.fragments
    | .alterTable s => s.action.fragments
    | .dropTable _ => []
    | .insert s => s.source.fragments
    | .update s =>
      s.assignments.flatMap (fun a => a.value.fragments) ++
        fragmentsOption Expr.fragments s.condition
    | .delete s => fragmentsOption Expr.fragments s.condition
    | .select s => s.fragments

/-- The constants of a statement. -/
def Statement.literals (x : Statement) : List Literal := x.fragments.filterMap Fragment.literal?

end SqlKit
