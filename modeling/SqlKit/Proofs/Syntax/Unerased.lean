import SqlKit.Proofs.Syntax.Erasure

/-!
# Trees of which nothing is erased

Where everything counts, trees have the same form only if they are the same
(`Statement.eq_of_like_nothing`).
-/

namespace SqlKit

@[simp] theorem Erasure.name_nothing : Erasure.nothing.name = id := rfl

@[simp] theorem Erasure.span_nothing : Erasure.nothing.span = id := rfl

@[simp] theorem QualifiedName.erase_nothing (x : QualifiedName) : x.erase .nothing = x := by
  simp [QualifiedName.erase]

/-! ## Expressions and queries -/

mutual

theorem Expr.erase_nothing : ∀ x : Expr, x.erase .nothing = x
  | .single c => by rw [Expr.erase, c.erase_nothing]
  | .or left right => by rw [Expr.erase, left.erase_nothing, right.erase_nothing]

theorem Conjunction.erase_nothing : ∀ x : Conjunction, x.erase .nothing = x
  | .single c => by rw [Conjunction.erase, c.erase_nothing]
  | .and left right => by rw [Conjunction.erase, left.erase_nothing, right.erase_nothing]

theorem Condition.erase_nothing : ∀ x : Condition, x.erase .nothing = x
  | .operand o => by rw [Condition.erase, o.erase_nothing]
  | .comparison left _ right => by
    rw [Condition.erase, left.erase_nothing, right.erase_nothing]
  | .isNull left _ => by rw [Condition.erase, left.erase_nothing]
  | .same left _ right => by rw [Condition.erase, left.erase_nothing, right.erase_nothing]
  | .between left _ low high => by
    rw [Condition.erase, left.erase_nothing, low.erase_nothing, high.erase_nothing]
  | .oneOf left _ values => by
    rw [Condition.erase, left.erase_nothing, Expr.eraseAll_nothing values]
  | .oneOfQuery left _ query => by
    rw [Condition.erase, left.erase_nothing, query.erase_nothing]
  | .like left _ pattern => by rw [Condition.erase, left.erase_nothing, pattern.erase_nothing]
  | .likeEscape left _ pattern escape => by
    rw [Condition.erase, left.erase_nothing, pattern.erase_nothing, escape.erase_nothing]
  | .regexp left _ pattern => by rw [Condition.erase, left.erase_nothing, pattern.erase_nothing]
  | .existence query => by rw [Condition.erase, query.erase_nothing]
  | .negation inner => by rw [Condition.erase, inner.erase_nothing]

theorem Operand.erase_nothing : ∀ x : Operand, x.erase .nothing = x
  | .single x => by rw [Operand.erase, x.erase_nothing]
  | .concat left right => by rw [Operand.erase, left.erase_nothing, right.erase_nothing]

theorem Sum.erase_nothing : ∀ x : Sum, x.erase .nothing = x
  | .single x => by rw [Sum.erase, x.erase_nothing]
  | .add left _ right => by rw [Sum.erase, left.erase_nothing, right.erase_nothing]

theorem Product.erase_nothing : ∀ x : Product, x.erase .nothing = x
  | .single x => by rw [Product.erase, x.erase_nothing]
  | .mul left _ right => by rw [Product.erase, left.erase_nothing, right.erase_nothing]

theorem Term.erase_nothing : ∀ x : Term, x.erase .nothing = x
  | .path path => by simp [Term.erase, Path.erase]
  | .literal _ => rfl
  | .parameter _ => rfl
  | .placeholder _ => rfl
  | .paren inner => by rw [Term.erase, inner.erase_nothing]
  | .subquery query => by rw [Term.erase, query.erase_nothing]
  | .case operand branches otherwise => by
    rw [Term.erase, Expr.eraseOption_nothing operand, Branch.eraseAll_nothing branches,
      Expr.eraseOption_nothing otherwise]
  | .cast inner target => by rw [Term.erase, inner.erase_nothing]; rfl
  | .call _ _ arguments => by rw [Term.erase, Expr.eraseAll_nothing arguments]; rfl
  | .callStar _ => rfl
  | .signed _ inner => by rw [Term.erase, inner.erase_nothing]

theorem Expr.eraseAll_nothing : ∀ xs : List Expr, Expr.eraseAll .nothing xs = xs
  | [] => rfl
  | x :: xs => by rw [Expr.eraseAll, x.erase_nothing, Expr.eraseAll_nothing xs]

theorem Expr.eraseOption_nothing : ∀ x : Option Expr, Expr.eraseOption .nothing x = x
  | none => rfl
  | some x => by rw [Expr.eraseOption, x.erase_nothing]

theorem Branch.eraseAll_nothing : ∀ xs : List Branch, Branch.eraseAll .nothing xs = xs
  | [] => rfl
  | ⟨condition, result⟩ :: branches => by
    rw [Branch.eraseAll, condition.erase_nothing, result.erase_nothing,
      Branch.eraseAll_nothing branches]

theorem Select.erase_nothing : ∀ x : Select, x.erase .nothing = x
  | ⟨_, tables, bodies, orderBy, limit, _⟩ => by
    rw [Select.erase, CommonTable.eraseAll_nothing tables, bodies.erase_nothing,
      OrderTerm.eraseAll_nothing orderBy, limit.erase_nothing]
    rfl

theorem CommonTable.eraseAll_nothing :
    ∀ xs : List CommonTable, CommonTable.eraseAll .nothing xs = xs
  | [] => rfl
  | ⟨_, columns, query⟩ :: tables => by
    rw [CommonTable.eraseAll, query.erase_nothing, CommonTable.eraseAll_nothing tables]
    simp

theorem Bodies.erase_nothing : ∀ x : Bodies, x.erase .nothing = x
  | .single body => by rw [Bodies.erase, body.erase_nothing]
  | .compound left _ right => by rw [Bodies.erase, left.erase_nothing, right.erase_nothing]

theorem Body.erase_nothing : ∀ x : Body, x.erase .nothing = x
  | .select _ columns source condition groupBy having => by
    rw [Body.erase, ResultColumn.eraseAll_nothing columns, JoinClause.eraseOption_nothing source,
      Expr.eraseOption_nothing condition, Expr.eraseAll_nothing groupBy,
      Expr.eraseOption_nothing having]
  | .values rows => by rw [Body.erase, Expr.eraseRows_nothing rows]

theorem Expr.eraseRows_nothing : ∀ rows : List (List Expr), Expr.eraseRows .nothing rows = rows
  | [] => rfl
  | row :: rows => by rw [Expr.eraseRows, Expr.eraseAll_nothing row, Expr.eraseRows_nothing rows]

theorem ResultColumn.erase_nothing : ∀ x : ResultColumn, x.erase .nothing = x
  | .star => rfl
  | .tableStar _ => rfl
  | .expr value asName => by
    rw [ResultColumn.erase, value.erase_nothing]
    simp

theorem ResultColumn.eraseAll_nothing :
    ∀ xs : List ResultColumn, ResultColumn.eraseAll .nothing xs = xs
  | [] => rfl
  | column :: columns => by
    rw [ResultColumn.eraseAll, column.erase_nothing, ResultColumn.eraseAll_nothing columns]

theorem JoinClause.eraseOption_nothing :
    ∀ x : Option JoinClause, JoinClause.eraseOption .nothing x = x
  | none => rfl
  | some clause => by rw [JoinClause.eraseOption, clause.erase_nothing]

theorem JoinClause.erase_nothing : ∀ x : JoinClause, x.erase .nothing = x
  | .single source => by rw [JoinClause.erase, source.erase_nothing]
  | .join left _ right constraint => by
    rw [JoinClause.erase, left.erase_nothing, right.erase_nothing, constraint.erase_nothing]

theorem JoinConstraint.erase_nothing : ∀ x : JoinConstraint, x.erase .nothing = x
  | .none => rfl
  | .on condition => by rw [JoinConstraint.erase, condition.erase_nothing]
  | .using columns => by simp [JoinConstraint.erase]

theorem Source.erase_nothing : ∀ x : Source, x.erase .nothing = x
  | .table name asName => by simp [Source.erase]
  | .subquery query asName => by
    rw [Source.erase, query.erase_nothing]
    simp
  | .nested clause => by rw [Source.erase, clause.erase_nothing]

theorem OrderTerm.eraseAll_nothing :
    ∀ xs : List OrderTerm, OrderTerm.eraseAll .nothing xs = xs
  | [] => rfl
  | ⟨key, _, _⟩ :: terms => by
    rw [OrderTerm.eraseAll, key.erase_nothing, OrderTerm.eraseAll_nothing terms]

theorem Limit.erase_nothing : ∀ x : Limit, x.erase .nothing = x
  | .none => rfl
  | .first count => by rw [Limit.erase, count.erase_nothing]
  | .window count offset => by rw [Limit.erase, count.erase_nothing, offset.erase_nothing]

end

/-! ## Other statements -/

@[simp] theorem Expr.map_erase_nothing (x : Option Expr) : x.map (Expr.erase .nothing) = x := by
  cases x with
  | none => rfl
  | some x => rw [Option.map_some, x.erase_nothing]

@[simp] theorem Term.map_erase_nothing (x : Option Term) : x.map (Term.erase .nothing) = x := by
  cases x with
  | none => rfl
  | some x => rw [Option.map_some, x.erase_nothing]

@[simp] theorem ColumnDefinition.erase_nothing (x : ColumnDefinition) : x.erase .nothing = x := by
  simp [ColumnDefinition.erase, ColumnType.erase]

@[simp] theorem Constraint.erase_nothing (x : Constraint) : x.erase .nothing = x := by
  obtain ⟨name, demand, span⟩ := x
  cases demand <;> simp [Constraint.erase, Demand.erase, Reference.erase]

@[simp] theorem CreateTable.erase_nothing (x : CreateTable) : x.erase .nothing = x := by
  have hElement : TableElement.erase .nothing = id := by
    funext element
    cases element <;> simp [TableElement.erase]
  simp [CreateTable.erase, hElement]

@[simp] theorem ColumnChange.erase_nothing (x : ColumnChange) : x.erase .nothing = x := by
  cases x <;> simp [ColumnChange.erase, Term.erase_nothing]

@[simp] theorem AlterTable.erase_nothing (x : AlterTable) : x.erase .nothing = x := by
  obtain ⟨table, action, span⟩ := x
  cases action <;> simp [AlterTable.erase, AlterAction.erase]

@[simp] theorem DropTable.erase_nothing (x : DropTable) : x.erase .nothing = x := by
  have hName : QualifiedName.erase .nothing = id := funext QualifiedName.erase_nothing
  simp [DropTable.erase, hName]

@[simp] theorem Insert.erase_nothing (x : Insert) : x.erase .nothing = x := by
  have hSource : x.source.erase .nothing = x.source := by
    cases x.source with
    | values rows => rw [InsertSource.erase, Expr.eraseRows_nothing]
    | query query => rw [InsertSource.erase, query.erase_nothing]
    | defaultValues => rfl
  simp [Insert.erase, hSource]

@[simp] theorem Update.erase_nothing (x : Update) : x.erase .nothing = x := by
  have hAssignment : Assignment.erase .nothing = id := by
    funext assignment
    simp [Assignment.erase, Expr.erase_nothing]
  simp [Update.erase, hAssignment]

@[simp] theorem Delete.erase_nothing (x : Delete) : x.erase .nothing = x := by
  simp [Delete.erase]

/-- A statement of which nothing is erased stays as it is. -/
theorem Statement.erase_nothing (x : Statement) : x.erase .nothing = x := by
  cases x <;> simp [Statement.erase, Select.erase_nothing]

/-- Statements that are alike up to nothing are the same. -/
theorem Statement.eq_of_like_nothing {a b : Statement} (h : Like .nothing a b) : a = b := by
  have hErase : a.erase .nothing = b.erase .nothing := h
  rwa [a.erase_nothing, b.erase_nothing] at hErase

end SqlKit
