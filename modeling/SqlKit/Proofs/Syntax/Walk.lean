import SqlKit.Proofs.Grammar.Placeholders
import SqlKit.Proofs.Rendering.Layout
import SqlKit.Syntax.Outline

/-!
# The walk of an outline meets all placeholders

`Outline.walk` is the preorder of an outline (`walk_eq_preorder`). The outline of a statement has a
node for each of its placeholders, in the order of its nodes, and no other label looks like that of
a placeholder: so the walk of a statement meets its placeholders in this order
(`walk_placeholders`).
-/

namespace SqlKit

/-! ## Walks -/

namespace Outline

theorem flatMap_push (depth : Nat) (children : List Outline) (stack : List (Nat × Outline)) :
    (push depth children stack).flatMap (fun entry => entry.2.preorder entry.1) =
      preorderAll depth children ++ stack.flatMap fun entry => entry.2.preorder entry.1 := by
  induction children with
  | nil => rfl
  | cons child children ih =>
    rw [preorderAll, List.append_assoc, ← ih]
    rfl

/-- What is visited from a stack are the preorders of its trees. -/
theorem visit_eq_preorder (stack : List (Nat × Outline)) :
    visit stack = stack.flatMap fun entry => entry.2.preorder entry.1 := by
  fun_induction visit stack with
  | case1 => rfl
  | case2 depth role label children stack ih =>
    rw [ih, flatMap_push, List.flatMap_cons, preorder, List.cons_append]

theorem walk_eq_preorder (tree : Outline) : tree.walk = tree.preorder 0 := by
  rw [walk, visit_eq_preorder, List.flatMap_cons, List.flatMap_nil, List.append_nil]

end Outline

/-! ## Labels -/

/-- The label of a placeholder. -/
def Placeholder.label (p : Placeholder) : String :=
  "Placeholder " ++ p.sql ++ " #" ++ toString p.position

/-- Whether a label starts as that of a placeholder does. -/
def isMarkLabel (label : String) : Bool := "Placeholder ".toList.isPrefixOf label.toList

/-- Whether the node that is visited is a placeholder. -/
def Outline.Visit.isPlaceholder (v : Outline.Visit) : Bool := isMarkLabel v.label

theorem isMarkLabel_eq (label : String) :
    isMarkLabel label = "Placeholder ".toList.isPrefixOf label.toList := rfl

attribute [local simp] isMarkLabel_eq String.toList_append List.isPrefixOf_cons₂

/-- Of a label that is chosen both forms are looked at, before it is taken apart. -/
@[local simp 1100] theorem isMarkLabel_ite {c : Prop} [Decidable c] (label label' : String) :
    isMarkLabel (if c then label else label') = if c then isMarkLabel label
      else isMarkLabel label' :=
  apply_ite ..

@[local simp 1100] theorem isMarkLabel_label (p : Placeholder) : isMarkLabel p.label = true := by
  simp [Placeholder.label]

@[local simp 1100] theorem CompareOp.isMarkLabel_sql (o : CompareOp) :
    isMarkLabel o.sql = false := by
  cases o <;> simp [sql]

@[local simp 1100] theorem isMarkLabel_negatable (negated : Bool) {word : String} :
    isMarkLabel (negatable negated word) = (!negated && isMarkLabel word) := by
  cases negated <;> simp [negatable]

/-- Words with blanks between them start with the first one. -/
theorem isMarkLabel_intercalate {words : List String} (hWords : words ≠ [])
    (h : ∀ word ∈ words, ∀ rest, "Placeholder ".toList.isPrefixOf (word.toList ++ rest) = false) :
    isMarkLabel (" ".intercalate words) = false := by
  cases words with
  | nil => exact absurd rfl hWords
  | cons word words =>
    rw [isMarkLabel, toList_intercalate_cons]
    exact h word List.mem_cons_self _

@[local simp 1100] theorem isMarkLabel_addOps (os : List AddOp) (o : AddOp) :
    isMarkLabel (" ".intercalate ((os ++ [o]).map AddOp.sql)) = false := by
  refine isMarkLabel_intercalate (by simp) fun word hWord rest => ?_
  obtain ⟨o', -, rfl⟩ := List.mem_map.mp hWord
  cases o' <;> simp [AddOp.sql]

@[local simp 1100] theorem isMarkLabel_mulOps (os : List MulOp) (o : MulOp) :
    isMarkLabel (" ".intercalate ((os ++ [o]).map MulOp.sql)) = false := by
  refine isMarkLabel_intercalate (by simp) fun word hWord rest => ?_
  obtain ⟨o', -, rfl⟩ := List.mem_map.mp hWord
  cases o' <;> simp [MulOp.sql]

theorem JoinOperator.not_prefix_sql (o : JoinOperator) (rest : List Char) :
    "Placeholder ".toList.isPrefixOf (o.sql.toList ++ rest) = false := by
  obtain ⟨natural, kind, outer⟩ := o
  cases natural <;> cases kind <;> cases outer <;> simp [sql, JoinKind.word]

@[local simp 1100] theorem JoinConstraint.isMarkLabel_label (o : JoinOperator) :
    ∀ c : JoinConstraint, isMarkLabel (c.label o) = false
  | .using columns => by
    rw [isMarkLabel, label, String.toList_append, String.toList_append, String.toList_append,
      List.append_assoc, List.append_assoc]
    exact o.not_prefix_sql _
  | .none | .on _ => by
    have hAlone := o.not_prefix_sql []
    rwa [List.append_nil] at hAlone

mutual

/-- The labels of the placeholders of a tree, in preorder. -/
def Outline.marked : Outline → List String
  | .node _ label children => (if isMarkLabel label then [label] else []) ++ markedAll children

/-- The labels of the placeholders of several trees. -/
def Outline.markedAll : List Outline → List String
  | [] => []
  | tree :: trees => tree.marked ++ markedAll trees

end

open Outline

@[local simp] theorem Outline.markedAll_append (trees trees' : List Outline) :
    markedAll (trees ++ trees') = markedAll trees ++ markedAll trees' := by
  induction trees with
  | nil => rfl
  | cons tree trees ih => rw [List.cons_append, markedAll, markedAll, ih, List.append_assoc]

@[local simp] theorem Outline.marked_plain (label : String) (children : List Outline) :
    (plain label children).marked =
      (if isMarkLabel label = true then [label] else []) ++ markedAll children := rfl

@[local simp] theorem Outline.marked_withRole (role : String) (tree : Outline) :
    (tree.withRole role).marked = tree.marked := by
  cases tree
  rfl

mutual

/-- These are the labels of the placeholders that a preorder meets. -/
theorem Outline.labels_preorder (depth : Nat) : ∀ tree : Outline,
    ((tree.preorder depth).filter Visit.isPlaceholder).map (·.label) = tree.marked
  | .node role label children => by
    rw [preorder, List.filter_cons, marked, Visit.isPlaceholder]
    split
    · rw [List.map_cons, labels_preorderAll]
      rfl
    · exact labels_preorderAll (depth + 1) children

theorem Outline.labels_preorderAll (depth : Nat) : ∀ trees : List Outline,
    ((preorderAll depth trees).filter Visit.isPlaceholder).map (·.label) = markedAll trees
  | [] => rfl
  | tree :: trees => by
    rw [preorderAll, List.filter_append, List.map_append, labels_preorder, labels_preorderAll,
      markedAll]

end

/-! ## Outlines of queries -/

/-- The labels of the placeholders among some nodes. -/
def markLabels (ns : List Node) : List String := (placeholdersOf ns).map Placeholder.label

@[simp] theorem markLabels_nil : markLabels [] = [] := rfl

@[simp] theorem markLabels_append (ns ms : List Node) :
    markLabels (ns ++ ms) = markLabels ns ++ markLabels ms := by simp [markLabels]

@[simp] theorem markLabels_cons (n : Node) (ns : List Node) :
    markLabels (n :: ns) = (n.placeholder?.map Placeholder.label).toList ++ markLabels ns := by
  cases h : n.placeholder? <;> simp [markLabels, h]

attribute [local simp] Node.placeholder? Outline.marked Outline.markedAll

mutual

theorem Expr.marked_outline : ∀ e : Expr, e.outline.marked = markLabels e.nodes
  | .single conjunction => by simp [Expr.outline, Expr.nodes, conjunction.marked_outline]
  | .or left right => by
    simp [Expr.outline, Expr.nodes, left.marked_outlines, right.marked_outline]

theorem Expr.marked_outlines : ∀ e : Expr, markedAll e.outlines = markLabels e.nodes
  | .single conjunction => by simp [Expr.outlines, Expr.nodes, conjunction.marked_outline]
  | .or left right => by
    simp [Expr.outlines, Expr.nodes, left.marked_outlines, right.marked_outline]

theorem Conjunction.marked_outline : ∀ c : Conjunction, c.outline.marked = markLabels c.nodes
  | .single condition => by simp [Conjunction.outline, Conjunction.nodes, condition.marked_outline]
  | .and left right => by
    simp [Conjunction.outline, Conjunction.nodes, left.marked_outlines, right.marked_outline]

theorem Conjunction.marked_outlines : ∀ c : Conjunction, markedAll c.outlines = markLabels c.nodes
  | .single condition => by simp [Conjunction.outlines, Conjunction.nodes, condition.marked_outline]
  | .and left right => by
    simp [Conjunction.outlines, Conjunction.nodes, left.marked_outlines, right.marked_outline]

theorem Condition.marked_outline : ∀ c : Condition, c.outline.marked = markLabels c.nodes
  | .operand operand => by simp [Condition.outline, Condition.nodes, operand.marked_outline]
  | .comparison left operator right => by
    simp [Condition.outline, Condition.nodes, left.marked_outline, right.marked_outline]
  | .isNull left negated => by simp [Condition.outline, Condition.nodes, left.marked_outline]
  | .same left negated right => by
    simp [Condition.outline, Condition.nodes, left.marked_outline, right.marked_outline]
  | .between left negated low high => by
    simp [Condition.outline, Condition.nodes, left.marked_outline, low.marked_outline,
      high.marked_outline]
  | .oneOf left negated values => by
    simp [Condition.outline, Condition.nodes, left.marked_outline, Expr.marked_outlineAll values]
  | .oneOfQuery left negated query => by
    simp [Condition.outline, Condition.nodes, left.marked_outline, query.marked_outline]
  | .like left negated pattern => by
    simp [Condition.outline, Condition.nodes, left.marked_outline, pattern.marked_outline]
  | .likeEscape left negated pattern escape => by
    simp [Condition.outline, Condition.nodes, left.marked_outline, pattern.marked_outline,
      escape.marked_outline]
  | .regexp left negated pattern => by
    simp [Condition.outline, Condition.nodes, left.marked_outline, pattern.marked_outline]
  | .existence query => by simp [Condition.outline, Condition.nodes, query.marked_outline]
  | .negation inner => by simp [Condition.outline, Condition.nodes, inner.marked_outline]

theorem Operand.marked_outline : ∀ o : Operand, o.outline.marked = markLabels o.nodes
  | .single sum => by simp [Operand.outline, Operand.nodes, sum.marked_outline]
  | .concat left right => by
    simp [Operand.outline, Operand.nodes, left.marked_outlines, right.marked_outline]

theorem Operand.marked_outlines : ∀ o : Operand, markedAll o.outlines = markLabels o.nodes
  | .single sum => by simp [Operand.outlines, Operand.nodes, sum.marked_outline]
  | .concat left right => by
    simp [Operand.outlines, Operand.nodes, left.marked_outlines, right.marked_outline]

theorem Sum.marked_outline : ∀ s : Sum, s.outline.marked = markLabels s.nodes
  | .single product => by simp [Sum.outline, Sum.nodes, product.marked_outline]
  | .add left operator right => by
    rw [Sum.outline, Sum.nodes, marked_plain, isMarkLabel_addOps]
    simp [left.marked_outlines, right.marked_outline]

theorem Sum.marked_outlines : ∀ s : Sum, markedAll s.outlines = markLabels s.nodes
  | .single product => by simp [Sum.outlines, Sum.nodes, product.marked_outline]
  | .add left operator right => by
    simp [Sum.outlines, Sum.nodes, left.marked_outlines, right.marked_outline]

theorem Product.marked_outline : ∀ p : Product, p.outline.marked = markLabels p.nodes
  | .single term => by simp [Product.outline, Product.nodes, term.marked_outline]
  | .mul left operator right => by
    rw [Product.outline, Product.nodes, marked_plain, isMarkLabel_mulOps]
    simp [left.marked_outlines, right.marked_outline]

theorem Product.marked_outlines : ∀ p : Product, markedAll p.outlines = markLabels p.nodes
  | .single term => by simp [Product.outlines, Product.nodes, term.marked_outline]
  | .mul left operator right => by
    simp [Product.outlines, Product.nodes, left.marked_outlines, right.marked_outline]

theorem Term.marked_outline : ∀ t : Term, t.outline.marked = markLabels t.nodes
  | .path path => by simp [Term.outline, Term.nodes]
  | .literal value => by simp [Term.outline, Term.nodes]
  | .parameter parameter => by simp [Term.outline, Term.nodes]
  | .placeholder placeholder => by
    rw [Term.outline, marked_plain, ← Placeholder.label, if_pos (isMarkLabel_label placeholder)]
    simp [Term.nodes]
  | .paren inner => by simp [Term.outline, Term.nodes, inner.marked_outline]
  | .subquery query => by simp [Term.outline, Term.nodes, query.marked_outline]
  | .case operand branches otherwise => by
    simp [Term.outline, Term.nodes, Expr.marked_outlineOptional, Branch.marked_outlineAll branches]
  | .cast inner target => by simp [Term.outline, Term.nodes, inner.marked_outline]
  | .call function distinct arguments => by
    simp [Term.outline, Term.nodes, Expr.marked_outlineAll arguments]
  | .callStar function => by simp [Term.outline, Term.nodes]
  | .signed negative inner => by simp [Term.outline, Term.nodes, inner.marked_outline]

theorem Expr.marked_outlineAll : ∀ es : List Expr,
    markedAll (Expr.outlineAll es) = markLabels (Expr.nodesAll es)
  | [] => by simp [Expr.outlineAll, Expr.nodesAll]
  | e :: es => by simp [Expr.outlineAll, Expr.nodesAll, e.marked_outline, Expr.marked_outlineAll es]

theorem Expr.marked_outlineOptional (role : String) : ∀ e : Option Expr,
    markedAll (Expr.outlineOptional role e) = markLabels (Expr.nodesOption e)
  | none => by simp [Expr.outlineOptional, Expr.nodesOption]
  | some e => by simp [Expr.outlineOptional, Expr.nodesOption, e.marked_outline]

theorem Expr.marked_outlineEach (role : String) : ∀ es : List Expr,
    markedAll (Expr.outlineEach role es) = markLabels (Expr.nodesAll es)
  | [] => by simp [Expr.outlineEach, Expr.nodesAll]
  | e :: es => by
    simp [Expr.outlineEach, Expr.nodesAll, e.marked_outline, Expr.marked_outlineEach role es]

theorem Branch.marked_outlineAll : ∀ branches : List Branch,
    markedAll (Branch.outlineAll branches) = markLabels (Branch.nodesAll branches)
  | [] => by simp [Branch.outlineAll, Branch.nodesAll]
  | ⟨condition, result⟩ :: branches => by
    simp [Branch.outlineAll, Branch.nodesAll, condition.marked_outline, result.marked_outline,
      Branch.marked_outlineAll branches]

theorem Select.marked_outline : ∀ q : Select, q.outline.marked = markLabels q.nodes
  | ⟨recursive, tables, bodies, orderBy, limit, _⟩ => by
    simp [Select.outline, Select.nodes, CommonTable.marked_outlineAll tables,
      bodies.marked_outlines, OrderTerm.marked_outlineAll orderBy, limit.marked_outlines]

theorem CommonTable.marked_outlineAll : ∀ tables : List CommonTable,
    markedAll (CommonTable.outlineAll tables) = markLabels (CommonTable.nodesAll tables)
  | [] => by simp [CommonTable.outlineAll, CommonTable.nodesAll]
  | ⟨name, columns, query⟩ :: tables => by
    simp [CommonTable.outlineAll, CommonTable.nodesAll, query.marked_outline,
      CommonTable.marked_outlineAll tables]

theorem Bodies.marked_outlines : ∀ b : Bodies, markedAll b.outlines = markLabels b.nodes
  | .single body => by simp [Bodies.outlines, Bodies.nodes, body.marked_outline]
  | .compound left operator right => by
    simp [Bodies.outlines, Bodies.nodes, left.marked_outlines, right.marked_outline]

theorem Body.marked_outline : ∀ b : Body, b.outline.marked = markLabels b.nodes
  | .select distinct columns source condition groupBy having => by
    simp [Body.outline, Body.nodes, ResultColumn.marked_outlineAll columns,
      JoinClause.marked_outlineOptional source, Expr.marked_outlineOptional,
      Expr.marked_outlineEach _ groupBy]
  | .values rows => by simp [Body.outline, Body.nodes, Expr.marked_outlineRows rows]

theorem Expr.marked_outlineRows : ∀ rows : List (List Expr),
    markedAll (Expr.outlineRows rows) = markLabels (Expr.nodesRows rows)
  | [] => by simp [Expr.outlineRows, Expr.nodesRows]
  | row :: rows => by
    simp [Expr.outlineRows, Expr.nodesRows, Expr.marked_outlineAll row,
      Expr.marked_outlineRows rows]

theorem ResultColumn.marked_outline : ∀ c : ResultColumn, c.outline.marked = markLabels c.nodes
  | .star => by simp [ResultColumn.outline, ResultColumn.nodes]
  | .tableStar table => by simp [ResultColumn.outline, ResultColumn.nodes]
  | .expr expr asName => by simp [ResultColumn.outline, ResultColumn.nodes, expr.marked_outline]

theorem ResultColumn.marked_outlineAll : ∀ columns : List ResultColumn,
    markedAll (ResultColumn.outlineAll columns) = markLabels (ResultColumn.nodesAll columns)
  | [] => by simp [ResultColumn.outlineAll, ResultColumn.nodesAll]
  | column :: columns => by
    simp [ResultColumn.outlineAll, ResultColumn.nodesAll, column.marked_outline,
      ResultColumn.marked_outlineAll columns]

theorem JoinClause.marked_outlineOptional : ∀ clause : Option JoinClause,
    markedAll (JoinClause.outlineOptional clause) = markLabels (JoinClause.nodesOption clause)
  | none => by simp [JoinClause.outlineOptional, JoinClause.nodesOption]
  | some clause => by
    simp [JoinClause.outlineOptional, JoinClause.nodesOption, clause.marked_outlines]

theorem JoinClause.marked_outlines : ∀ c : JoinClause, markedAll c.outlines = markLabels c.nodes
  | .single source => by simp [JoinClause.outlines, JoinClause.nodes, source.marked_outline]
  | .join left operator right constraint => by
    simp [JoinClause.outlines, JoinClause.nodes, left.marked_outlines, right.marked_outline,
      constraint.marked_outlines]

theorem JoinConstraint.marked_outlines : ∀ c : JoinConstraint,
    markedAll c.outlines = markLabels c.nodes
  | .none => by simp [JoinConstraint.outlines, JoinConstraint.nodes]
  | .on condition => by
    simp [JoinConstraint.outlines, JoinConstraint.nodes, condition.marked_outline]
  | .using columns => by simp [JoinConstraint.outlines, JoinConstraint.nodes]

theorem Source.marked_outline : ∀ s : Source, s.outline.marked = markLabels s.nodes
  | .table name asName => by simp [Source.outline, Source.nodes]
  | .subquery query asName => by simp [Source.outline, Source.nodes, query.marked_outline]
  | .nested clause => by simp [Source.outline, Source.nodes, clause.marked_outlines]

theorem OrderTerm.marked_outlineAll : ∀ terms : List OrderTerm,
    markedAll (OrderTerm.outlineAll terms) = markLabels (OrderTerm.nodesAll terms)
  | [] => by simp [OrderTerm.outlineAll, OrderTerm.nodesAll]
  | ⟨key, direction, nulls⟩ :: terms => by
    simp [OrderTerm.outlineAll, OrderTerm.nodesAll, key.marked_outline,
      OrderTerm.marked_outlineAll terms]

theorem Limit.marked_outlines : ∀ l : Limit, markedAll l.outlines = markLabels l.nodes
  | .none => by simp [Limit.outlines, Limit.nodes]
  | .first count => by simp [Limit.outlines, Limit.nodes, count.marked_outline]
  | .window count offset => by
    simp [Limit.outlines, Limit.nodes, count.marked_outline, offset.marked_outline]

end

/-! ## Outlines of statements -/

theorem marked_optional {α : Type} {outline : α → Outline} {nodes : α → List Node}
    (h : ∀ x, (outline x).marked = markLabels (nodes x)) (role : String) (x : Option α) :
    markedAll (Outline.optional role (x.map outline)) = markLabels (nodesOption nodes x) := by
  cases x with
  | none => rfl
  | some x => simp [Outline.optional, nodesOption, h]

theorem markedAll_map {α : Type} {outline : α → Outline} {nodes : α → List Node}
    (h : ∀ x, (outline x).marked = markLabels (nodes x)) (xs : List α) :
    markedAll (xs.map outline) = markLabels (xs.flatMap nodes) := by
  induction xs with
  | nil => rfl
  | cons x xs ih => simp [h, ih]

theorem ColumnDefinition.marked_outline (c : ColumnDefinition) :
    c.outline.marked = markLabels c.nodes := by
  simp [outline, nodes, marked_optional Term.marked_outline, Expr.marked_outlineOptional,
    Expr.nodesOption_eq]

theorem Constraint.marked_outline (c : Constraint) :
    c.outline.marked = markLabels c.demand.nodes := by
  have hCondition : Expr.nodesOption c.demand.condition? = c.demand.nodes := by
    rw [Expr.nodesOption_eq]
    cases c.demand <;> rfl
  simp [outline, Expr.marked_outlineOptional, hCondition]

theorem TableElement.marked_outline : ∀ e : TableElement, e.outline.marked = markLabels e.nodes
  | .column c => c.marked_outline
  | .constraint c => c.marked_outline

theorem ColumnChange.marked_outlines (c : ColumnChange) :
    markedAll c.outlines = markLabels c.nodes := by
  cases c <;> simp [outlines, nodes, Term.marked_outline, ColumnDefinition.marked_outline]

theorem AlterAction.marked_outline (a : AlterAction) : a.outline.marked = markLabels a.nodes := by
  cases a <;> simp [outline, nodes, ColumnDefinition.marked_outline, Constraint.marked_outline,
    ColumnChange.marked_outlines]

theorem InsertSource.marked_outlines (s : InsertSource) :
    markedAll s.outlines = markLabels s.nodes := by
  cases s <;>
    simp [outlines, nodes, Expr.marked_outlineRows, Expr.nodesRows_eq, Select.marked_outline]

theorem Update.marked_outline (u : Update) : u.outline.marked = markLabels u.nodes := by
  have hAssignments : markedAll (u.assignments.map fun a =>
      .plain ("Set " ++ a.column) [a.value.outline]) =
        markLabels (u.assignments.flatMap fun a => a.value.nodes) :=
    markedAll_map (fun a => by simp [Expr.marked_outline]) _
  simp [outline, nodes, hAssignments, Expr.marked_outlineOptional, Expr.nodesOption_eq]

theorem Statement.marked_outline (x : Statement) : x.outline.marked = markLabels x.nodes := by
  cases x with
  | createTable s =>
    simp [outline, nodes, CreateTable.outline, markedAll_map TableElement.marked_outline]
  | alterTable s => simp [outline, nodes, AlterTable.outline, AlterAction.marked_outline]
  | dropTable s => simp [outline, nodes, DropTable.outline]
  | insert s =>
    by_cases hMode : s.mode = .replace <;>
      simp [outline, nodes, Insert.outline, InsertSource.marked_outlines, hMode]
  | update s => exact s.marked_outline
  | delete s =>
    simp [outline, nodes, Delete.outline, Expr.marked_outlineOptional, Expr.nodesOption_eq]
  | select s => exact s.marked_outline

/-- The walk of a statement meets its placeholders, in the order of its nodes, and no other label
looks like one of theirs. -/
theorem Statement.walk_placeholders (x : Statement) :
    (x.outline.walk.filter Visit.isPlaceholder).map (·.label) =
      (placeholdersOf x.nodes).map Placeholder.label := by
  rw [walk_eq_preorder, labels_preorder, marked_outline]
  rfl

end SqlKit
