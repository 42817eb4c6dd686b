import Mathlib.Data.List.Basic
import Mathlib.Logic.Function.Iterate
import SqlKit.Proofs.Syntax.Walk
import SqlKit.Syntax.View

/-!
# The walk of a statement is its preorder

A part of a statement has other parts directly below it (`Part.children`), each of them perhaps in a
role. What adds nothing is skipped: a chain with a single entry, a pair of parentheses, a condition
without a test and a nested clause have below them what is below the part that they hold, which may
itself stand several layers further down. `Child.preorder` goes through the parts by recursion along
these edges, and `Child.round` is one round of a loop that takes them from a stack instead.

* `Part.heads`: the outline of a part has the outlines of what is below it for its children.
* `Child.size_lt_of_mem`: whatever is skipped, what is below a part has fewer lines than the part.
* `Child.iterate_round`: the loop ends after a round for each line, with the preorder.
* `Child.mem_places_iff`, `Child.pairwise_places`: every edge is followed exactly once.
-/

namespace SqlKit

/-- A statement, or a part of one that may have a line in its outline. -/
inductive Part where
  | statement (statement : Statement)
  | element (element : TableElement)
  | columnDefinition (definition : ColumnDefinition)
  | constraint (constraint : Constraint)
  | action (action : AlterAction)
  | assignment (assignment : Assignment)
  | row (values : List Expr)
  | select (query : Select)
  | commonTable (table : CommonTable)
  | body (body : Body)
  | resultColumn (column : ResultColumn)
  | joinClause (clause : JoinClause)
  | join (operator : JoinOperator) (right : Source) (constraint : JoinConstraint)
  | source (source : Source)
  | orderTerm (term : OrderTerm)
  | expr (expr : Expr)
  | conjunction (conjunction : Conjunction)
  | condition (condition : Condition)
  | operand (operand : Operand)
  | sum (sum : Sum)
  | product (product : Product)
  | term (term : Term)

/-- An edge down to a part, with the role that the part has there, if it has one. -/
structure Child where
  role : Option String
  part : Part

namespace Child

/-- An edge without a role. -/
def plain (part : Part) : Child := ⟨none, part⟩

/-- An edge with a role. -/
def inRole (role : String) (part : Part) : Child := ⟨some role, part⟩

/-- An edge with a role, or none if there is nothing below it. -/
def optional {α : Type} (role : String) (part : α → Part) (x : Option α) : List Child :=
  (x.map fun a => inRole role (part a)).toList

end Child

/-! ## What is directly below a part -/

mutual

/-- What is below an expression: its conjunctions, or what is below its only one. The other layers
of an expression are alike. -/
def Expr.children : Expr → List Child
  | .single conjunction => conjunction.children
  | .or left right => (left.conjunctions ++ [right]).map fun c => .plain (.conjunction c)

def Conjunction.children : Conjunction → List Child
  | .single condition => condition.children
  | .and left right => (left.conditions ++ [right]).map fun c => .plain (.condition c)

def Condition.children : Condition → List Child
  | .operand operand => operand.children
  | .comparison left _ right | .same left _ right | .like left _ right | .regexp left _ right =>
    [.plain (.operand left), .plain (.operand right)]
  | .isNull left _ => [.plain (.operand left)]
  | .between left _ low high =>
    [.plain (.operand left), .inRole "low" (.operand low), .inRole "high" (.operand high)]
  | .oneOf left _ values => .plain (.operand left) :: values.map fun e => .plain (.expr e)
  | .oneOfQuery left _ query => [.plain (.operand left), .plain (.select query)]
  | .likeEscape left _ pattern escape =>
    [.plain (.operand left), .plain (.operand pattern), .inRole "escape" (.operand escape)]
  | .existence query => [.plain (.select query)]
  | .negation inner => [.plain (.condition inner)]

def Operand.children : Operand → List Child
  | .single sum => sum.children
  | .concat left right => (left.sums ++ [right]).map fun s => .plain (.sum s)

def Sum.children : Sum → List Child
  | .single product => product.children
  | .add left _ right => (left.entries.map Prod.snd ++ [right]).map fun p => .plain (.product p)

def Product.children : Product → List Child
  | .single term => term.children
  | .mul left _ right => (left.entries.map Prod.snd ++ [right]).map fun t => .plain (.term t)

/-- What is below a term. Parentheses have below them what is below the expression inside. -/
def Term.children : Term → List Child
  | .path _ | .literal _ | .parameter _ | .placeholder _ | .callStar _ => []
  | .paren inner => inner.children
  | .subquery query => [.plain (.select query)]
  | .case operand branches otherwise =>
    Child.optional "operand" .expr operand ++
      branches.flatMap (fun b =>
        [.inRole "when" (.expr b.condition), .inRole "then" (.expr b.result)]) ++
      Child.optional "else" .expr otherwise
  | .cast inner _ => [.plain (.expr inner)]
  | .call _ _ arguments => arguments.map fun e => .plain (.expr e)
  | .signed _ inner => [.plain (.term inner)]

end

/-- The bodies of a query, each but the first in the role of its set operator. -/
def Bodies.children : Bodies → List Child
  | .single body => [.plain (.body body)]
  | .compound left operator right => left.children ++ [.inRole operator.sql (.body right)]

def Limit.children : Limit → List Child
  | .none => []
  | .first count => [.inRole "limit" (.expr count)]
  | .window count offset => [.inRole "limit" (.expr count), .inRole "offset" (.expr offset)]

def Select.children (q : Select) : List Child :=
  (q.tables.map fun t => .plain (.commonTable t)) ++ q.bodies.children ++
    (q.orderBy.map fun t => .plain (.orderTerm t)) ++ q.limit.children

def Body.children : Body → List Child
  | .select _ columns source condition groupBy having =>
    (columns.map fun c => .plain (.resultColumn c)) ++ Child.optional "from" .joinClause source ++
      Child.optional "where" .expr condition ++
        (groupBy.map fun e => .inRole "group by" (.expr e)) ++
      Child.optional "having" .expr having
  | .values rows => rows.map fun row => .plain (.row row)

def ResultColumn.children : ResultColumn → List Child
  | .star | .tableStar _ => []
  | .expr e _ => [.plain (.expr e)]

/-- What is below a clause: its first source, and the joins with the others. -/
def JoinClause.children : JoinClause → List Child
  | .single source => [.plain (.source source)]
  | .join left operator right constraint =>
    left.children ++ [.plain (.join operator right constraint)]

/-- What is below a join besides its source. -/
def JoinConstraint.children : JoinConstraint → List Child
  | .none | .using _ => []
  | .on condition => [.inRole "on" (.expr condition)]

/-- What is below a source. A nested clause has below it what is below the clause inside. -/
def Source.children : Source → List Child
  | .table _ _ => []
  | .subquery query _ => [.plain (.select query)]
  | .nested clause => clause.children

def ColumnDefinition.children (d : ColumnDefinition) : List Child :=
  Child.optional "default" .term d.default ++ Child.optional "check" .expr d.check

def Constraint.children (c : Constraint) : List Child :=
  Child.optional "check" .expr c.demand.condition?

def TableElement.children : TableElement → List Child
  | .column d => d.children
  | .constraint c => c.children

def AlterAction.children : AlterAction → List Child
  | .addColumn d | .alterColumn _ (.redefine d) => [.plain (.columnDefinition d)]
  | .addConstraint c => [.plain (.constraint c)]
  | .alterColumn _ (.setDefault value) => [.inRole "default" (.term value)]
  | _ => []

def InsertSource.children : InsertSource → List Child
  | .values rows => rows.map fun row => .plain (.row row)
  | .query q => [.plain (.select q)]
  | .defaultValues => []

def Statement.children : Statement → List Child
  | .createTable s => s.elements.map fun e => .plain (.element e)
  | .alterTable s => [.plain (.action s.action)]
  | .dropTable _ => []
  | .insert s => s.source.children
  | .update s =>
    (s.assignments.map fun a => .plain (.assignment a)) ++ Child.optional "where" .expr s.condition
  | .delete s => Child.optional "where" .expr s.condition
  | .select q => q.children

namespace Part

/-- What is directly below a part, from left to right. -/
def children : Part → List Child
  | statement x => x.children
  | element e => e.children
  | columnDefinition d => d.children
  | constraint c => c.children
  | action a => a.children
  | assignment a => [.plain (.expr a.value)]
  | row values => values.map fun e => .plain (.expr e)
  | select q => q.children
  | commonTable t => [.plain (.select t.query)]
  | body b => b.children
  | resultColumn c => c.children
  | joinClause c => c.children
  | join _ right c => .plain (.source right) :: c.children
  | source s => s.children
  | orderTerm t => [.plain (.expr t.key)]
  | expr e => e.children
  | conjunction c => c.children
  | condition c => c.children
  | operand o => o.children
  | sum s => s.children
  | product p => p.children
  | term t => t.children

/-- The outline that starts with the line of a part. -/
def outline : Part → Outline
  | statement x => x.outline
  | element e => e.outline
  | columnDefinition d => d.outline
  | constraint c => c.outline
  | action a => a.outline
  | assignment a => .plain ("Set " ++ a.column) [a.value.outline]
  | row values => .plain "Row" (Expr.outlineAll values)
  | select q => q.outline
  | commonTable t => .plain ("Cte " ++ t.name ++ columnsLabel t.columns) [t.query.outline]
  | body b => b.outline
  | resultColumn c => c.outline
  | joinClause c => .plain "JoinClause" c.outlines
  | join operator right c => .plain (c.label operator) (right.outline :: c.outlines)
  | source s => s.outline
  | orderTerm t =>
    .plain ("OrderBy " ++ t.direction.sql ++ ((t.nulls.map fun n => " " ++ n.sql).getD ""))
      [t.key.outline]
  | expr e => e.outline
  | conjunction c => c.outline
  | condition c => c.outline
  | operand o => o.outline
  | sum s => s.outline
  | product p => p.outline
  | term t => t.outline

end Part

/-! ## Outlines along the edges -/

/-- The label of the root. -/
def Outline.label : Outline → String
  | node _ label _ => label

/-- The label of the line that stands for a part. -/
def Part.label (p : Part) : String := p.outline.label

namespace Child

/-- The outline below an edge. -/
def outline (c : Child) : Outline :=
  match c.role with
  | none => c.part.outline
  | some role => c.part.outline.withRole role

@[simp] theorem outline_plain (p : Part) : (plain p).outline = p.outline := rfl

@[simp] theorem outline_inRole (role : String) (p : Part) :
    (inRole role p).outline = p.outline.withRole role := rfl

end Child

namespace Outline

/-- The root of a tree has no role, and below it are the outlines of some edges. -/
def Heads (tree : Outline) (cs : List Child) : Prop :=
  tree = plain tree.label (cs.map Child.outline)

theorem heads_plain {label : String} {trees : List Outline} {cs : List Child}
    (h : trees = cs.map Child.outline) : (plain label trees).Heads cs := by
  rw [h]
  rfl

end Outline

open Outline

section

attribute [local simp] Part.outline List.map_flatMap Function.comp_def

/-! ### Lists of parts -/

@[local simp] theorem map_outline_optional {α : Type} (role : String) (part : α → Part)
    (x : Option α) : (Child.optional role part x).map Child.outline =
      Outline.optional role (x.map fun a => (part a).outline) := by
  cases x <;> rfl

/-- What goes through a list entry by entry maps it. -/
theorem eq_map_of_cons {α β : Type} {f : α → β} {g : List α → List β} (hNil : g [] = [])
    (hCons : ∀ x xs, g (x :: xs) = f x :: g xs) (xs : List α) : g xs = xs.map f := by
  induction xs with
  | nil => exact hNil
  | cons x xs ih => rw [hCons, ih, List.map_cons]

@[local simp] theorem Expr.outlineAll_eq (es : List Expr) :
    Expr.outlineAll es = es.map Expr.outline :=
  eq_map_of_cons rfl (fun _ _ => rfl) es

@[local simp] theorem Expr.outlineEach_eq (role : String) (es : List Expr) :
    Expr.outlineEach role es = es.map fun e => e.outline.withRole role :=
  eq_map_of_cons rfl (fun _ _ => rfl) es

@[local simp] theorem Expr.outlineRows_eq (rows : List (List Expr)) :
    Expr.outlineRows rows = rows.map fun row => (Part.row row).outline :=
  eq_map_of_cons rfl (fun _ _ => rfl) rows

@[local simp] theorem CommonTable.outlineAll_eq (tables : List CommonTable) :
    CommonTable.outlineAll tables = tables.map fun t => (Part.commonTable t).outline :=
  eq_map_of_cons rfl (fun ⟨_, _, _⟩ _ => rfl) tables

@[local simp] theorem ResultColumn.outlineAll_eq (columns : List ResultColumn) :
    ResultColumn.outlineAll columns = columns.map ResultColumn.outline :=
  eq_map_of_cons rfl (fun _ _ => rfl) columns

@[local simp] theorem OrderTerm.outlineAll_eq (terms : List OrderTerm) :
    OrderTerm.outlineAll terms = terms.map fun t => (Part.orderTerm t).outline :=
  eq_map_of_cons rfl (fun ⟨_, _, _⟩ _ => rfl) terms

@[local simp] theorem Branch.outlineAll_eq (branches : List Branch) :
    Branch.outlineAll branches = branches.flatMap fun b =>
      [b.condition.outline.withRole "when", b.result.outline.withRole "then"] := by
  induction branches with
  | nil => rfl
  | cons b branches ih =>
    rw [List.flatMap_cons, ← ih]
    cases b
    rfl

@[local simp] theorem Expr.outlineOptional_eq (role : String) (e : Option Expr) :
    Expr.outlineOptional role e = Outline.optional role (e.map Expr.outline) := by
  cases e <;> rfl

@[local simp] theorem JoinClause.outlineOptional_eq (clause : Option JoinClause) :
    JoinClause.outlineOptional clause =
      Outline.optional "from" (clause.map fun c => (Part.joinClause c).outline) := by
  cases clause <;> rfl

/-! ### Chains -/

@[local simp] theorem Expr.outlines_eq (e : Expr) :
    e.outlines = e.conjunctions.map Conjunction.outline := by
  fun_induction Expr.conjunctions e with
  | case1 => simp [outlines]
  | case2 left right ih => simp [outlines, ih]

@[local simp] theorem Conjunction.outlines_eq (c : Conjunction) :
    c.outlines = c.conditions.map Condition.outline := by
  fun_induction Conjunction.conditions c with
  | case1 => simp [outlines]
  | case2 left right ih => simp [outlines, ih]

@[local simp] theorem Operand.outlines_eq (o : Operand) : o.outlines = o.sums.map Sum.outline := by
  fun_induction Operand.sums o with
  | case1 => simp [outlines]
  | case2 left right ih => simp [outlines, ih]

@[local simp] theorem Sum.outlines_eq (s : Sum) :
    s.outlines = s.entries.map fun entry => entry.2.outline := by
  fun_induction Sum.entries s with
  | case1 => simp [outlines]
  | case2 left operator right ih => simp [outlines, ih]

@[local simp] theorem Product.outlines_eq (p : Product) :
    p.outlines = p.entries.map fun entry => entry.2.outline := by
  fun_induction Product.entries p with
  | case1 => simp [outlines]
  | case2 left operator right ih => simp [outlines, ih]

@[local simp] theorem Bodies.outlines_eq (b : Bodies) :
    b.outlines = b.children.map Child.outline := by
  fun_induction Bodies.children b with
  | case1 => simp [outlines]
  | case2 left operator right ih => simp [outlines, ih]

@[local simp] theorem JoinClause.outlines_eq (c : JoinClause) :
    c.outlines = c.children.map Child.outline := by
  fun_induction JoinClause.children c with
  | case1 => simp [outlines]
  | case2 left operator right constraint ih => simp [outlines, ih]

@[local simp] theorem JoinConstraint.outlines_eq (c : JoinConstraint) :
    c.outlines = c.children.map Child.outline := by
  cases c <;> simp [outlines, children]

@[local simp] theorem Limit.outlines_eq (l : Limit) :
    l.outlines = l.children.map Child.outline := by
  cases l <;> simp [outlines, children]

/-! ### Layers -/

attribute [local simp] Expr.children Conjunction.children Condition.children Operand.children
  Sum.children Product.children Term.children

-- A layer that adds nothing is skipped in the outline and on the way down alike: what is said of
-- it is what is said of the layer inside.
mutual

theorem Expr.heads : ∀ e : Expr, e.outline.Heads e.children
  | .single conjunction => conjunction.heads
  | .or left right => heads_plain (by simp)

theorem Conjunction.heads : ∀ c : Conjunction, c.outline.Heads c.children
  | .single condition => condition.heads
  | .and left right => heads_plain (by simp)

theorem Condition.heads : ∀ c : Condition, c.outline.Heads c.children
  | .operand operand => operand.heads
  | .comparison _ _ _ | .isNull _ _ | .same _ _ _ | .between _ _ _ _ | .oneOf _ _ _
  | .oneOfQuery _ _ _ | .like _ _ _ | .likeEscape _ _ _ _ | .regexp _ _ _ | .existence _
  | .negation _ => heads_plain (by simp)

theorem Operand.heads : ∀ o : Operand, o.outline.Heads o.children
  | .single sum => sum.heads
  | .concat left right => heads_plain (by simp)

theorem Sum.heads : ∀ s : Sum, s.outline.Heads s.children
  | .single product => product.heads
  | .add left operator right => heads_plain (by simp)

theorem Product.heads : ∀ p : Product, p.outline.Heads p.children
  | .single term => term.heads
  | .mul left operator right => heads_plain (by simp)

theorem Term.heads : ∀ t : Term, t.outline.Heads t.children
  | .paren inner => inner.heads
  | .path _ | .literal _ | .parameter _ | .placeholder _ | .callStar _ => rfl
  | .subquery _ | .case _ _ _ | .cast _ _ | .call _ _ _ | .signed _ _ => heads_plain (by simp)

end

/-! ### The other parts -/

theorem Source.heads (s : Source) : s.outline.Heads s.children := by
  cases s with
  | table name asName => rfl
  | subquery query asName => exact heads_plain (by simp [children])
  | nested clause => exact heads_plain (by simp [children])

theorem ResultColumn.heads (c : ResultColumn) : c.outline.Heads c.children := by
  cases c with
  | star => rfl
  | tableStar table => rfl
  | expr e asName => exact heads_plain (by simp [children])

theorem Body.heads (b : Body) : b.outline.Heads b.children := by
  cases b with
  | select distinct columns source condition groupBy having =>
    exact heads_plain (by simp [children])
  | values rows => exact heads_plain (by simp [children])

theorem Select.heads (q : Select) : q.outline.Heads q.children := by
  cases q
  exact heads_plain (by simp [children])

theorem ColumnDefinition.heads (d : ColumnDefinition) : d.outline.Heads d.children :=
  heads_plain (by simp [children])

theorem Constraint.heads (c : Constraint) : c.outline.Heads c.children :=
  heads_plain (by simp [children])

theorem TableElement.heads : ∀ e : TableElement, e.outline.Heads e.children
  | .column d => d.heads
  | .constraint c => c.heads

theorem AlterAction.heads (a : AlterAction) : a.outline.Heads a.children := by
  cases a with
  | alterColumn column change => cases change <;> exact heads_plain rfl
  | _ => exact heads_plain rfl

theorem InsertSource.outlines_eq (s : InsertSource) :
    s.outlines = s.children.map Child.outline := by
  cases s <;> simp [outlines, children]

theorem Statement.heads : ∀ x : Statement, x.outline.Heads x.children
  | .createTable s => heads_plain (by simp [children, TableElement.outline])
  | .alterTable _ | .dropTable _ => rfl
  | .insert s => heads_plain s.source.outlines_eq
  | .update s => heads_plain (by simp [children])
  | .delete s => heads_plain (by simp [children])
  | .select q => q.heads

/-- The outline of a part has the outlines of the parts below it for its children. -/
theorem Part.heads : ∀ p : Part, p.outline.Heads p.children
  | statement x => x.heads
  | element e => e.heads
  | columnDefinition d => d.heads
  | constraint c => c.heads
  | action a => a.heads
  | assignment _ => rfl
  | row _ => heads_plain (by simp [children])
  | select q => q.heads
  | commonTable _ => rfl
  | body b => b.heads
  | resultColumn c => c.heads
  | joinClause c => heads_plain c.outlines_eq
  | join _ _ c => heads_plain (by simp [children])
  | source s => s.heads
  | orderTerm _ => rfl
  | expr e => e.heads
  | conjunction c => c.heads
  | condition c => c.heads
  | operand o => o.heads
  | sum s => s.heads
  | product p => p.heads
  | term t => t.heads

end

/-! ## Sizes -/

/-- The number of lines that a part has in an outline. -/
def Part.size (p : Part) : Nat := p.outline.size

namespace Outline

theorem size_withRole (role : String) (tree : Outline) : (tree.withRole role).size = tree.size := by
  cases tree
  rfl

theorem size_le_sizeAll {tree : Outline} {trees : List Outline} (h : tree ∈ trees) :
    tree.size ≤ sizeAll trees := by
  induction trees with
  | nil => cases h
  | cons first trees ih =>
    rw [sizeAll]
    rcases List.mem_cons.mp h with rfl | h
    · omega
    · have := ih h
      omega

end Outline

theorem Part.size_eq (p : Part) :
    p.size = Outline.sizeAll (p.children.map Child.outline) + 1 :=
  congrArg Outline.size p.heads

namespace Child

theorem size_outline (c : Child) : c.outline.size = c.part.size := by
  unfold outline
  split
  · rfl
  · exact Outline.size_withRole ..

/-- What is below a part has fewer lines, however many layers are skipped to reach it. -/
theorem size_lt_of_mem {p : Part} {c : Child} (h : c ∈ p.children) : c.part.size < p.size := by
  have hBelow := Outline.size_le_sizeAll (List.mem_map_of_mem (f := outline) h)
  rw [size_outline] at hBelow
  rw [p.size_eq]
  omega

/-- What holds of a part if it holds of all parts directly below it, holds of every part. -/
theorem below_induction {motive : Child → Prop}
    (h : ∀ c, (∀ d ∈ c.part.children, motive d) → motive c) (c : Child) : motive c := by
  induction hSize : c.part.size using Nat.strongRecOn generalizing c with
  | ind size ih => exact h c fun d hd => ih d.part.size (hSize ▸ size_lt_of_mem hd) d rfl

/-! ## The preorder -/

/-- The parts from an edge on, with their depths: the part below the edge, and then what is directly
below it, one level further down and from left to right. -/
def preorder (depth : Nat) (c : Child) : List (Nat × Child) :=
  (depth, c) :: c.part.children.attach.flatMap fun d => d.1.preorder (depth + 1)
termination_by c.part.size
decreasing_by exact size_lt_of_mem d.2

theorem preorder_eq (depth : Nat) (c : Child) :
    c.preorder depth = (depth, c) :: c.part.children.flatMap (preorder (depth + 1)) := by
  rw [preorder, List.flatMap_subtype (g := preorder (depth + 1)) fun _ _ => rfl,
    List.unattach_attach]

/-- What a walk shows of a part at some depth. -/
def visit (x : Nat × Child) : Outline.Visit := ⟨x.1, x.2.role, x.2.part.label⟩

theorem outline_eq (c : Child) :
    c.outline = .node c.role c.part.label (c.part.children.map outline) := by
  obtain ⟨role, part⟩ := c
  cases role with
  | none => exact part.heads
  | some role => exact congrArg (Outline.withRole role) part.heads

theorem preorderAll_map (depth : Nat) (cs : List Child) :
    Outline.preorderAll depth (cs.map outline) = cs.flatMap fun c => c.outline.preorder depth := by
  induction cs with
  | nil => rfl
  | cons c cs ih => rw [List.map_cons, Outline.preorderAll, ih, List.flatMap_cons]

/-- The preorder of an outline shows the parts in their preorder. -/
theorem map_visit_preorder (depth : Nat) (c : Child) :
    (c.preorder depth).map visit = c.outline.preorder depth := by
  induction c using below_induction generalizing depth with
  | h c ih =>
    rw [preorder_eq, List.map_cons, List.map_flatMap, outline_eq, Outline.preorder, preorderAll_map]
    exact congrArg _ (List.flatMap_congr fun d hd => ih d hd (depth + 1))

/-! ## The loop -/

/-- The number of lines that the parts on a stack have. -/
def held (stack : List (Nat × Child)) : Nat :=
  Outline.pending (stack.map fun x => (x.1, x.2.outline))

theorem held_cons (depth : Nat) (c : Child) (stack : List (Nat × Child)) :
    held ((depth, c) :: stack) = held (c.part.children.map (depth + 1, ·) ++ stack) + 1 := by
  have hPush : (c.part.children.map (depth + 1, ·) ++ stack).map (fun x => (x.1, x.2.outline)) =
      Outline.push (depth + 1) (c.part.children.map outline)
        (stack.map fun x => (x.1, x.2.outline)) := by
    rw [Outline.push, List.map_append, List.map_map, List.map_map]
    rfl
  rw [held, held, hPush, Outline.pending_push, List.map_cons, Outline.pending, size_outline,
    Part.size_eq]
  exact Nat.add_right_comm ..

/-- A round takes the part on top of the stack, adds it to those that were visited, and puts what is
directly below it on the stack, the first of them on top. -/
def round : List (Nat × Child) × List (Nat × Child) → List (Nat × Child) × List (Nat × Child)
  | ([], visited) => ([], visited)
  | ((depth, c) :: stack, visited) =>
    (c.part.children.map (depth + 1, ·) ++ stack, visited ++ [(depth, c)])

/-- After as many rounds as the parts on the stack have lines, the stack is used up, and what was
visited are the preorders of these parts. -/
theorem iterate_round (stack visited : List (Nat × Child)) :
    round^[held stack] (stack, visited) =
      ([], visited ++ stack.flatMap fun x => x.2.preorder x.1) := by
  induction hHeld : held stack generalizing stack visited with
  | zero =>
    cases stack with
    | nil => rw [List.flatMap_nil, List.append_nil]; rfl
    | cons x stack => exact absurd hHeld (held_cons x.1 x.2 stack ▸ Nat.succ_ne_zero _)
  | succ n ih =>
    cases stack with
    | nil => cases hHeld
    | cons x stack =>
      obtain ⟨depth, c⟩ := x
      rw [held_cons, Nat.add_right_cancel_iff] at hHeld
      rw [Function.iterate_succ_apply, round, ih _ _ hHeld, List.flatMap_append, List.flatMap_map,
        List.flatMap_cons, preorder_eq, List.append_assoc]
      rfl

/-! ## The places of parts -/

/-- The part at a place: a place is the list of the positions of the edges that lead to it. -/
def at? : Child → List Nat → Option Child
  | c, [] => some c
  | c, position :: place => c.part.children[position]?.bind fun d => d.at? place

/-- The places of the parts from an edge on, in the order of the preorder. -/
def places (c : Child) : List (List Nat) :=
  [] :: c.part.children.attach.zipIdx.flatMap fun x => x.1.1.places.map (x.2 :: ·)
termination_by c.part.size
decreasing_by exact size_lt_of_mem x.1.2

theorem places_eq (c : Child) : c.places =
    [] :: c.part.children.zipIdx.flatMap fun x => x.1.places.map (x.2 :: ·) := by
  have hZip :
    c.part.children.zipIdx = c.part.children.attach.zipIdx.map (Prod.map Subtype.val id) := by
    rw [← List.zipIdx_map, List.attach_map_subtype_val]
  rw [places, hZip, List.flatMap_map]
  rfl

theorem cons_mem_places {c : Child} {position : Nat} {place : List Nat} :
    position :: place ∈ c.places ↔ ∃ d ∈ c.part.children[position]?, place ∈ d.places := by
  rw [places_eq, List.mem_cons, List.mem_flatMap]
  constructor
  · rintro (h | ⟨⟨d, i⟩, hd, hPlace⟩)
    · cases h
    · obtain ⟨_, hRest, hCons⟩ := List.mem_map.mp hPlace
      obtain ⟨rfl, rfl⟩ := List.cons.inj hCons
      exact ⟨d, List.mk_mem_zipIdx_iff_getElem?.mp hd, hRest⟩
  · rintro ⟨d, hd, hPlace⟩
    exact Or.inr ⟨(d, position), List.mk_mem_zipIdx_iff_getElem?.mpr hd, List.mem_map_of_mem hPlace⟩

/-- The places are those at which there is a part. -/
theorem mem_places_iff (c : Child) (place : List Nat) :
    place ∈ c.places ↔ (c.at? place).isSome = true := by
  induction place generalizing c with
  | nil =>
    rw [places_eq, at?]
    exact iff_of_true List.mem_cons_self rfl
  | cons position place ih =>
    rw [cons_mem_places, at?]
    cases hChild : c.part.children[position]? with
    | none => simp
    | some d => simpa using ih d

/-- The places are in lexicographic order: each part comes before those below it, what is further
left comes first, and no place comes twice. -/
theorem pairwise_places (c : Child) : c.places.Pairwise (· < ·) := by
  induction c using below_induction with
  | h c ih =>
    rw [places_eq, List.pairwise_cons, List.pairwise_flatMap]
    refine ⟨fun place hPlace => ?_, fun x hx => ?_, ?_⟩
    · obtain ⟨x, -, hPlace⟩ := List.mem_flatMap.mp hPlace
      obtain ⟨rest, -, rfl⟩ := List.mem_map.mp hPlace
      exact List.nil_lt_cons ..
    · rw [List.pairwise_map]
      exact (ih x.1 (List.fst_mem_of_mem_zipIdx hx)).imp fun hLess =>
        List.cons_lt_cons_iff.mpr (Or.inr ⟨rfl, hLess⟩)
    · have hPositions : c.part.children.zipIdx.Pairwise fun x y => x.2 < y.2 := by
        rw [← List.pairwise_map (f := Prod.snd) (R := (· < ·)), List.zipIdx_map_snd]
        exact List.pairwise_lt_range' 1
      refine hPositions.imp fun hLess place hPlace other hOther => ?_
      obtain ⟨rest, -, rfl⟩ := List.mem_map.mp hPlace
      obtain ⟨rest', -, rfl⟩ := List.mem_map.mp hOther
      exact List.cons_lt_cons_iff.mpr (Or.inl hLess)

/-- The preorder has the parts at their places. -/
theorem preorder_eq_places (depth : Nat) (c : Child) :
    c.preorder depth = c.places.filterMap fun place =>
      (c.at? place).map (depth + place.length, ·) := by
  induction c using below_induction generalizing depth with
  | h c ih =>
    have hChildren : c.part.children.flatMap (preorder (depth + 1)) =
        c.part.children.zipIdx.flatMap fun x => x.1.preorder (depth + 1) := by
      rw [← List.flatMap_map (f := Prod.fst), List.zipIdx_map_fst]
    rw [preorder_eq, places_eq, List.filterMap_cons, List.filterMap_flatMap, hChildren]
    refine congrArg _ (List.flatMap_congr fun x hx => ?_)
    rw [ih x.1 (List.fst_mem_of_mem_zipIdx hx), List.filterMap_map]
    refine List.filterMap_congr fun place _ => ?_
    rw [Function.comp_apply, at?, List.mem_zipIdx_iff_getElem?.mp hx, Option.bind_some,
      List.length_cons, Nat.add_right_comm, Nat.add_assoc]

end Child

/-- **The walk is the preorder.** A loop that takes the parts of a statement or of an expression
from a stack ends after as many rounds as the part that it starts with has lines, whatever layers
are skipped on the way down. It has then visited each part with its role and its depth, and behind
each part, one level further down, what is directly below it from left to right; and this is what
the walk of the outline shows. In other words, it has visited the parts at all places in
lexicographic order, and therefore followed every edge exactly once. -/
theorem Part.walk_preorder (p : Part) :
    Child.round^[p.size] ([(0, .plain p)], []) = ([], (Child.plain p).preorder 0) ∧
      p.outline.walk = ((Child.plain p).preorder 0).map Child.visit ∧
      ∃ order : List (List Nat),
        (∀ place, place ∈ order ↔ ((Child.plain p).at? place).isSome = true) ∧
          order.Pairwise (· < ·) ∧ (Child.plain p).preorder 0 = order.filterMap fun place =>
            ((Child.plain p).at? place).map (place.length, ·) := by
  have hRounds := Child.iterate_round [(0, .plain p)] []
  have hWalk : p.outline.walk = ((Child.plain p).preorder 0).map Child.visit := by
    rw [Outline.walk_eq_preorder, Child.map_visit_preorder, Child.outline_plain]
  have hPlaces := (Child.plain p).preorder_eq_places 0
  simp only [List.flatMap_singleton, List.nil_append] at hRounds
  simp only [Nat.zero_add] at hPlaces
  exact ⟨hRounds, hWalk, (Child.plain p).places, (Child.plain p).mem_places_iff,
    (Child.plain p).pairwise_places, hPlaces⟩

/-- Below parentheses that are alone in all of their layers is what is below the expression
inside. -/
example (e : Expr) : (Part.expr (Term.paren e).toExpr).children = (Part.expr e).children := rfl

end SqlKit
