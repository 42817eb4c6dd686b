import SqlKit.Grammar.Parse
import SqlKit.Proofs.Syntax.Erasure

/-!
# The nodes of a query

`Select.nodes` lists the terms and the limits of a query, those of its subqueries included, in the
order in which they are written; a node comes before those inside of it. What a query must be like
for its text to be read back is said about its nodes one by one (`Node.Plain`), and about the order
in which parameters are declared and used (`Marks`).
-/

namespace SqlKit

/-- A node of a query that its text may depend on in more than its shape. -/
inductive Node where
  | term (term : Term)
  | limit (limit : Limit)

mutual

/-- The nodes of an expression. -/
def Expr.nodes : Expr → List Node
  | .single conjunction => conjunction.nodes
  | .or left right => left.nodes ++ right.nodes

def Conjunction.nodes : Conjunction → List Node
  | .single condition => condition.nodes
  | .and left right => left.nodes ++ right.nodes

def Condition.nodes : Condition → List Node
  | .operand operand => operand.nodes
  | .comparison left _ right => left.nodes ++ right.nodes
  | .isNull left _ => left.nodes
  | .same left _ right => left.nodes ++ right.nodes
  | .between left _ low high => left.nodes ++ (low.nodes ++ high.nodes)
  | .oneOf left _ values => left.nodes ++ Expr.nodesAll values
  | .oneOfQuery left _ query => left.nodes ++ query.nodes
  | .like left _ pattern => left.nodes ++ pattern.nodes
  | .likeEscape left _ pattern escape => left.nodes ++ (pattern.nodes ++ escape.nodes)
  | .regexp left _ pattern => left.nodes ++ pattern.nodes
  | .existence query => query.nodes
  | .negation inner => inner.nodes

def Operand.nodes : Operand → List Node
  | .single sum => sum.nodes
  | .concat left right => left.nodes ++ right.nodes

def Sum.nodes : Sum → List Node
  | .single product => product.nodes
  | .add left _ right => left.nodes ++ right.nodes

def Product.nodes : Product → List Node
  | .single term => term.nodes
  | .mul left _ right => left.nodes ++ right.nodes

def Term.nodes : Term → List Node
  | .path path => [.term (.path path)]
  | .literal value => [.term (.literal value)]
  | .parameter parameter => [.term (.parameter parameter)]
  | .placeholder placeholder => [.term (.placeholder placeholder)]
  | .paren inner => .term (.paren inner) :: inner.nodes
  | .subquery query => .term (.subquery query) :: query.nodes
  | .case operand branches otherwise =>
    .term (.case operand branches otherwise) ::
      (Expr.nodesOption operand ++ (Branch.nodesAll branches ++ Expr.nodesOption otherwise))
  | .cast inner target => .term (.cast inner target) :: inner.nodes
  | .call function distinct arguments =>
    .term (.call function distinct arguments) :: Expr.nodesAll arguments
  | .callStar function => [.term (.callStar function)]
  | .signed negative inner => .term (.signed negative inner) :: inner.nodes

/-- The nodes of several expressions. -/
def Expr.nodesAll : List Expr → List Node
  | [] => []
  | e :: es => e.nodes ++ Expr.nodesAll es

/-- The nodes of an expression, if it is there. -/
def Expr.nodesOption : Option Expr → List Node
  | none => []
  | some e => e.nodes

/-- The nodes of the branches of a `CASE`. -/
def Branch.nodesAll : List Branch → List Node
  | [] => []
  | ⟨condition, result⟩ :: branches =>
    (condition.nodes ++ result.nodes) ++ Branch.nodesAll branches

/-- The nodes of a query. -/
def Select.nodes : Select → List Node
  | ⟨_, tables, bodies, orderBy, limit, _⟩ =>
    CommonTable.nodesAll tables ++ (bodies.nodes ++ (OrderTerm.nodesAll orderBy ++ limit.nodes))

/-- The nodes of the tables that a query defines. -/
def CommonTable.nodesAll : List CommonTable → List Node
  | [] => []
  | ⟨_, _, query⟩ :: tables => query.nodes ++ CommonTable.nodesAll tables

def Bodies.nodes : Bodies → List Node
  | .single body => body.nodes
  | .compound left _ right => left.nodes ++ right.nodes

def Body.nodes : Body → List Node
  | .select _ columns source condition groupBy having =>
    ResultColumn.nodesAll columns ++ (JoinClause.nodesOption source ++
      (Expr.nodesOption condition ++ (Expr.nodesAll groupBy ++ Expr.nodesOption having)))
  | .values rows => Expr.nodesRows rows

/-- The nodes of rows of values. -/
def Expr.nodesRows : List (List Expr) → List Node
  | [] => []
  | row :: rows => Expr.nodesAll row ++ Expr.nodesRows rows

def ResultColumn.nodes : ResultColumn → List Node
  | .star => []
  | .tableStar _ => []
  | .expr expr _ => expr.nodes

/-- The nodes of the columns of a result. -/
def ResultColumn.nodesAll : List ResultColumn → List Node
  | [] => []
  | column :: columns => column.nodes ++ ResultColumn.nodesAll columns

/-- The nodes of a clause, if it is there. -/
def JoinClause.nodesOption : Option JoinClause → List Node
  | none => []
  | some clause => clause.nodes

def JoinClause.nodes : JoinClause → List Node
  | .single source => source.nodes
  | .join left _ right constraint => left.nodes ++ (right.nodes ++ constraint.nodes)

def JoinConstraint.nodes : JoinConstraint → List Node
  | .none => []
  | .on condition => condition.nodes
  | .using _ => []

def Source.nodes : Source → List Node
  | .table _ _ => []
  | .subquery query _ => query.nodes
  | .nested clause => clause.nodes

/-- The nodes of the keys of a sort. -/
def OrderTerm.nodesAll : List OrderTerm → List Node
  | [] => []
  | ⟨key, _, _⟩ :: terms => key.nodes ++ OrderTerm.nodesAll terms

def Limit.nodes : Limit → List Node
  | .none => [.limit .none]
  | .first count => .limit (.first count) :: count.nodes
  | .window count offset => .limit (.window count offset) :: (count.nodes ++ offset.nodes)

end

/-! ## Parameters -/

/-- What a parameter does to what is known of the parameters of a statement: a placeholder takes the
next place, a type is declared for a name, or the type of a name is asked for. -/
inductive ParamMark where
  | place (position : Nat)
  | declared (name typeName : String)
  | used (name typeName : String)

/-- The mark of a parameter with a name. -/
def NamedParameter.mark (p : NamedParameter) : ParamMark :=
  if p.declared then .declared p.name p.typeName else .used p.name p.typeName

/-- The mark of a node, if it is a parameter. -/
def Node.mark? : Node → Option ParamMark
  | .term (.parameter p) => some p.mark
  | .term (.placeholder p) => some (.place p.position)
  | _ => none

/-- The marks of some nodes. -/
def paramMarks (nodes : List Node) : List ParamMark := nodes.filterMap Node.mark?

@[simp] theorem paramMarks_nil : paramMarks [] = [] := rfl

@[simp] theorem paramMarks_append (ns ms : List Node) :
    paramMarks (ns ++ ms) = paramMarks ns ++ paramMarks ms := List.filterMap_append

/-- A node whose text shows all that it is: no binary number, no minus that would make up a comment
with the minus behind it, and no limit whose two expressions hold parameters, which are written in
the one order and may have been read in the other. -/
def Node.Plain : Node → Prop
  | .term (.literal (.float _)) => False
  | .term (.signed true (.signed true _)) => False
  | .limit (.window count offset) => paramMarks (count.nodes ++ offset.nodes) = []
  | _ => True

/-! ## What is known of parameters -/

namespace Grammar

/-- What is known of the parameters of a statement at some place. -/
structure Scope where
  bindings : Bindings
  placeholders : Nat
  deriving Repr, DecidableEq

/-- What a reader knows of the parameters. -/
def State.scope (s : State) : Scope := ⟨s.bindings, s.placeholders⟩

/-- From what is known in the first scope, marks lead to the second one: placeholders are counted
up, and names are used with the types that they were last declared with. -/
def Follows (σ : Scope) : List ParamMark → Scope → Prop
  | [], τ => σ = τ
  | .place position :: ms, τ =>
    position = σ.placeholders + 1 ∧ Follows { σ with placeholders := σ.placeholders + 1 } ms τ
  | .declared name typeName :: ms, τ =>
    Follows { σ with bindings := (name.toLower, typeName) :: σ.bindings } ms τ
  | .used name typeName :: ms, τ =>
    σ.bindings.lookup name.toLower = some typeName ∧ Follows σ ms τ

theorem Follows.refl (σ : Scope) : Follows σ [] σ := rfl

theorem Follows.trans_eq {σ τ υ : Scope} {ms : List ParamMark} (h : Follows σ ms τ)
    (hScope : τ = υ) :
    Follows σ ms υ := hScope ▸ h

theorem follows_append {σ τ : Scope} {ms ns : List ParamMark} :
    Follows σ (ms ++ ns) τ ↔ ∃ ρ, Follows σ ms ρ ∧ Follows ρ ns τ := by
  induction ms generalizing σ with
  | nil => simp [Follows]
  | cons m ms ih => cases m <;> simp [Follows, ih, and_assoc]

theorem Follows.append {σ ρ τ : Scope} {ms ns : List ParamMark} (h : Follows σ ms ρ)
    (h' : Follows ρ ns τ) : Follows σ (ms ++ ns) τ := follows_append.mpr ⟨ρ, h, h'⟩

end Grammar

end SqlKit
