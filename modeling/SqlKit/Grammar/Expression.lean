import SqlKit.Grammar.Parse
import SqlKit.Syntax.Query

/-!
# The grammar of expressions

One reader for each layer of an expression. A layer is a chain: an entry of the next layer, and
further entries as long as an operator of the layer is next. At the bottom a term may hold whole
expressions and queries again; their readers are passed in as `Rules`, so that no reader here calls
itself.
-/

namespace SqlKit.Grammar

/-- The readers that the grammar comes back to inside of itself. Each is used only behind a token
that was taken for it. -/
structure Rules where
  expr : Parse Expr
  select : Parse Select
  joinClause : Parse JoinClause

open Parse

/-! ## Types -/

/-- The largest number that may stand for a length, a scale or a parameter. -/
def maxUnsigned : Nat := Nat.pow 2 32 - 1

/-- The number that an integer token stands for, if it is not too large. -/
def unsigned? (t : Token) : Option Nat :=
  match t.kind with
  | .integer n => if n.toInt ≤ maxUnsigned then some n.toInt.toNat else none
  | _ => none

/-- The second word of the type names that have two. -/
def secondWord? (first : String) (t : Token) : Option String :=
  match t.kind with
  | .identifier name =>
    if (first.toLower = "double" ∧ name.folded = "precision") ∨
        (first.toLower = "character" ∧ name.folded = "varying") then some t.text else none
  | _ => none

/-- A type name, with `(length[, scale])` where the type accepts one. -/
def columnType : Parse ColumnType := do
  let first ← name .type
  let second ← take? (secondWord? first)
  let typeName := match second with
    | some word => first ++ " " ++ word
    | none => first
  if (SqlType.ofName typeName).acceptsLength then
    if ← eat .leftParen then
      let length ← ask .length 0 unsigned?
      let scale ← if ← eat .comma then some <$> ask .scale 0 unsigned? else pure none
      expect .rightParen
      return ⟨typeName, some length, scale⟩
  return ⟨typeName, none, none⟩

/-! ## Terms -/

/-- The constant that a token stands for. -/
def literalOf? (t : Token) : Option Literal :=
  match t.kind with
  | .integer n => some (.integer n)
  | .float x => some (.float x)
  | .string s => some (.string s)
  | .keyword .NULL => some .null
  | .keyword .TRUE => some (.boolean true)
  | .keyword .FALSE => some (.boolean false)
  | _ => none

/-- The sign that a token stands for: true for a minus. -/
def signOf? (t : Token) : Option Bool :=
  match t.kind with
  | .symbol .minus => some true
  | .symbol .plus => some false
  | _ => none

/-- A sign in front of a term. On a number it changes the number. -/
def applySign (negative : Bool) (term : Term) : Term :=
  match negative, term with
  | true, .literal (.integer n) => .literal (.integer (-n))
  | true, .literal (.float x) => .literal (.float x.neg)
  | false, .literal (.integer n) => .literal (.integer n)
  | false, .literal (.float x) => .literal (.float x)
  | negative, term => .signed negative term

/-- The words that a query starts with. -/
def startsQuery : Parse Bool := look fun s =>
  match s.current.kind with
  | .keyword .SELECT | .keyword .WITH | .keyword .VALUES => true
  | _ => false

/-- `?` or `?7`; the number belongs to the sign it touches. -/
def placeholder : Parse Term := do
  let mark := (← current).span
  advance
  let number ← take? fun t =>
    if t.span.first.offset = mark.last.offset then unsigned? t else none
  return .placeholder ⟨number, ← nextPlaceholder⟩

/-- `@name` or `@name:dotted.type`. With a type it declares the name; without one the name must have
been declared before. -/
def namedParameter : Parse Term := do
  let mark := (← current).span
  advance
  let name ← name .parameter
  if ← eat .colon then
    let first ← Parse.name .type
    let typeName := ".".intercalate (first :: (← dottedRest .type))
    declare name.toLower typeName
    return .parameter ⟨name, typeName, true, ← spanFrom mark⟩
  else
    match ← declaredType? name.toLower with
    | some typeName => return .parameter ⟨name, typeName, false, ← spanFrom mark⟩
    | none =>
      failUntyped mark.first name
      return .parameter ⟨name, "", false, ← spanFrom mark⟩

variable (rules : Rules)

/-- The arguments of a call behind its opening parenthesis. -/
def callArguments (function : String) : Parse Term := do
  if ← eat .star then
    expect .rightParen
    return .callStar function
  else if ← sees .rightParen then
    expect .rightParen
    return .call function false []
  else
    let distinct ← eatKeyword .DISTINCT
    let arguments ← separated rules.expr
    expect .rightParen
    return .call function distinct arguments

/-- A path, or a call when a parenthesis follows the name. -/
def pathOrCall : Parse Term := do
  let first ← name .identifier
  if ← eat .leftParen then callArguments rules first
  else return .path ⟨first, ← dottedRest .identifier⟩

/-- One `WHEN` of a `CASE`, behind that word. -/
def branch : Parse Branch := do
  let condition ← rules.expr
  expectKeyword .THEN
  return ⟨condition, ← rules.expr⟩

/-- `CASE [operand] WHEN ... THEN ... [ELSE ...] END`. -/
def caseTerm : Parse Term := do
  advance
  let operand ← if ← seesKeyword .WHEN then pure none else some <$> rules.expr
  if !(← seesKeyword .WHEN) then fail (.keyword .WHEN)
  let branches ← chain (fun t => if t.kind = .keyword .WHEN then some () else none)
    fun _ => branch rules
  let otherwise ← after .ELSE rules.expr
  expectKeyword .END
  return .case operand branches otherwise

/-- `CAST(expression AS type)`. -/
def castTerm : Parse Term := do
  advance
  expect .leftParen
  let inner ← rules.expr
  expectKeyword .AS
  let target ← columnType
  expect .rightParen
  return .cast inner target

/-- An expression or a query in parentheses. -/
def parenthesized : Parse Term := do
  advance
  let term ← if ← startsQuery then .subquery <$> rules.select else .paren <$> rules.expr
  expect .rightParen
  return term

/-- A term without a sign. Where none is, `NULL` stands in for it. -/
def unsignedTerm : Parse Term := do
  match ← take? literalOf? with
  | some literal => return .literal literal
  | none =>
    match ← kind with
    | .symbol .question => placeholder
    | .symbol .atSign => namedParameter
    | .symbol .leftParen => parenthesized rules
    | .keyword .CASE => caseTerm rules
    | .keyword .CAST => castTerm rules
    | _ =>
      if ← seesName then pathOrCall rules
      else
        fail .expression
        return .literal .null

/-- A term behind any number of signs; the last sign is the innermost. -/
def term : Parse Term := do
  let signs ← chain signOf? pure
  return signs.foldr applySign (← unsignedTerm rules)

/-! ## Operands -/

/-- The multiplicative operator that a token stands for. -/
def mulOp? (t : Token) : Option MulOp :=
  match t.kind with
  | .symbol .star => some .times
  | .symbol .slash => some .over
  | .symbol .percent => some .modulo
  | _ => none

/-- The additive operator that a token stands for. -/
def addOp? (t : Token) : Option AddOp :=
  match t.kind with
  | .symbol .plus => some .plus
  | .symbol .minus => some .minus
  | _ => none

/-- Terms joined by multiplicative operators. -/
def product : Parse Product := do
  let first ← term rules
  let rest ← chain mulOp? fun operator => (operator, ·) <$> term rules
  return rest.foldl (fun left entry => .mul left entry.1 entry.2) (.single first)

/-- Products joined by additive operators. -/
def sum : Parse Sum := do
  let first ← product rules
  let rest ← chain addOp? fun operator => (operator, ·) <$> product rules
  return rest.foldl (fun left entry => .add left entry.1 entry.2) (.single first)

/-- Sums joined by `||`. -/
def operand : Parse Operand := do
  let first ← sum rules
  let rest ← chainOf .concat (sum rules)
  return rest.foldl .concat (.single first)

/-! ## Conditions -/

/-- The comparison that a token stands for. -/
def compareOp? (t : Token) : Option CompareOp :=
  match t.kind with
  | .symbol .equal => some .equal
  | .symbol .notEqual => some .notEqual
  | .symbol .less => some .less
  | .symbol .lessEqual => some .lessEqual
  | .symbol .greater => some .greater
  | .symbol .greaterEqual => some .greaterEqual
  | _ => none

/-- The words behind which a predicate goes on, and in front of which it may be negated. -/
def isPredicateWord : TokenKind → Bool
  | .keyword .BETWEEN | .keyword .IN | .keyword .LIKE | .keyword .REGEXP => true
  | _ => false

/-- Takes a `NOT` that belongs to a predicate: one with the word of a predicate behind it. -/
def predicateNot : Parse Bool := do
  if (← seesKeyword .NOT) && isPredicateWord (← kindAt 1) then
    advance
    return true
  else return false

/-- What stands behind `IN`: a query or a list in parentheses. -/
def membership (left : Operand) (negated : Bool) : Parse Condition := do
  expect .leftParen
  let condition ←
    if ← startsQuery then .oneOfQuery left negated <$> rules.select
    else if ← sees .rightParen then pure (.oneOf left negated [])
    else .oneOf left negated <$> separated rules.expr
  expect .rightParen
  return condition

/-- What stands behind `IS`. -/
def identity (left : Operand) : Parse Condition := do
  let negated ← eatKeyword .NOT
  if ← eatKeyword .NULL then return .isNull left negated
  else return .same left negated (← operand rules)

/-- What stands behind the operand of a condition, if it is tested at all. -/
def test (left : Operand) : Parse Condition := do
  match ← take? compareOp? with
  | some operator => return .comparison left operator (← operand rules)
  | none =>
    if ← eatKeyword .IS then identity rules left
    else
      let negated ← predicateNot
      if ← eatKeyword .BETWEEN then
        let low ← operand rules
        expectKeyword .AND
        return .between left negated low (← operand rules)
      else if ← eatKeyword .IN then membership rules left negated
      else if ← eatKeyword .LIKE then
        let pattern ← operand rules
        match ← after .ESCAPE (operand rules) with
        | some escape => return .likeEscape left negated pattern escape
        | none => return .like left negated pattern
      else if ← eatKeyword .REGEXP then return .regexp left negated (← operand rules)
      else return .operand left

/-- A condition that does not start with `NOT`. -/
def plainCondition : Parse Condition := do
  if ← eatKeyword .EXISTS then
    expect .leftParen
    let query ← rules.select
    expect .rightParen
    return .existence query
  else
    let left ← operand rules
    test rules left

/-- A condition behind any number of `NOT`s. -/
def condition : Parse Condition := do
  let negations ← chain (fun t => if t.kind = .keyword .NOT then some () else none) pure
  return negations.foldr (fun _ inner => .negation inner) (← plainCondition rules)

/-- The conjunction that a token stands for. -/
def andSign? (t : Token) : Option Unit :=
  match t.kind with
  | .keyword .AND | .symbol .andAnd => some ()
  | _ => none

/-- Conditions joined by `AND` or `&&`. -/
def conjunction : Parse Conjunction := do
  let first ← condition rules
  let rest ← chain andSign? fun _ => condition rules
  return rest.foldl .and (.single first)

/-- Conjunctions joined by `OR`. -/
def expr : Parse Expr := do
  let first ← conjunction rules
  let rest ← chain (fun t => if t.kind = .keyword .OR then some () else none)
    fun _ => conjunction rules
  return rest.foldl .or (.single first)

end SqlKit.Grammar
