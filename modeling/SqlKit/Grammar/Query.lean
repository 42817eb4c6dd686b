import SqlKit.Grammar.Expression

/-!
# The grammar of queries

Readers for the parts of a query, and the knot that ties the grammar together: `Rules.upTo depth`
are the readers that may come back to themselves `depth` times. They come back only behind a token,
so that a depth above the number of tokens is never used up; `Rules.forTokens` chooses such a
depth.
-/

namespace SqlKit.Grammar

open Parse

/-! ## Sources -/

section Sources

variable (rules : Rules)

/-- What stands in parentheses between other sources: a query or a clause. -/
def parenthesizedSource : Parse Source := do
  if ← startsQuery then
    let query ← rules.select
    expect .rightParen
    return .subquery query (← asName?)
  else
    let clause ← rules.joinClause
    expect .rightParen
    return .nested clause

/-- A table, or a query or a clause in parentheses. -/
def source : Parse Source := do
  if ← eat .leftParen then parenthesizedSource rules
  else
    let table ← qualifiedName .table
    return .table table (← asName?)

/-- The kind of join that a word stands for. -/
def joinKind? (t : Token) : Option JoinKind :=
  match t.kind with
  | .keyword .LEFT => some .left
  | .keyword .RIGHT => some .right
  | .keyword .FULL => some .full
  | .keyword .INNER => some .inner
  | .keyword .CROSS => some .cross
  | _ => none

/-- How a join operator starts. -/
inductive JoinStart where
  | comma | join | natural
  | kind (kind : JoinKind)
  deriving Repr, DecidableEq, Inhabited

/-- The start of a join operator that a token stands for. -/
def joinStart? (t : Token) : Option JoinStart :=
  match t.kind with
  | .symbol .comma => some .comma
  | .keyword .JOIN => some .join
  | .keyword .NATURAL => some .natural
  | _ => (joinKind? t).map .kind

/-- The rest of a join operator behind its kind. Only the joins that keep rows without a partner may
be called `OUTER`. -/
def joinAfterKind (natural : Bool) (kind : JoinKind) : Parse JoinOperator := do
  let outer ← match kind with
    | .left | .right | .full => eatKeyword .OUTER
    | _ => pure false
  expectKeyword .JOIN
  return ⟨natural, kind, outer⟩

/-- The rest of a join operator behind its first token. -/
def joinOperator : JoinStart → Parse JoinOperator
  | .comma => pure .ofComma
  | .join => pure ⟨false, .plain, false⟩
  | .natural => do joinAfterKind true ((← take? joinKind?).getD .plain)
  | .kind kind => joinAfterKind false kind

/-- `ON condition`, `USING (columns)` or nothing. -/
def joinConstraint : Parse JoinConstraint := do
  if ← eatKeyword .ON then return .on (← expr rules)
  else if ← eatKeyword .USING then return .using (← columnList)
  else return .none

/-- A source that is joined to those before it. -/
structure JoinedSource where
  operator : JoinOperator
  source : Source
  constraint : JoinConstraint

/-- A joined source behind the first token of its operator. -/
def joinedSource (start : JoinStart) : Parse JoinedSource := do
  let operator ← joinOperator start
  let right ← source rules
  return ⟨operator, right, ← joinConstraint rules⟩

/-- Sources joined to each other. -/
def joinClause : Parse JoinClause := do
  let first ← source rules
  let joined ← chain joinStart? (joinedSource rules)
  return joined.foldl (fun left j => .join left j.operator j.source j.constraint) (.single first)

end Sources

/-! ## Bodies -/

section Bodies

variable (rules : Rules)

/-- Whether `name.*` is next. -/
def seesTableStar : Parse Bool := do
  return (← seesName) && (← kindAt 1) == .symbol .dot && (← kindAt 2) == .symbol .star

/-- `*`, `table.*`, or an expression with another name. -/
def resultColumn : Parse ResultColumn := do
  if ← eat .star then return .star
  else if ← seesTableStar then
    let table ← name .table
    advance
    advance
    return .tableStar table
  else
    let value ← expr rules
    return .expr value (← asName?)

/-- A row of values in parentheses. -/
def valueRow : Parse (List Expr) := do
  expect .leftParen
  let values ← separated (expr rules)
  expect .rightParen
  return values

/-- `DISTINCT`, `ALL` or nothing. -/
def distinct : Parse Bool := do
  if ← eatKeyword .DISTINCT then return true
  else
    let _ ← eatKeyword .ALL
    return false

/-- `GROUP BY` and its expressions, or none. -/
def groupBy : Parse (List Expr) := do
  if ← eatKeyword .GROUP then
    expectKeyword .BY
    separated (expr rules)
  else return []

/-- One body of a query. -/
def body : Parse Body := do
  if ← eatKeyword .VALUES then return .values (← separated (valueRow rules))
  else
    expectKeyword .SELECT
    let distinct ← distinct
    let columns ← separated (resultColumn rules)
    let source ← after .FROM (joinClause rules)
    let condition ← after .WHERE (expr rules)
    let groupBy ← groupBy rules
    let having ← after .HAVING (expr rules)
    return .select distinct columns source condition groupBy having

/-- The set operator that a word stands for, before an `ALL` is read. -/
def setOperator? (t : Token) : Option SetOperator :=
  match t.kind with
  | .keyword .UNION => some .union
  | .keyword .INTERSECT => some .intersect
  | .keyword .EXCEPT => some .except
  | _ => none

/-- A further body behind its set operator. -/
def compound (operator : SetOperator) : Parse (SetOperator × Body) := do
  let operator ←
    if operator = .union then
      if ← eatKeyword .ALL then pure .unionAll else pure .union
    else pure operator
  return (operator, ← body rules)

/-- Bodies joined by set operators. -/
def bodies : Parse Bodies := do
  let first ← body rules
  let rest ← chain setOperator? (compound rules)
  return rest.foldl (fun left entry => .compound left entry.1 entry.2) (.single first)

end Bodies

/-! ## Queries -/

section Queries

variable (rules : Rules)

/-- A table that a query defines: `name [(columns)] AS (query)`. -/
def commonTable : Parse CommonTable := do
  let name ← name .table
  let columns ← optionalColumnList
  expectKeyword .AS
  expect .leftParen
  let query ← rules.select
  expect .rightParen
  return ⟨name, columns, query⟩

/-- `NULLS FIRST`, `NULLS LAST` or nothing. -/
def nullPlacement : Parse (Option NullPlacement) := do
  if ← eatKeyword .NULLS then
    if ← eatKeyword .FIRST then return some .first
    else
      expectKeyword .LAST
      return some .last
  else return none

/-- The direction of a sort, ascending unless stated. -/
def direction : Parse Direction := do
  if ← eatKeyword .DESC then return .descending
  else
    let _ ← eatKeyword .ASC
    return .ascending

/-- One key of a sort. -/
def orderTerm : Parse OrderTerm := do
  let key ← expr rules
  let direction ← direction
  return ⟨key, direction, ← nullPlacement⟩

/-- `ORDER BY` and its keys, or none. -/
def orderBy : Parse (List OrderTerm) := do
  if ← eatKeyword .ORDER then
    expectKeyword .BY
    separated (orderTerm rules)
  else return []

/-- `LIMIT count [OFFSET offset]`, `LIMIT offset, count`, or nothing. -/
def limit : Parse Limit := do
  if ← eatKeyword .LIMIT then
    let first ← expr rules
    if ← eatKeyword .OFFSET then return .window first (← expr rules)
    else if ← eat .comma then return .window (← expr rules) first
    else return .first first
  else return .none

/-- A whole query. -/
def select : Parse Select := spanned do
  let hasTables ← eatKeyword .WITH
  let recursive ← if hasTables then eatKeyword .RECURSIVE else pure false
  let tables ← if hasTables then separated (commonTable rules) else pure []
  let bodies ← bodies rules
  let orderBy ← orderBy rules
  let limit ← limit rules
  return fun span => ⟨recursive, tables, bodies, orderBy, limit, span⟩

end Queries

/-! ## The knot -/

/-- An expression that stands in for one that was not read. -/
def standInExpr : Expr :=
  .single (.single (.operand (.single (.single (.single (.literal .null))))))

/-- Readers that read nothing. -/
def Rules.exhausted : Rules where
  expr := pure standInExpr
  select := pure ⟨false, [], .single (.values []), [], .none, .atStart⟩
  joinClause := pure (.single (.table (.unqualified "") none))

/-- The readers that come back to themselves at most `depth` times. -/
def Rules.upTo : Nat → Rules
  | 0 => .exhausted
  | depth + 1 =>
    let rules := Rules.upTo depth
    ⟨Grammar.expr rules, Grammar.select rules, Grammar.joinClause rules⟩

/-- The readers for a statement of so many tokens. -/
def Rules.forTokens (count : Nat) : Rules := .upTo (count + 1)

end SqlKit.Grammar
