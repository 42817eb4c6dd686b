import SqlKit.Grammar.Query
import SqlKit.Syntax.Statement

/-!
# The grammar of table definitions

`CREATE TABLE`, `ALTER TABLE` and `DROP TABLE`, with the definitions of columns and constraints.
What may follow the type of a column comes in one fixed order.
-/

namespace SqlKit.Grammar

open Parse

/-! ## Columns -/

/-- A number with an optional minus. -/
def signed (expected : Expected) : Parse Int64 := do
  let negative ← eat .minus
  ask expected 0 fun t =>
    match t.kind with
    | .integer n => some (if negative then -n else n)
    | _ => none

/-- `(start[, increment])`, or nothing. The increment is one unless stated. -/
def sequence : Parse (Option Sequence) := do
  if ← eat .leftParen then
    let start ← signed .startValue
    let increment ← if ← eat .comma then signed .increment else pure 1
    expect .rightParen
    return some ⟨start, increment⟩
  else return none

/-- `NOT NULL`, `NULL` or nothing. -/
def nullability : Parse Nullability := do
  if ← eatKeyword .NOT then
    expectKeyword .NULL
    return .notNull
  else if ← eatKeyword .NULL then return .null
  else return .unstated

/-- `AUTO_INCREMENT` or `IDENTITY` with a sequence, or nothing. A column whose type implies it
numbers its rows all the same. -/
def numbering (implied : Bool) : Parse Numbering := do
  if (← eatKeyword .AUTOINCREMENT) then return .automatic (← sequence)
  else if (← eatKeyword .IDENTITY) then return .automatic (← sequence)
  else return if implied then .automatic none else .none

/-- `PRIMARY KEY [HASH]` or nothing. -/
def columnKey : Parse ColumnKey := do
  if ← eatKeyword .PRIMARY then
    expectKeyword .KEY
    return if ← eatKeyword .HASH then .hash else .plain
  else return .none

section Definitions

variable (rules : Rules)

/-- A condition in parentheses. -/
def checkCondition : Parse Expr := do
  expect .leftParen
  let condition ← expr rules
  expect .rightParen
  return condition

/-- The definition of a column behind its name, which starts at `first`. -/
def columnRest (name : String) (first : Span) : Parse ColumnDefinition := do
  let type ← columnType
  let default ← after .DEFAULT (term rules)
  let nullability ← nullability
  let numbering ← numbering (SqlType.impliesIdentity type.name)
  let unique ← eatKeyword .UNIQUE
  let primaryKey ← columnKey
  let check ← after .CHECK (checkCondition rules)
  let span ← spanFrom first
  return { name, type, default, nullability, numbering, unique, primaryKey, check, span }

/-- The definition of a column. -/
def columnDefinition : Parse ColumnDefinition := do
  let first := (← current).span
  columnRest rules (← name .column) first

/-! ## Constraints -/

/-- What happens to rows when the row they refer to goes. -/
def referentialAction : Parse ReferentialAction := do
  if ← eatKeyword .CASCADE then return .cascade
  else if ← eatKeyword .RESTRICT then return .restrict
  else if ← eatKeyword .NO then
    expectKeyword .ACTION
    return .noAction
  else if ← eatKeyword .SET then
    if ← eatKeyword .DEFAULT then return .setDefault
    else
      expectKeyword .NULL
      return .setNull
  else
    fail .referentialAction
    return .restrict

/-- What an `ON` clause of a foreign key states. -/
inductive OnClause where
  | delete (action : ReferentialAction)
  | update (action : ReferentialAction)
  | unread

/-- An `ON` clause behind that word. -/
def onClause : Parse OnClause := do
  if ← eatKeyword .DELETE then return .delete (← referentialAction)
  else if ← askKind (.keyword .UPDATE) (.keyword .UPDATE) then
    return .update (← referentialAction)
  else return .unread

/-- A reference with one more `ON` clause. Of two clauses for one event the later one counts. -/
def applyOnClause (r : Reference) : OnClause → Reference
  | .delete action => { r with onDelete := some action }
  | .update action => { r with onUpdate := some action }
  | .unread => r

/-- `REFERENCES table [(columns)]` with any number of `ON` clauses. -/
def reference : Parse Reference := do
  expectKeyword .REFERENCES
  let table ← qualifiedName .table
  let columns ← optionalColumnList
  let clauses ← chain (fun t => if t.kind = .keyword .ON then some () else none) fun _ => onClause
  return clauses.foldl applyOnClause ⟨table, columns, none, none⟩

/-- What a table constraint demands. Where nothing of the kind is, a `CHECK` without a condition
stands in for it. -/
def demand : Parse Demand := do
  if ← eatKeyword .PRIMARY then
    expectKeyword .KEY
    let hash ← eatKeyword .HASH
    return .primaryKey hash (← columnList)
  else if ← eatKeyword .UNIQUE then
    let _ ← eatKeyword .KEY
    return .unique (← columnList)
  else if ← eatKeyword .CHECK then return .check (some (← checkCondition rules))
  else if ← eatKeyword .FOREIGN then
    expectKeyword .KEY
    let columns ← columnList
    return .foreignKey columns (← reference)
  else
    fail .demand
    return .check none

/-- A table constraint with its optional name. -/
def tableConstraint : Parse Constraint := spanned do
  let name ← after .CONSTRAINT (name .constraint)
  let demand ← demand rules
  return fun span => ⟨name, demand, span⟩

/-! ## Statements about tables -/

/-- An entry in the body of a table: a column if it starts with a name, and otherwise a
constraint. -/
def tableElement : Parse TableElement := do
  if ← seesName then return .column (← columnDefinition rules)
  else return .constraint (← tableConstraint rules)

/-- The entries of a table in parentheses. Without the opening one there are none. -/
def tableElements : Parse (List TableElement) := do
  if ← askKind (.symbol .leftParen) (.symbol .leftParen) then
    let elements ← separated (tableElement rules)
    expect .rightParen
    return elements
  else return []

/-- `TEMP`, `TEMPORARY` or nothing. -/
def temporary : Parse Bool := do
  if ← eatKeyword .TEMP then return true else eatKeyword .TEMPORARY

/-- `IF NOT EXISTS` or nothing. -/
def ifNotExists : Parse Bool := do
  if ← eatKeyword .IF then
    expectKeyword .NOT
    expectKeyword .EXISTS
    return true
  else return false

/-- A word that announces another one, or nothing. -/
def wordPair (first second : Keyword) : Parse Bool := do
  if ← eatKeyword first then
    expectKeyword second
    return true
  else return false

/-- `CREATE [TEMP] TABLE [IF NOT EXISTS] name (elements) [WITHOUT ROWID]`. -/
def createTable : Parse CreateTable := spanned do
  expectKeyword .CREATE
  let temporary ← temporary
  expectKeyword .TABLE
  let ifNotExists ← ifNotExists
  let name ← qualifiedName .table
  let elements ← tableElements rules
  let withoutRowid ← wordPair .WITHOUT .ROWID
  return fun span => ⟨temporary, ifNotExists, name, elements, withoutRowid, span⟩

/-- The words that a table constraint starts with. -/
def startsConstraint : Parse Bool := look fun s =>
  match s.current.kind with
  | .keyword .CONSTRAINT | .keyword .PRIMARY | .keyword .UNIQUE | .keyword .CHECK
  | .keyword .FOREIGN => true
  | _ => false

/-- What is added behind `ADD`. -/
def addition : Parse AlterAction := do
  if ← startsConstraint then return .addConstraint (← tableConstraint rules)
  else
    let _ ← eatKeyword .COLUMN
    return .addColumn (← columnDefinition rules)

/-- Whether a token names something. -/
def isName : TokenKind → Bool
  | .identifier _ => true
  | .keyword word => !word.isReserved
  | _ => false

/-- The change of a column behind its name: one that starts with `RENAME`, `SET` or `DROP`, or a
whole new definition. -/
def columnChange (column : String) (first : Span) : Parse ColumnChange := do
  if ← eatKeyword .RENAME then
    expectKeyword .TO
    return .rename (← name .column)
  else if ← eatKeyword .SET then
    if ← eatKeyword .DEFAULT then return .setDefault (← term rules)
    else if ← eatKeyword .NOT then
      expectKeyword .NULL
      return .setNotNull
    else
      expectKeyword .NULL
      return .setNull
  else if ← eatKeyword .DROP then
    if ← eatKeyword .DEFAULT then return .dropDefault
    else
      expectKeyword .NOT
      expectKeyword .NULL
      return .dropNotNull
  else return .redefine (← columnRest rules column first)

/-- What is altered behind `ALTER`: `[COLUMN] name change`. The word `COLUMN` is itself the name of
the column when no other name follows it. -/
def alteration : Parse AlterAction := do
  if (← seesKeyword .COLUMN) && isName (← kindAt 1) then advance
  let first := (← current).span
  let column ← name .column
  return .alterColumn column (← columnChange rules column first)

/-- What is dropped behind `DROP`. -/
def removal : Parse AlterAction := do
  if ← eatKeyword .CONSTRAINT then return .dropConstraint (← name .constraint)
  else if ← eatKeyword .PRIMARY then
    expectKeyword .KEY
    return .dropPrimaryKey
  else
    let _ ← eatKeyword .COLUMN
    return .dropColumn (← name .column)

/-- What is renamed behind `RENAME`: the table, or a column of it. -/
def renameAction : Parse AlterAction := do
  if ← eatKeyword .TO then return .renameTable (← name .table)
  else
    let _ ← eatKeyword .COLUMN
    let column ← name .column
    expectKeyword .TO
    return .renameColumn column (← name .column)

/-- A change of a table. Where none is, renaming to the empty name stands in for it. -/
def alterAction : Parse AlterAction := do
  if ← eatKeyword .ADD then addition rules
  else if ← eatKeyword .ALTER then alteration rules
  else if ← eatKeyword .DROP then removal
  else if ← eatKeyword .RENAME then renameAction
  else
    fail .alteration
    return .renameTable ""

/-- `ALTER TABLE name action`. -/
def alterTable : Parse AlterTable := spanned do
  expectKeyword .ALTER
  expectKeyword .TABLE
  let table ← qualifiedName .table
  let action ← alterAction rules
  return fun span => ⟨table, action, span⟩

end Definitions

/-- `CASCADE`, `RESTRICT` or nothing. -/
def dropBehavior : Parse (Option DropBehavior) := do
  if ← eatKeyword .CASCADE then return some .cascade
  else if ← eatKeyword .RESTRICT then return some .restrict
  else return none

/-- `DROP TABLE [IF EXISTS] names [CASCADE | RESTRICT]`. -/
def dropTable : Parse DropTable := spanned do
  expectKeyword .DROP
  expectKeyword .TABLE
  let ifExists ← wordPair .IF .EXISTS
  let names ← separated (qualifiedName .table)
  let behavior ← dropBehavior
  return fun span => ⟨ifExists, names, behavior, span⟩

end SqlKit.Grammar
