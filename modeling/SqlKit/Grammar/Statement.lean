import SqlKit.Grammar.Table

/-!
# The grammar of statements

`INSERT`, `REPLACE`, `UPDATE` and `DELETE`, and the choice of a statement by its first word. A
statement that starts with no word of its own is a query.
-/

namespace SqlKit.Grammar

open Parse

/-- The conflict resolution that a word stands for. -/
def resolutionOf? (t : Token) : Option ConflictResolution :=
  match t.kind with
  | .keyword .ROLLBACK => some .rollback
  | .keyword .ABORT => some .abort
  | .keyword .FAIL => some .fail
  | .keyword .IGNORE => some .ignore
  | .keyword .REPLACE => some .replace
  | _ => none

/-- `OR resolution` or nothing. -/
def conflictResolution : Parse (Option ConflictResolution) := do
  if ← eatKeyword .OR then
    ask .conflictResolution none fun t => (resolutionOf? t).map some
  else return none

section Statements

variable (rules : Rules)

/-- Where inserted rows come from. -/
def insertSource : Parse InsertSource := do
  if ← eatKeyword .VALUES then return .values (← separated (valueRow rules))
  else if ← eatKeyword .DEFAULT then
    expectKeyword .VALUES
    return .defaultValues
  else return .query (← select rules)

/-- `REPLACE`, or `INSERT` with a conflict resolution. -/
def insertMode : Parse InsertMode := do
  if ← eatKeyword .REPLACE then return .replace
  else
    expectKeyword .INSERT
    return .insert (← conflictResolution)

/-- `INSERT [OR resolution] INTO table [(columns)] source`, or the same with `REPLACE`. -/
def insert : Parse Insert := spanned do
  let mode ← insertMode
  expectKeyword .INTO
  let table ← qualifiedName .table
  let columns ← optionalColumnList
  let source ← insertSource rules
  return fun span => ⟨mode, table, columns, source, span⟩

/-- `column = value`. -/
def assignment : Parse Assignment := do
  let column ← name .column
  expect .equal
  return ⟨column, ← expr rules⟩

/-- `UPDATE [OR resolution] table SET assignments [WHERE condition]`. -/
def update : Parse Update := spanned do
  expectKeyword .UPDATE
  let resolution ← conflictResolution
  let table ← qualifiedName .table
  expectKeyword .SET
  let assignments ← separated (assignment rules)
  let condition ← after .WHERE (expr rules)
  return fun span => ⟨resolution, table, assignments, condition, span⟩

/-- `DELETE FROM table [WHERE condition]`. -/
def delete : Parse Delete := spanned do
  expectKeyword .DELETE
  expectKeyword .FROM
  let table ← qualifiedName .table
  let condition ← after .WHERE (expr rules)
  return fun span => ⟨table, condition, span⟩

/-- A statement of the kind that its first word says. -/
def statementOfKind : Parse Statement := do
  match ← kind with
  | .keyword .CREATE => .createTable <$> createTable rules
  | .keyword .ALTER => .alterTable <$> alterTable rules
  | .keyword .DROP => .dropTable <$> dropTable
  | .keyword .INSERT | .keyword .REPLACE => .insert <$> insert rules
  | .keyword .UPDATE => .update <$> update rules
  | .keyword .DELETE => .delete <$> delete rules
  | _ => .select <$> select rules

/-- A whole statement: where it does not end behind that, a semicolon was expected. -/
def statement : Parse Statement := do
  let result ← statementOfKind rules
  if ← look fun s => !s.atEnd then fail (.symbol .semicolon)
  return result

theorem run_statement (s : State) :
    (statement rules).run s =
      if ((statementOfKind rules).run s).2.atEnd then (statementOfKind rules).run s
      else (((statementOfKind rules).run s).1,
        ((fail (.symbol .semicolon)).run ((statementOfKind rules).run s).2).2) := by
  simp only [statement, run_bind, look]
  by_cases hEnd : ((statementOfKind rules).run s).2.atEnd = true
  · rw [if_neg (by simp [hEnd]), if_pos hEnd, run_pure]
  · rw [if_pos (by simp [hEnd]), if_neg hEnd]
    rfl

/-- A statement without error was read up to its end. -/
theorem atEnd_statement {s : State} (h : ((statement rules).run s).2.failed = false) :
    ((statement rules).run s).2.atEnd = true := by
  rw [run_statement] at h ⊢
  split at h
  · next hEnd => rwa [if_pos hEnd]
  · exact absurd h (by simp [fail])

end Statements

end SqlKit.Grammar
