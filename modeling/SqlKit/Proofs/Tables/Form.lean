import SqlKit.Proofs.Rendering.Names
import SqlKit.Proofs.Rendering.Results

/-!
# Table definitions as they are written

A `TableForm` is a table definition with all that may be written in more than one way or left out:
which word stands for a temporary table, which for a column that numbers its rows, whether an
increment is stated, and how often a foreign key says what happens to its rows. `TableForm.row` lays
it out in glyphs, in the fixed order in which the parts of a column come, and `TableForm.definition`
is the table that it stands for. Forms are `Proper` if the grammar has words for all of their parts.
-/

namespace SqlKit

open Grammar

/-- A word with a blank in front of it, which is there or not. -/
def flagRow (present : Bool) (word : Keyword) : Script :=
  if present then [.blank, .keyword word] else []

/-! ## Columns -/

/-- The type names of two words. -/
def twoWordTypes : List (String × String) := [("double", "precision"), ("character", "varying")]

/-- A name of a type in one word, or in two where there is such a type, and arguments where the type
accepts them. -/
structure ColumnType.Proper (t : ColumnType) : Prop extends IsArguments t where
  name : IsName t.name ∨ ∃ first second, IsName first ∧ IsName second ∧
    (first.toLower, second.toLower) ∈ twoWordTypes ∧ t.name = first ++ " " ++ second

/-- A whole number with an optional minus. -/
structure SignedForm where
  negative : Bool
  magnitude : Nat
  deriving Repr, DecidableEq, Inhabited

namespace SignedForm

def value (n : SignedForm) : Int64 :=
  if n.negative then -.ofNat n.magnitude else .ofNat n.magnitude

def row (n : SignedForm) : Script :=
  if n.negative then [.symbol .minus, .integer n.magnitude] else [.integer n.magnitude]

/-- The digits of the number are an integer of the language. -/
def Proper (n : SignedForm) : Prop := n.magnitude ≤ Numeral.maxInteger

end SignedForm

/-- The increment of a sequence behind a comma. -/
def incrementRow : Option SignedForm → Script
  | some increment => .symbol .comma :: .blank :: increment.row
  | none => []

/-- `(start[, increment])`. -/
structure SequenceForm where
  start : SignedForm
  increment : Option SignedForm
  deriving Repr, DecidableEq, Inhabited

namespace SequenceForm

/-- The sequence, whose increment is one unless stated. -/
def sequence (s : SequenceForm) : Sequence :=
  ⟨s.start.value, (s.increment.map SignedForm.value).getD 1⟩

def row (s : SequenceForm) : Script :=
  .symbol .leftParen :: (s.start.row ++ (incrementRow s.increment ++ [.symbol .rightParen]))

structure Proper (s : SequenceForm) : Prop where
  start : s.start.Proper
  increment : ∀ i ∈ s.increment, i.Proper

end SequenceForm

/-- A sequence with a blank in front of it, if there is one. -/
def sequenceRow : Option SequenceForm → Script
  | some s => .blank :: s.row
  | none => []

/-- The words for a column that numbers its rows. -/
inductive NumberingWord where
  | autoIncrement | autoincrement | identity
  deriving Repr, DecidableEq, Inhabited

namespace NumberingWord

/-- How such a word is written. -/
def text : NumberingWord → String
  | .autoIncrement => "AUTO_INCREMENT"
  | .autoincrement => "AUTOINCREMENT"
  | .identity => "IDENTITY"

def keyword : NumberingWord → Keyword
  | .autoIncrement | .autoincrement => .AUTOINCREMENT
  | .identity => .IDENTITY

theorem wordKind_text (w : NumberingWord) : wordKind w.text = .keyword w.keyword := by
  cases w <;> decide +kernel

/-- None of the words is reserved. -/
theorem isName_text (w : NumberingWord) : IsName w.text where
  word := by cases w <;> decide +kernel
  free word h := by
    rw [w.wordKind_text] at h
    obtain rfl := TokenKind.keyword.inj h
    cases w <;> rfl

end NumberingWord

/-- A word for a column that numbers its rows, and the sequence behind it. -/
structure NumberingForm where
  word : NumberingWord
  sequence : Option SequenceForm
  deriving Repr, DecidableEq, Inhabited

def NumberingForm.row (n : NumberingForm) : Script :=
  .blank :: .name n.word.text :: sequenceRow n.sequence

def Nullability.row : Nullability → Script
  | .unstated => []
  | .null => [.blank, .keyword .NULL]
  | .notNull => [.blank, .keyword .NOT, .blank, .keyword .NULL]

def ColumnKey.row : ColumnKey → Script
  | .none => []
  | .plain => [.blank, .keyword .PRIMARY, .blank, .keyword .KEY]
  | .hash => [.blank, .keyword .PRIMARY, .blank, .keyword .KEY, .blank, .keyword .HASH]

/-- A column definition. -/
structure ColumnForm where
  name : String
  type : ColumnType
  default : Option Term
  nullability : Nullability
  numbering : Option NumberingForm
  unique : Bool
  primaryKey : ColumnKey
  check : Option Expr

namespace ColumnForm

/-- Whether and how the column numbers its rows. Types may imply that it does. -/
def columnNumbering (c : ColumnForm) : Numbering :=
  match c.numbering with
  | some n => .automatic (n.sequence.map SequenceForm.sequence)
  | none => if SqlType.impliesIdentity c.type.name then .automatic none else .none

def definition (c : ColumnForm) : ColumnDefinition where
  name := c.name
  type := c.type
  default := c.default
  nullability := c.nullability
  numbering := c.columnNumbering
  unique := c.unique
  primaryKey := c.primaryKey
  check := c.check
  span := .atStart

def defaultRow (c : ColumnForm) : Script :=
  match c.default with
  | some value => .blank :: .keyword .DEFAULT :: .blank :: value.row
  | none => []

def numberingRow (c : ColumnForm) : Script := (c.numbering.map NumberingForm.row).getD []

def checkRow (c : ColumnForm) : Script :=
  match c.check with
  | some condition => .blank :: .keyword .CHECK :: .blank :: .symbol .leftParen ::
      (condition.row ++ [.symbol .rightParen])
  | none => []

/-- The parts of the column in their order. -/
def row (c : ColumnForm) : Script :=
  .name c.name :: .blank :: (c.type.row ++ (c.defaultRow ++ (c.nullability.row ++ (c.numberingRow ++
    (flagRow c.unique .UNIQUE ++ (c.primaryKey.row ++ c.checkRow))))))

/-- The default and the condition of the column stood in other texts before. -/
structure Proper (c : ColumnForm) : Prop where
  name : IsName c.name
  type : c.type.Proper
  default : ∀ value ∈ c.default, value.Rereadable
  sequence : ∀ n ∈ c.numbering, ∀ s ∈ n.sequence, s.Proper
  check : ∀ condition ∈ c.check, condition.Rereadable

end ColumnForm

/-! ## Constraints -/

/-- What happens to a row that a foreign key refers to. -/
inductive RowEvent where
  | deletion | change
  deriving Repr, DecidableEq, Inhabited

def RowEvent.word : RowEvent → Keyword
  | .deletion => .DELETE
  | .change => .UPDATE

def ReferentialAction.row : ReferentialAction → Script
  | .cascade => [.keyword .CASCADE]
  | .restrict => [.keyword .RESTRICT]
  | .noAction => [.keyword .NO, .blank, .keyword .ACTION]
  | .setDefault => [.keyword .SET, .blank, .keyword .DEFAULT]
  | .setNull => [.keyword .SET, .blank, .keyword .NULL]

/-- `ON event action`. -/
structure ActionForm where
  event : RowEvent
  action : ReferentialAction
  deriving Repr, DecidableEq, Inhabited

def ActionForm.row (a : ActionForm) : Script :=
  .blank :: .keyword .ON :: .blank :: .keyword a.event.word :: .blank :: a.action.row

/-- The action of the last clause for an event. -/
def lastAction (event : RowEvent) (clauses : List ActionForm) : Option ReferentialAction :=
  (clauses.filter (·.event = event)).getLast?.map ActionForm.action

/-- `REFERENCES table [(columns)]` with any number of clauses. -/
structure ReferenceForm where
  table : QualifiedName
  columns : List String
  clauses : List ActionForm

namespace ReferenceForm

def reference (r : ReferenceForm) : Reference :=
  ⟨r.table, r.columns, lastAction .deletion r.clauses, lastAction .change r.clauses⟩

def row (r : ReferenceForm) : Script :=
  .keyword .REFERENCES :: .blank :: (r.table.row ++
    (columnsRow r.columns ++ r.clauses.flatMap ActionForm.row))

structure Proper (r : ReferenceForm) : Prop where
  table : IsQualified r.table
  columns : ∀ m ∈ r.columns, IsName m

end ReferenceForm

/-- Some columns, each of which has a name. -/
def IsColumns (columns : List String) : Prop := columns ≠ [] ∧ ∀ m ∈ columns, IsName m

/-- What a table constraint demands. -/
inductive DemandForm where
  | primaryKey (hash : Bool) (columns : List String)
  /-- `UNIQUE` with or without the word `KEY`. -/
  | unique (key : Bool) (columns : List String)
  | check (condition : Expr)
  | foreignKey (columns : List String) (reference : ReferenceForm)

namespace DemandForm

def demand : DemandForm → Demand
  | primaryKey hash columns => .primaryKey hash columns
  | unique _ columns => .unique columns
  | check condition => .check (some condition)
  | foreignKey columns r => .foreignKey columns r.reference

def row : DemandForm → Script
  | primaryKey hash columns => .keyword .PRIMARY :: .blank :: .keyword .KEY ::
      (flagRow hash .HASH ++ .blank :: columnsRow columns)
  | unique key columns => .keyword .UNIQUE :: (flagRow key .KEY ++ .blank :: columnsRow columns)
  | check condition => .keyword .CHECK :: .blank :: .symbol .leftParen ::
      (condition.row ++ [.symbol .rightParen])
  | foreignKey columns r => .keyword .FOREIGN :: .blank :: .keyword .KEY :: .blank ::
      (columnsRow columns ++ .blank :: r.row)

def Proper : DemandForm → Prop
  | primaryKey _ columns | unique _ columns => IsColumns columns
  | check condition => condition.Rereadable
  | foreignKey columns r => IsColumns columns ∧ r.Proper

end DemandForm

/-- A table constraint with its name, if it has one. -/
structure ConstraintForm where
  name : Option String
  demand : DemandForm

namespace ConstraintForm

def constraint (c : ConstraintForm) : Constraint := ⟨c.name, c.demand.demand, .atStart⟩

def row (c : ConstraintForm) : Script :=
  (match c.name with
    | some m => [.keyword .CONSTRAINT, .blank, .name m, .blank]
    | none => []) ++ c.demand.row

structure Proper (c : ConstraintForm) : Prop where
  name : ∀ m ∈ c.name, IsName m
  demand : c.demand.Proper

end ConstraintForm

/-! ## Tables -/

/-- An entry in the body of a table. -/
inductive ElementForm where
  | column (column : ColumnForm)
  | constraint (constraint : ConstraintForm)

namespace ElementForm

def element : ElementForm → TableElement
  | column c => .column c.definition
  | constraint c => .constraint c.constraint

def row : ElementForm → Script
  | column c => c.row
  | constraint c => c.row

def Proper : ElementForm → Prop
  | column c => c.Proper
  | constraint c => c.Proper

end ElementForm

/-- How a table is said to be temporary, if it is. -/
inductive TemporaryForm where
  | unstated | temp | temporary
  deriving Repr, DecidableEq, Inhabited

def TemporaryForm.row : TemporaryForm → Script
  | .unstated => []
  | .temp => [.keyword .TEMP, .blank]
  | .temporary => [.keyword .TEMPORARY, .blank]

/-- `IF NOT EXISTS` with a blank behind it, which is there or not. -/
def ifNotExistsRow (present : Bool) : Script :=
  if present then [.keyword .IF, .blank, .keyword .NOT, .blank, .keyword .EXISTS, .blank] else []

/-- Two words with blanks in front of them, which are there or not. -/
def pairRow (present : Bool) (word word' : Keyword) : Script :=
  if present then [.blank, .keyword word, .blank, .keyword word'] else []

/-- The entries of a table in parentheses. -/
def elementsRow (elements : List ElementForm) : Script :=
  .symbol .leftParen :: (commaRow (elements.map ElementForm.row) ++ [.symbol .rightParen])

/-- `CREATE [TEMP | TEMPORARY] TABLE [IF NOT EXISTS] name (elements) [WITHOUT ROWID]`. -/
structure TableForm where
  temporary : TemporaryForm
  ifNotExists : Bool
  name : QualifiedName
  elements : List ElementForm
  withoutRowid : Bool

namespace TableForm

/-- The table that a form stands for. -/
def definition (t : TableForm) : CreateTable where
  temporary := t.temporary ≠ .unstated
  ifNotExists := t.ifNotExists
  name := t.name
  elements := t.elements.map ElementForm.element
  withoutRowid := t.withoutRowid
  span := .atStart

def row (t : TableForm) : Script :=
  .keyword .CREATE :: .blank :: (t.temporary.row ++ .keyword .TABLE :: .blank ::
    (ifNotExistsRow t.ifNotExists ++ (t.name.row ++ .blank ::
      (elementsRow t.elements ++ pairRow t.withoutRowid .WITHOUT .ROWID))))

/-- The text of a form. -/
def text (t : TableForm) : String := String.ofList (Script.chars t.row)

/-- A table has entries, and its name does not start with the word that `IF NOT EXISTS` starts with.
Its parameters are counted and declared in the order in which they are written. -/
structure Proper (t : TableForm) : Prop where
  name : IsQualified t.name
  leader : t.ifNotExists = false → wordKind (leadingName t.name) ≠ .keyword .IF
  nonempty : t.elements ≠ []
  elements : ∀ e ∈ t.elements, e.Proper
  parameters : ∃ τ, Follows ⟨[], 0⟩ (paramMarks (Statement.createTable t.definition).nodes) τ

end TableForm

end SqlKit
