import SqlKit.Validation.Failures
import SqlKit.Validation.Validator

/-!
# Rulesets

Validators for the columns of a record. Columns are judged in the order in which they first got a
validator, and each by all of its validators in order: no failure keeps another one from being
found.
-/

namespace SqlKit

open Text

/-- Validators by column. -/
structure Ruleset (m : Type → Type) where
  rules : NameMap (List (Validator m))

namespace Ruleset

variable {m : Type → Type}

/-- No validators. -/
def empty : Ruleset m := ⟨.empty⟩

/-- The ruleset with one more validator for a column. -/
def register (r : Ruleset m) (column : String) (v : Validator m) : Ruleset m :=
  ⟨r.rules.alter column fun earlier => earlier.getD [] ++ [v]⟩

/-- The number of validators for a column. -/
def validatorCount (r : Ruleset m) (column : String) : Nat :=
  ((r.rules.find? column).getD []).length

/-- The columns with the numbers of their validators. -/
def described (r : Ruleset m) : String :=
  let entries := r.rules.entries.map fun entry => s!"{quoted entry.1}: {entry.2.length}"
  "\x7b" ++ commaSeparated entries ++ "\x7d"

variable [Monad m]

/-- The message of a validator for a value, if it is to be asked and not content. -/
def judge (column : String) (value : Value) (record : Record) (v : Validator m) :
    m (Option String) :=
  if value.isNull && !v.checksNull then pure none else v.check column value record

/-- The failures after the judgement of some validators on a value. -/
def judgeAll (column : String) (value : Value) (record : Record) :
    Failures → List (Validator m) → m Failures
  | failures, [] => pure failures
  | failures, v :: rest => do
    match ← judge column value record v with
    | none => judgeAll column value record failures rest
    | some message => judgeAll column value record (failures.add column message) rest

/-- The failures after the judgement on some columns. -/
def judgeColumns (record : Record) :
    Failures → List (String × List (Validator m)) → m Failures
  | failures, [] => pure failures
  | failures, (column, validators) :: rest => do
    let failures ← judgeAll column (record.get column) record failures validators
    judgeColumns record failures rest

/-- All that is wrong with a record. -/
def validate (r : Ruleset m) (record : Record) : m Failures :=
  judgeColumns record .empty r.rules.entries

/-- Whether nothing is wrong with a record. -/
def isValid (r : Ruleset m) (record : Record) : m Bool := return (← r.validate record).isEmpty

end Ruleset

end SqlKit
