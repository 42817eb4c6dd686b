import SqlKit.Token.Basic

/-!
# Errors in statements

What is wrong with a statement, and where. An error is kept as its cause; its wording is made from
the cause in one place, `ParseError.message`.
-/

namespace SqlKit

/-- What a name stands for where one is asked for. -/
inductive NameRole where
  | column | table | constraint | parameter | type | asName | identifier
  deriving Repr, DecidableEq, Inhabited

/-- What the grammar asks for at a place. -/
inductive Expected where
  | symbol (symbol : Symbol)
  | keyword (word : Keyword)
  | name (role : NameRole)
  | expression
  | length | scale | startValue | increment
  | demand | referentialAction | alteration | conflictResolution
  deriving Repr, DecidableEq, Inhabited

/-- The words for a name of some role. -/
def NameRole.text : NameRole → String
  | .column => "column name"
  | .table => "table name"
  | .constraint => "constraint name"
  | .parameter => "parameter name"
  | .type => "type name"
  | .asName => "alias"
  | .identifier => "identifier"

/-- The words for what is asked for. -/
def Expected.text : Expected → String
  | .symbol s => "'" ++ s.text ++ "'"
  | .keyword word => word.text
  | .name role => role.text
  | .expression => "expression"
  | .length => "length"
  | .scale => "scale"
  | .startValue => "start value"
  | .increment => "increment"
  | .demand => "PRIMARY, UNIQUE, CHECK or FOREIGN"
  | .referentialAction => "CASCADE, RESTRICT, NO ACTION, SET NULL or SET DEFAULT"
  | .alteration => "ADD, ALTER, DROP or RENAME"
  | .conflictResolution => "ROLLBACK, ABORT, FAIL, IGNORE or REPLACE"

/-- Why a statement is refused: another token stands where one is asked for, or a parameter whose
type was never stated is used. -/
inductive ParseError.Cause where
  | unexpected (expected : Expected) (found : Token)
  | untypedParameter (name : String)
  deriving Repr, DecidableEq, Inhabited

/-- An error with its place. -/
structure ParseError where
  position : Position
  cause : ParseError.Cause
  deriving Repr, DecidableEq, Inhabited

namespace ParseError

/-- The kind of an error: against the grammar, or against the meaning of what the grammar
admits. -/
def kindName (e : ParseError) : String :=
  match e.cause with
  | .unexpected _ _ => "syntax"
  | .untypedParameter _ => "semantic"

/-- The words for what was asked for. -/
def expected? (e : ParseError) : Option String :=
  match e.cause with
  | .unexpected expected _ => some expected.text
  | .untypedParameter _ => none

/-- The words for what stood there instead. -/
def found? (e : ParseError) : Option String :=
  match e.cause with
  | .unexpected _ found => some found.described
  | .untypedParameter _ => none

/-- What is wrong, in words. -/
def message (e : ParseError) : String :=
  match e.cause with
  | .unexpected expected found => "Expecting " ++ expected.text ++ " but found " ++ found.described
  | .untypedParameter name => "Named parameter @" ++ name ++ " needs a type on first use"

/-- The message after its place. -/
def located (e : ParseError) : String :=
  toString e.position.line ++ ", " ++ toString e.position.column ++ ": " ++ e.message

end ParseError

end SqlKit
