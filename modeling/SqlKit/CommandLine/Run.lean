import SqlKit.CommandLine.Arguments
import SqlKit.Schema.Description
import SqlKit.Syntax.Outline

/-!
# The program

`respond` answers the arguments with the output of the program and its exit code. Files are read
through a function of a monad `m`, so that the same definition serves the real file system and any
other one.
-/

namespace SqlKit.CommandLine

/-- What the program leaves behind. -/
structure Outcome where
  exitCode : Nat
  output : String
  errors : String
  deriving Repr, DecidableEq, Inhabited

/-- Reads the bytes of a file, or says why it cannot. -/
abbrev FileReader (m : Type → Type) : Type := String → m (Except String ByteArray)

/-! ## Reports -/

/-- The line of an error in a file. -/
def errorLine (file : String) (e : ParseError) : String :=
  file ++ ":" ++ toString e.position.line ++ ":" ++ toString e.position.column ++ ": " ++
    e.message ++ "\n"

/-- The lines of the errors in a file. -/
def errorLines (file : String) (r : ParseResult) : String :=
  String.join (r.errors.map (errorLine file))

/-- An error in JSON. -/
def errorJson (e : ParseError) : Json :=
  .object [("column", .ofNat e.position.column), ("expected", .ofText? e.expected?),
    ("found", .ofText? e.found?), ("kind", .text e.kindName), ("line", .ofNat e.position.line),
    ("message", .text e.message), ("offset", .ofNat e.position.offset)]

/-- The report on a file in JSON. -/
def reportJson (file : String) (r : ParseResult) : Json :=
  .object [("errors", .array (r.errors.map errorJson)), ("file", .text file),
    ("statements", .ofNat r.statements.length)]

/-- The report on several files. -/
def report (format : OutputFormat) (results : List (String × ParseResult)) : String :=
  match format with
  | .text => String.join (results.map fun r => errorLines r.1 r.2)
  | .json => (Json.array (results.map fun r => reportJson r.1 r.2)).pretty ++ "\n"

/-- The line with which a check ends. -/
def summary (results : List (String × ParseResult)) : String :=
  let failed := (results.filter (!·.2.isOk)).length
  s!" INFO check finished files={results.length} failed={failed}\n"

/-- The exit code of success or failure. -/
def exitCode (isOk : Bool) : Nat := if isOk then 0 else 1

/-- What a check leaves behind. -/
def checked (format : OutputFormat) (results : List (String × ParseResult)) : Outcome where
  exitCode := exitCode (results.all (·.2.isOk))
  output := report format results
  errors := summary results

/-- What is left behind where a file cannot be read after these were. A report in JSON is not begun
before all files are read. -/
def unreadable (format : OutputFormat) (results : List (String × ParseResult))
    (file reason : String) : Outcome where
  exitCode := 1
  output := match format with
    | .text => report .text results
    | .json => ""
  errors := "Error: failed to read " ++ file ++ "\n\nCaused by:\n    " ++ reason ++ "\n"

/-- What showing a file leaves behind: what there is to show, with the errors beside it. -/
def shown (file : String) (r : ParseResult) (output : String) : Outcome where
  exitCode := exitCode r.isOk
  output := output
  errors := errorLines file r

/-- The statements of a text. -/
def statementLines (r : ParseResult) : String :=
  String.join (r.statements.map (·.outline.lines))

/-- The tables that a text defines. -/
def schemaText (format : OutputFormat) (r : ParseResult) : String :=
  let schema := Schema.ofStatements r.statements
  match format with
  | .text => schema.description
  | .json => schema.json.pretty ++ "\n"

/-! ## Execution -/

section Execution

variable {m : Type → Type} [Monad m]

/-- Reads a file as SQL. -/
def readFile (read : FileReader m) (options : ParseOptions) (file : String) :
    m (Except String ParseResult) :=
  return match ← read file with
    | .error reason => .error reason
    | .ok bytes =>
      match String.fromUTF8? bytes with
      | none => .error "stream did not contain valid UTF-8"
      | some text => .ok (parse options text)

/-- Checks files after those whose results are known. -/
def checkFiles (read : FileReader m) (options : ParseOptions) (format : OutputFormat)
    (results : List (String × ParseResult)) : List String → m Outcome
  | [] => pure (checked format results)
  | file :: rest => do
    match ← readFile read options file with
    | .error reason => pure (unreadable format results file reason)
    | .ok result => checkFiles read options format (results ++ [(file, result)]) rest

/-- Shows something of a file. -/
def showFile (read : FileReader m) (options : ParseOptions) (file : String)
    (output : ParseResult → String) : m Outcome :=
  return match ← readFile read options file with
    | .error reason => unreadable .text [] file reason
    | .ok result => shown file result (output result)

/-- Executes a command. -/
def execute (read : FileReader m) (i : Invocation) : m Outcome :=
  match i.command with
  | .check files => checkFiles read i.options i.format [] files
  | .dump file => showFile read i.options file statementLines
  | .schema file => showFile read i.options file (schemaText i.format)

/-- How the program is used. -/
def usage : String :=
  "Usage: quill [--param-scope session|statement] [--ddl-only] [--format text|json] [--verbose] " ++
    "check FILE... | dump FILE | schema FILE\n"

/-- Answers the arguments. The environment may name a format. -/
def respond (read : FileReader m) (environment : Option String) (arguments : List String) :
    m Outcome :=
  match readArguments environment arguments with
  | .misuse => pure ⟨2, "", usage⟩
  | .version => pure ⟨0, "quill 0.1.0\n", ""⟩
  | .run invocation => execute read invocation

end Execution

end SqlKit.CommandLine
