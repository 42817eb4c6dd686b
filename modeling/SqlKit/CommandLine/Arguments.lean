import SqlKit.Batch

/-!
# Arguments

What the arguments of the program ask for. Options stand before the command and each of them at most
once; a value follows its option, or is attached to it by `=`. What follows the command are files;
after `--` they may begin with a dash.
-/

namespace SqlKit.CommandLine

/-- The form of the output. -/
inductive OutputFormat where
  | text | json
  deriving Repr, DecidableEq, Inhabited

/-- What is to be done: report the errors in files, or show the statements of a file, or show the
tables it defines. -/
inductive Command where
  | check (files : List String)
  | dump (file : String)
  | schema (file : String)
  deriving Repr, DecidableEq, Inhabited

/-- A command with everything that bears on it. -/
structure Invocation where
  options : ParseOptions
  format : OutputFormat
  command : Command
  deriving Repr, DecidableEq, Inhabited

/-- What the arguments ask for. -/
inductive Request where
  | misuse
  | version
  | run (invocation : Invocation)
  deriving Repr, DecidableEq, Inhabited

/-! ## Values of options -/

/-- The scope of parameters that a value stands for. -/
def scope? : String → Option ParameterScope
  | "session" => some .session
  | "statement" => some .statement
  | _ => none

/-- The format that a value stands for. -/
def format? : String → Option OutputFormat
  | "text" => some .text
  | "json" => some .json
  | _ => none

/-- The options met so far. -/
structure Settings where
  scope : Option ParameterScope
  definitionsOnly : Bool
  format : Option OutputFormat
  verbose : Bool
  deriving Repr, DecidableEq, Inhabited

namespace Settings

/-- No options. -/
def initial : Settings := ⟨none, false, none, false⟩

/-- The settings with a scope, unless they have one. -/
def setScope (s : Settings) (value : String) : Option Settings :=
  if s.scope.isSome then none else (scope? value).map fun scope => { s with scope := some scope }

/-- The settings with a format, unless they have one. -/
def setFormat (s : Settings) (value : String) : Option Settings :=
  if s.format.isSome then none
  else (format? value).map fun format => { s with format := some format }

/-- The settings limited to definitions of tables, unless they are. -/
def setDefinitionsOnly (s : Settings) : Option Settings :=
  if s.definitionsOnly then none else some { s with definitionsOnly := true }

/-- The settings with a wish for diagnostics, unless they have it. -/
def setVerbose (s : Settings) : Option Settings :=
  if s.verbose then none else some { s with verbose := true }

/-- How files are read. -/
def options (s : Settings) : ParseOptions where
  scope := s.scope.getD .session
  retention := if s.definitionsOnly then .definitions else .all

/-- The format of the output. The environment counts only where no option states one. -/
def outputFormat? (s : Settings) (environment : Option String) : Option OutputFormat :=
  match s.format, environment with
  | some format, _ => some format
  | none, some value => format? value
  | none, none => some .text

end Settings

/-! ## Commands -/

/-- The files among the arguments of a command, if all of them are. -/
def operands : List String → Option (List String)
  | [] => some []
  | "--" :: rest => if rest.any (·.isEmpty) then none else some rest
  | argument :: rest =>
    match argument.toList with
    | [] | '-' :: _ :: _ => none
    | _ => (operands rest).map (argument :: ·)

/-- The command of this name for these files. -/
def command? (name : String) (files : List String) : Option Command :=
  match name, files with
  | "check", _ :: _ => some (.check files)
  | "dump", [file] => some (.dump file)
  | "schema", [file] => some (.schema file)
  | _, _ => none

/-! ## Arguments -/

/-- The settings after a group of one-letter options, or what such an option asks for instead. -/
def readLetters (s : Settings) : List Char → Except Request Settings
  | [] => .ok s
  | 'v' :: rest => s.setVerbose.elim (.error .misuse) (readLetters · rest)
  | 'V' :: _ => .error .version
  | _ => .error .misuse

/-- An argument, and the value that is attached to it. -/
def splitAttached (argument : String) : String × Option String :=
  match argument.toList.span (· ≠ '=') with
  | (_, []) => (argument, none)
  | (name, _ :: value) => (String.ofList name, some (String.ofList value))

/-- What the arguments behind some options ask for. -/
def readFrom (environment : Option String) (s : Settings) : List String → Request
  | [] => .misuse
  | argument :: rest =>
    match splitAttached argument with
    | ("--version", none) => .version
    | ("--verbose", none) => s.setVerbose.elim .misuse (readFrom environment · rest)
    | ("--ddl-only", none) => s.setDefinitionsOnly.elim .misuse (readFrom environment · rest)
    | ("--param-scope", some value) => (s.setScope value).elim .misuse (readFrom environment · rest)
    | ("--format", some value) => (s.setFormat value).elim .misuse (readFrom environment · rest)
    | ("--param-scope", none) =>
      match rest with
      | [] => .misuse
      | value :: rest => (s.setScope value).elim .misuse (readFrom environment · rest)
    | ("--format", none) =>
      match rest with
      | [] => .misuse
      | value :: rest => (s.setFormat value).elim .misuse (readFrom environment · rest)
    | _ =>
      match argument.toList with
      | ['-'] => .misuse
      | '-' :: letters =>
        match readLetters s letters with
        | .ok s => readFrom environment s rest
        | .error request => request
      | _ =>
        match (operands rest).bind (command? argument), s.outputFormat? environment with
        | some command, some format => .run ⟨s.options, format, command⟩
        | _, _ => .misuse

/-- What the arguments ask for. -/
def readArguments (environment : Option String) (arguments : List String) : Request :=
  readFrom environment .initial arguments

end SqlKit.CommandLine
