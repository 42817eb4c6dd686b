import SqlKit.Grammar.Statement
import SqlKit.Token.Lexer

/-!
# Batches

A text holds any number of statements with semicolons between them. They are read in a loop over the
tokens of the text. A round of it passes over semicolons, reads a statement, and goes on to the end
of that statement if it failed (`State.readStatement`); then the statement is sorted among those
without error or the recovered ones, or dropped (`Progress.keep`).

`Progress.next?` is a round and `Progress.finish` the loop. It ends because a round takes a token
(`Progress.length_lt_of_next?`).
-/

namespace SqlKit

open Grammar

/-- How long the declared type of a parameter is known: for the whole text, or within its
statement. -/
inductive ParameterScope where
  | session | statement
  deriving Repr, DecidableEq, Inhabited

/-- Which statements are kept: all, or definitions of tables only. The others are read and checked
all the same. -/
inductive Retention where
  | all | definitions
  deriving Repr, DecidableEq, Inhabited

/-- How a text is read. -/
structure ParseOptions where
  scope : ParameterScope
  retention : Retention
  deriving Repr, DecidableEq, Inhabited

/-- Declared types last, and all statements are kept. -/
def ParseOptions.standard : ParseOptions := ⟨.session, .all⟩

/-- What is left of the declared types for the next statement. -/
def ParameterScope.handOn (scope : ParameterScope) (bindings : Bindings) : Bindings :=
  match scope with
  | .session => bindings
  | .statement => []

/-- Whether a statement is kept. -/
def Retention.keeps (retention : Retention) (s : Statement) : Bool :=
  match retention with
  | .all => true
  | .definitions => s.createTable?.isSome

/-! ## Results -/

/-- What became of a text: the statements without error, the best that could be made of the others,
and the errors, all in the order of the text. -/
structure ParseResult where
  statements : List Statement
  recovered : List Statement
  errors : List ParseError

namespace ParseResult

/-- Whether nothing is wrong. -/
def isOk (r : ParseResult) : Bool := r.errors.isEmpty

/-- The definitions of tables among the statements without error. -/
def createTables (r : ParseResult) : List CreateTable := r.statements.filterMap (·.createTable?)

end ParseResult

/-! ## A statement among others -/

namespace Grammar.State

/-- The state in which a statement is read: without errors of its own, without placeholders, and
with the types that were handed on. -/
def begin (scope : ParameterScope) (s : State) : State :=
  { s with
    failed := false
    bindings := scope.handOn s.bindings
    placeholders := 0
    noted := nofun }

/-- The state in front of the next token that is no semicolon. -/
def skipSemicolons (s : State) : State := ((Parse.skipWhile isSemicolon).run s).2

/-- The state at the end of the statement. -/
def synchronize (s : State) : State := ((Parse.skipWhile fun t => !endsStatement t).run s).2

/-- Reads a statement, and goes on to its end if it failed. -/
def readStatement (scope : ParameterScope) (s : State) : Statement × State :=
  let result := (statement (.forTokens s.tokens.length)).run (s.begin scope)
  (result.1, if result.2.failed then result.2.synchronize else result.2)

theorem moves_synchronize (s : State) : Moves s s.synchronize := (Parse.skipWhile _).moves s

theorem moves_skipSemicolons (s : State) : Moves s s.skipSemicolons := (Parse.skipWhile _).moves s

theorem moves_readStatement (scope : ParameterScope) (s : State) :
    Moves (s.begin scope) (s.readStatement scope).2 := by
  have hRead := (statement (.forTokens s.tokens.length)).moves (s.begin scope)
  unfold readStatement
  dsimp only
  split
  · exact hRead.trans (moves_synchronize _)
  · exact hRead

/-- Passing over tokens ends at one that is not passed over. -/
theorem current_skipWhile (skipped : Token → Bool) {s : State}
    (hEnd : skipped s.terminator = false) :
    skipped ((Parse.skipWhile skipped).run s).2.current = false := by
  have hTerminator := ((Parse.skipWhile skipped).moves s).terminator_eq
  rw [current, Parse.tokens_skipWhile, hTerminator]
  cases hRest : s.tokens.dropWhile skipped with
  | nil => exact hEnd
  | cons t rest =>
    have hHead := List.head_dropWhile_not skipped (l := s.tokens) (by rw [hRest]; simp)
    simpa [hRest] using hHead

theorem atEnd_synchronize {s : State} (hEnd : s.terminator.isEnd = true) :
    s.synchronize.atEnd = true := by
  have hStop : (!endsStatement s.synchronize.current) = false :=
    current_skipWhile (fun t => !endsStatement t) (by simp [endsStatement, hEnd])
  rwa [Bool.not_eq_eq_eq_not, Bool.not_false] at hStop

/-- Where a statement was read, the next token ends it. -/
theorem atEnd_readStatement (scope : ParameterScope) {s : State}
    (hEnd : s.terminator.isEnd = true) : (s.readStatement scope).2.atEnd = true := by
  have hTerminator : ((statement (.forTokens s.tokens.length)).run (s.begin scope)).2.terminator =
      s.terminator := ((statement _).moves (s.begin scope)).terminator_eq
  unfold readStatement
  dsimp only
  split
  · exact atEnd_synchronize (hTerminator ▸ hEnd)
  · next hFailed => exact atEnd_statement _ (Bool.eq_false_iff.mpr hFailed)

/-- Where a statement is next, reading it takes a token. -/
theorem length_readStatement_lt (scope : ParameterScope) {s : State}
    (hEnd : s.terminator.isEnd = true) (hNext : s.atEnd = false) :
    (s.readStatement scope).2.tokens.length < s.tokens.length := by
  have hSuffix : (s.readStatement scope).2.tokens <:+ s.tokens :=
    (moves_readStatement scope s).suffix
  have hTerminator : (s.readStatement scope).2.terminator = s.terminator :=
    (moves_readStatement scope s).terminator_eq
  refine Nat.lt_of_le_of_ne hSuffix.length_le fun hLength => ?_
  -- With no token taken the next token would still be the one that starts the statement.
  have hCurrent : (s.readStatement scope).2.current = s.current := by
    rw [current, current, hSuffix.eq_of_length hLength, hTerminator]
  have hAfter := atEnd_readStatement scope hEnd
  rw [atEnd, hCurrent] at hAfter
  exact Bool.false_ne_true (hNext.symm.trans hAfter)

end Grammar.State

/-! ## The loop -/

/-- What was made of a text so far. -/
structure Progress where
  state : State
  statements : List Statement
  recovered : List Statement
  /-- Behind the last token stands the end of the text. -/
  ends : state.terminator.isEnd = true

namespace Progress

/-- The start of a text, with the types of some parameters declared before it. -/
def ofText (bindings : Bindings) (text : String) : Progress where
  state :=
    { tokens := tokensOf text
      terminator := .endOfInput (endOf text)
      previous := .atStart
      errors := []
      failed := false
      bindings
      placeholders := 0
      noted := State.noted_nil }
  statements := []
  recovered := []
  ends := rfl

/-- Goes on behind a statement that was read. It is dropped, or it is among the recovered ones if it
failed, or among the statements. -/
def keep (retention : Retention) (p : Progress) (read : Statement × State)
    (ends : read.2.terminator.isEnd = true) : Progress :=
  if !retention.keeps read.1 then { p with state := read.2, ends }
  else if read.2.failed then
    { p with state := read.2, ends, recovered := p.recovered ++ [read.1] }
  else { p with state := read.2, ends, statements := p.statements ++ [read.1] }

@[simp] theorem keep_state (retention : Retention) (p : Progress) (read : Statement × State)
    (ends : read.2.terminator.isEnd = true) : (p.keep retention read ends).state = read.2 := by
  unfold keep
  split
  · rfl
  · split <;> rfl

/-- Passes over semicolons. -/
def skipSemicolons (p : Progress) : Progress :=
  { p with
    state := p.state.skipSemicolons
    ends := by rw [(State.moves_skipSemicolons p.state).terminator_eq]; exact p.ends }

theorem ends_readStatement (scope : ParameterScope) (p : Progress) :
    (p.state.readStatement scope).2.terminator.isEnd = true := by
  rw [(State.moves_readStatement scope p.state).terminator_eq]
  exact p.ends

/-- Reads a statement. -/
def read (options : ParseOptions) (p : Progress) : Progress :=
  p.keep options.retention (p.state.readStatement options.scope)
    (p.ends_readStatement options.scope)

/-- Reads the next statement, unless the text ends. -/
def next? (options : ParseOptions) (p : Progress) : Option Progress :=
  let start := p.skipSemicolons
  if start.state.current.isEnd then none else some (start.read options)

/-- A round takes a token. -/
theorem length_lt_of_next? {options : ParseOptions} {p q : Progress}
    (h : p.next? options = some q) :
    q.state.tokens.length < p.state.tokens.length := by
  simp only [next?] at h
  split at h
  · cases h
  · next hEnd =>
    have hNext : p.skipSemicolons.state.atEnd = false := by
      have hSemicolon : isSemicolon p.skipSemicolons.state.current = false :=
        State.current_skipWhile isSemicolon (by simp [isSemicolon, eq_of_beq p.ends])
      simp [State.atEnd, endsStatement, hSemicolon, hEnd]
    rw [← Option.some.inj h, read, keep_state]
    have hRead := State.length_readStatement_lt options.scope p.skipSemicolons.ends hNext
    exact Nat.lt_of_lt_of_le hRead (State.moves_skipSemicolons p.state).length_le

/-- Reads all statements that are left. -/
def finish (options : ParseOptions) (p : Progress) : Progress :=
  match _hNext : p.next? options with
  | none => p
  | some q => q.finish options
termination_by p.state.tokens.length
decreasing_by exact length_lt_of_next? _hNext

theorem finish_of_none {options : ParseOptions} {p : Progress} (h : p.next? options = none) :
    p.finish options = p := by
  rw [finish]
  split
  · rfl
  · next hSome => simp [h] at hSome

theorem finish_of_some {options : ParseOptions} {p q : Progress} (h : p.next? options = some q) :
    p.finish options = q.finish options := by
  rw [finish]
  split
  · next hNone => simp [h] at hNone
  · next r hSome =>
    rw [h] at hSome
    rw [Option.some.inj hSome]

/-- What became of the text. -/
def result (p : Progress) : ParseResult := ⟨p.statements, p.recovered, p.state.errors⟩

end Progress

/-- Reads a text with the types of some parameters declared before it. -/
def parseFrom (options : ParseOptions) (bindings : Bindings) (text : String) : ParseResult :=
  ((Progress.ofText bindings text).finish options).result

/-- Reads a text. -/
def parse (options : ParseOptions) (text : String) : ParseResult := parseFrom options [] text

end SqlKit
