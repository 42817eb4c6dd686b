import SqlKit.Grammar.Error
import SqlKit.Syntax.Basic

/-!
# Reading a statement

A reader of type `Parse α` goes through the tokens of a text and comes to a result. It never gives
up: where a token is missing it notes the error and goes on with a stand-in, so that even a broken
statement has a tree. Of the errors in one statement only the first is noted.

All that a reader can do to its state is one of the moves of `Move`: take a token, note an error,
declare the type of a parameter, count a placeholder. That it does nothing else is part of its type,
and so is what follows from it: a reader never puts tokens back (`Parse.length_run_le`), and the
first error stays (`Moves.error_eq`). The loop `chain` ends because each round takes a token.

The state holds the tokens of the whole text. Nothing here keeps a reader from looking behind the
semicolon that ends its statement, or from taking it: that the readers of the grammar do not is a
theorem about them.
-/

namespace SqlKit

/-- Whether a token is the one that stands between statements. -/
def isSemicolon (t : Token) : Bool := t.kind == .symbol .semicolon

/-- Whether a statement ends in front of a token. -/
def endsStatement (t : Token) : Bool := isSemicolon t || t.isEnd

namespace Grammar

/-- The types declared for parameters, the last declaration first. Names are in lower case. -/
abbrev Bindings := List (String × String)

/-- How far the reading of a text has come. -/
structure State where
  /-- The tokens that are left, those of the statements behind this one among them. -/
  tokens : List Token
  /-- What stands behind the last of them. -/
  terminator : Token
  /-- The place of the token taken last. -/
  previous : Span
  /-- The errors so far, those of the statements before this one among them. -/
  errors : List ParseError
  /-- Whether this statement has an error. -/
  failed : Bool
  bindings : Bindings
  /-- The number of placeholders so far in this statement. -/
  placeholders : Nat
  /-- A statement fails by an error that was noted. -/
  noted : failed = true → errors ≠ []
  deriving Repr, DecidableEq

namespace State

/-- Where no errors are noted, no statement has failed. -/
theorem noted_nil : false = true → ([] : List ParseError) ≠ [] := nofun

/-- The token that is next, or what stands behind the last one when all are taken. -/
def current (s : State) : Token := s.tokens.headD s.terminator

/-- The kind of the token `n` places behind the next one, in whatever statement that stands. Behind
the last token there is the end of the text. -/
def kindAt (s : State) (n : Nat) : TokenKind := (s.tokens[n]?.map Token.kind).getD .endOfInput

/-- Whether a statement ends in front of the next token. -/
def atEnd (s : State) : Bool := endsStatement s.current

/-- The error of this statement, if it has one. -/
def error (s : State) : Option ParseError := if s.failed then s.errors.getLast? else none

/-- Where an error at the next token is reported. An error at the end of the text is reported right
behind the last token. -/
def errorPosition (s : State) : Position :=
  if s.current.isEnd then s.previous.last else s.current.span.first

/-- The state after the token `t` is taken. -/
def take (s : State) (t : Token) (rest : List Token) : State :=
  { s with tokens := rest, previous := t.span }

/-- The state with an error of this statement. Another one behind it is not noted. -/
def note (s : State) (e : ParseError) : State :=
  if s.failed then s else { s with errors := s.errors ++ [e], failed := true, noted := by simp }

/-- The state after a parameter's type is declared. -/
def declare (s : State) (name typeName : String) : State :=
  { s with bindings := (name, typeName) :: s.bindings }

/-- The state after one more placeholder. -/
def countPlaceholder (s : State) : State := { s with placeholders := s.placeholders + 1 }

section Note

variable (s : State) (e : ParseError)

@[simp] theorem note_tokens : (s.note e).tokens = s.tokens := by unfold note; split <;> rfl

@[simp] theorem note_terminator : (s.note e).terminator = s.terminator := by
  unfold note; split <;> rfl

@[simp] theorem note_previous : (s.note e).previous = s.previous := by unfold note; split <;> rfl

@[simp] theorem note_bindings : (s.note e).bindings = s.bindings := by unfold note; split <;> rfl

@[simp] theorem note_placeholders : (s.note e).placeholders = s.placeholders := by
  unfold note; split <;> rfl

@[simp] theorem note_current : (s.note e).current = s.current := by simp [current]

@[simp] theorem note_failed : (s.note e).failed = true := by
  unfold note
  split
  · assumption
  · rfl

theorem errors_note : (s.note e).errors = if s.failed then s.errors else s.errors ++ [e] := by
  unfold note
  split <;> rfl

end Note

@[simp] theorem error_isSome (s : State) : s.error.isSome = s.failed := by
  unfold error
  split
  · next h => rw [h, List.getLast?_isSome]; exact s.noted h
  · next h => exact (Bool.eq_false_iff.mpr h).symm

theorem error_eq_none {s : State} : s.error = none ↔ s.failed = false := by
  rw [← Option.isNone_iff_eq_none, ← Option.not_isSome, error_isSome, Bool.not_eq_true']

/-- The first error of a statement is its error. -/
theorem error_note (s : State) (e : ParseError) : (s.note e).error = s.error.or (some e) := by
  cases h : s.failed with
  | true =>
    have hNote : s.note e = s := by rw [note, if_pos h]
    have hSome : s.error.isSome = true := by rw [error_isSome, h]
    rw [hNote, Option.or_of_isSome hSome]
  | false =>
    rw [error_eq_none.mpr h]
    simp [note, h, error]

end State

/-! ## Moves -/

/-- One step of a reader. -/
inductive Move : State → State → Prop where
  | take {s : State} {t : Token} {rest : List Token} (h : s.tokens = t :: rest) :
    Move s (s.take t rest)
  | unexpected (s : State) (expected : Expected) :
    Move s (s.note ⟨s.errorPosition, .unexpected expected s.current⟩)
  | untyped (s : State) (position : Position) (name : String) :
    Move s (s.note ⟨position, .untypedParameter name⟩)
  | declare (s : State) (name typeName : String) : Move s (s.declare name typeName)
  | countPlaceholder (s : State) : Move s s.countPlaceholder

/-- Any number of steps. -/
inductive Moves : State → State → Prop where
  | refl (s : State) : Moves s s
  | tail {s t u : State} (h : Moves s t) (m : Move t u) : Moves s u

theorem Move.moves {s t : State} (h : Move s t) : Moves s t := .tail (.refl s) h

theorem Moves.trans {s t u : State} (h : Moves s t) (h' : Moves t u) : Moves s u := by
  induction h' with
  | refl => exact h
  | tail _ m ih => exact .tail ih m

/-- What is left after some steps is an end of what was there before. -/
theorem Moves.suffix {s t : State} (h : Moves s t) : t.tokens <:+ s.tokens := by
  induction h with
  | refl => exact List.suffix_rfl
  | tail _ m ih =>
    cases m with
    | take hTokens => exact (List.suffix_cons _ _).trans (hTokens ▸ ih)
    | unexpected | untyped => rwa [State.note_tokens]
    | declare | countPlaceholder => exact ih

theorem Moves.length_le {s t : State} (h : Moves s t) : t.tokens.length ≤ s.tokens.length :=
  h.suffix.length_le

/-- The first error stays. -/
theorem Moves.error_eq {s t : State} {e : ParseError} (h : Moves s t) (hError : s.error = some e) :
    t.error = some e := by
  induction h with
  | refl => exact hError
  | tail _ m ih =>
    cases m with
    | unexpected | untyped => rw [State.error_note, ih, Option.some_or]
    | take | declare | countPlaceholder => exact ih

theorem Moves.terminator_eq {s t : State} (h : Moves s t) : t.terminator = s.terminator := by
  induction h with
  | refl => rfl
  | tail _ m ih =>
    cases m with
    | unexpected | untyped => rwa [State.note_terminator]
    | take | declare | countPlaceholder => exact ih

/-! ## Readers -/

/-- A reader: what it makes of a state, and that it only makes moves. -/
structure Parse (α : Type) where
  run : State → α × State
  moves : ∀ s, Moves s (run s).2

namespace Parse

instance : Monad Parse where
  pure a := ⟨fun s => (a, s), fun s => .refl s⟩
  bind m f := ⟨fun s => (f (m.run s).1).run (m.run s).2,
    fun s => (m.moves s).trans ((f _).moves _)⟩

instance {α : Type} [Inhabited α] : Inhabited (Parse α) := ⟨pure default⟩

@[simp] theorem run_pure {α : Type} (a : α) (s : State) : (pure a : Parse α).run s = (a, s) := rfl

@[simp] theorem run_bind {α β : Type} (m : Parse α) (f : α → Parse β) (s : State) :
    (m >>= f).run s = (f (m.run s).1).run (m.run s).2 := rfl

@[ext] theorem ext {α : Type} {m n : Parse α} (h : ∀ s, m.run s = n.run s) : m = n := by
  cases m; cases n
  congr
  exact funext h

instance : LawfulMonad Parse :=
  LawfulMonad.mk' Parse (fun _ => rfl) (fun _ _ => rfl) (fun _ _ _ => rfl)

/-- A reader never puts tokens back. -/
theorem length_run_le {α : Type} (m : Parse α) (s : State) :
    (m.run s).2.tokens.length ≤ s.tokens.length := (m.moves s).length_le

/-! ### Looking -/

/-- Looks at the state and leaves it as it is. -/
def look {α : Type} (f : State → α) : Parse α := ⟨fun s => (f s, s), fun s => .refl s⟩

/-- The next token. -/
def current : Parse Token := look State.current

/-- The kind of the next token. -/
def kind : Parse TokenKind := look fun s => s.current.kind

/-- Whether the next token is this symbol. -/
def sees (symbol : Symbol) : Parse Bool := look fun s => s.current.kind == .symbol symbol

/-- Whether the next token is this keyword. -/
def seesKeyword (word : Keyword) : Parse Bool := look fun s => s.current.kind == .keyword word

/-- The kind of the token `n` places behind the next one. -/
def kindAt (n : Nat) : Parse TokenKind := look fun s => s.kindAt n

/-- The span from the start of `first` to the end of the token taken last, or `first` itself when no
token was taken since. -/
def spanFrom (first : Span) : Parse Span :=
  look fun s =>
    if s.previous.first.offset < first.first.offset then first else first.merge s.previous

/-! ### Taking -/

/-- Takes the next token if it is accepted. -/
def take? {α : Type} (accept : Token → Option α) : Parse (Option α) where
  run s :=
    match s.tokens with
    | [] => (none, s)
    | t :: rest =>
      match accept t with
      | none => (none, s)
      | some a => (some a, s.take t rest)
  moves s := by
    split
    · exact .refl s
    · next hTokens =>
      split
      · exact .refl s
      · exact (Move.take hTokens).moves

/-- Takes the next token. -/
def advance : Parse Unit := do
  let _ ← take? fun _ => some ()

/-- Takes the next token if it is of this kind, and says whether it was. -/
def eatKind (kind : TokenKind) : Parse Bool := do
  return (← take? fun t => if t.kind = kind then some () else none).isSome

/-- Takes the next token if it is this symbol. -/
def eat (symbol : Symbol) : Parse Bool := eatKind (.symbol symbol)

/-- Takes the next token if it is this keyword. -/
def eatKeyword (word : Keyword) : Parse Bool := eatKind (.keyword word)

/-! ### Asking -/

/-- Notes that something else was expected than the next token. -/
def fail (expected : Expected) : Parse Unit where
  run s := ((), s.note ⟨s.errorPosition, .unexpected expected s.current⟩)
  moves s := (Move.unexpected s expected).moves

/-- Notes that a parameter has no type. -/
def failUntyped (position : Position) (name : String) : Parse Unit where
  run s := ((), s.note ⟨position, .untypedParameter name⟩)
  moves s := (Move.untyped s position name).moves

/-- Takes the next token if it is accepted, and otherwise notes what was expected and goes on with a
stand-in. -/
def ask {α : Type} (expected : Expected) (standIn : α) (accept : Token → Option α) : Parse α := do
  match ← take? accept with
  | some a => return a
  | none =>
    fail expected
    return standIn

/-- Asks for a token of this kind, and says whether it was there. -/
def askKind (expected : Expected) (kind : TokenKind) : Parse Bool :=
  ask expected false fun t => if t.kind = kind then some true else none

/-- Asks for a symbol. -/
def expect (symbol : Symbol) : Parse Unit := do
  let _ ← askKind (.symbol symbol) (.symbol symbol)

/-- Asks for a keyword. -/
def expectKeyword (word : Keyword) : Parse Unit := do
  let _ ← askKind (.keyword word) (.keyword word)

/-! ### Parameters -/

/-- Declares the type of a parameter. -/
def declare (name typeName : String) : Parse Unit where
  run s := ((), s.declare name typeName)
  moves s := (Move.declare s name typeName).moves

/-- The type that a parameter was last declared with. -/
def declaredType? (name : String) : Parse (Option String) := look fun s => s.bindings.lookup name

/-- Counts a placeholder, and says how many there are now. -/
def nextPlaceholder : Parse Nat where
  run s := (s.placeholders + 1, s.countPlaceholder)
  moves s := (Move.countPlaceholder s).moves

/-! ### Repeating -/

/-- As long as the next token is accepted: takes it and reads an item behind it. -/
def chainFrom {α β : Type} (accept : Token → Option β) (item : β → Parse α) (s : State) :
    List α × State :=
  match _hTokens : s.tokens with
  | [] => ([], s)
  | t :: rest =>
    match accept t with
    | none => ([], s)
    | some b =>
      let after := (item b).run (s.take t rest)
      let more := chainFrom accept item after.2
      (after.1 :: more.1, more.2)
termination_by s.tokens.length
decreasing_by
  have hLength : ((item b).run (s.take t rest)).2.tokens.length ≤ rest.length :=
    (item b).length_run_le (s.take t rest)
  simp only [_hTokens, List.length_cons]
  omega

theorem moves_chainFrom {α β : Type} (accept : Token → Option β) (item : β → Parse α) (s : State) :
    Moves s (chainFrom accept item s).2 := by
  fun_induction chainFrom accept item s with
  | case1 => exact .refl _
  | case2 => exact .refl _
  | case3 s t rest hTokens b hAccept after more ih =>
    exact (Move.take hTokens).moves.trans (((item b).moves _).trans ih)

/-- The items behind accepted tokens, one after another. -/
def chain {α β : Type} (accept : Token → Option β) (item : β → Parse α) : Parse (List α) :=
  ⟨chainFrom accept item, moves_chainFrom accept item⟩

/-- Passes over tokens as long as they are of some sort. -/
def skipWhile (skipped : Token → Bool) : Parse Unit := do
  let _ ← chain (fun t => if skipped t then some () else none) fun _ => pure ()

/-- Passing over tokens does nothing but take them. -/
theorem exists_run_skipWhile (skipped : Token → Bool) (s : State) :
    ∃ previous, ((skipWhile skipped).run s).2 =
      { s with tokens := s.tokens.dropWhile skipped, previous } := by
  simp only [skipWhile, run_bind, run_pure, chain]
  fun_induction chainFrom (fun t => if skipped t then some () else none) (fun _ => pure ()) s with
  | case1 s hTokens =>
    refine ⟨s.previous, ?_⟩
    rw [hTokens, List.dropWhile_nil, ← hTokens]
  | case2 s t rest hTokens hNone =>
    refine ⟨s.previous, ?_⟩
    rw [hTokens, List.dropWhile_cons_of_neg (by simpa using hNone), ← hTokens]
  | case3 s t rest hTokens _ hSome after more ih =>
    have hSkipped : skipped t = true := by simpa using hSome
    rw [hTokens, List.dropWhile_cons_of_pos hSkipped]
    exact ih

theorem tokens_skipWhile (skipped : Token → Bool) (s : State) :
    ((skipWhile skipped).run s).2.tokens = s.tokens.dropWhile skipped := by
  obtain ⟨previous, hRun⟩ := exists_run_skipWhile skipped s
  rw [hRun]

/-- Items behind a symbol, one after another. -/
def chainOf {α : Type} (symbol : Symbol) (item : Parse α) : Parse (List α) :=
  chain (fun t => if t.kind = .symbol symbol then some () else none) fun _ => item

/-- Items with commas between them, at least one. -/
def separated {α : Type} (item : Parse α) : Parse (List α) := do
  let first ← item
  return first :: (← chainOf .comma item)

/-! ### Parts of statements -/

/-- An item that is there if the keyword in front of it is. -/
def after {α : Type} (word : Keyword) (item : Parse α) : Parse (Option α) := do
  if ← eatKeyword word then return some (← item) else return none

/-- Something with the span of text it was read from. -/
def spanned {α : Type} (item : Parse (Span → α)) : Parse α := do
  let first := (← current).span
  let result ← item
  return result (← spanFrom first)

end Parse

/-! ## Names -/

/-- The name that a token stands for: an identifier, or a word that is not reserved. -/
def nameOf? (t : Token) : Option String :=
  match t.kind with
  | .identifier name => some name.text
  | .keyword word => if word.isReserved then none else some t.text
  | _ => none

/-- The name that a token stands for where no keyword may: an identifier. -/
def identifierOf? (t : Token) : Option String :=
  match t.kind with
  | .identifier name => some name.text
  | _ => none

namespace Parse

/-- Asks for a name. The stand-in is the empty name. -/
def name (role : NameRole) : Parse String := ask (.name role) "" nameOf?

/-- Whether a name is next. -/
def seesName : Parse Bool := look fun s => (nameOf? s.current).isSome

/-- Names with points between them, after the first one. -/
def dottedRest (role : NameRole) : Parse (List String) := chainOf .dot (name role)

/-- `name` or `schema.name`. -/
def qualifiedName (role : NameRole) : Parse QualifiedName := do
  let first ← name role
  if ← eat .dot then return ⟨some first, ← name role⟩ else return .unqualified first

/-- A name in a list of columns, with a direction that is read and dropped. -/
def listedColumn : Parse String := do
  let column ← name .column
  if !(← eatKeyword .ASC) then
    let _ ← eatKeyword .DESC
  return column

/-- Columns in parentheses. Without the opening one there are none. -/
def columnList : Parse (List String) := do
  if ← askKind (.symbol .leftParen) (.symbol .leftParen) then
    let columns ← separated listedColumn
    expect .rightParen
    return columns
  else return []

/-- Columns in parentheses if a parenthesis is next, and otherwise none. -/
def optionalColumnList : Parse (List String) := do
  if ← sees .leftParen then columnList else return []

/-- Another name: one after `AS`, or an identifier. A keyword needs the `AS`. -/
def asName? : Parse (Option String) := do
  if ← eatKeyword .AS then return some (← name .asName) else take? identifierOf?

end Parse

end Grammar

end SqlKit
