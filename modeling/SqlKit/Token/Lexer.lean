import SqlKit.Text.Class
import SqlKit.Token.Numeral
import SqlKit.Token.Quoted

/-!
# Cutting a text into tokens

A text is a sequence of lexemes with gaps between them. A gap is any run of blanks, of comments from
`--` to the end of the line, and of comments between `/*` and `*/`; a comment that is never closed
runs to the end of the text. `gapLength` measures the gap at the start of a text and `lexeme` the
lexeme after it. No text is refused: what begins no lexeme is one of the kind `unknown`.

`Lexer` reads a text token by token, with any number of tokens looked at in advance.
-/

namespace SqlKit

/-! ## Gaps -/

/-- Where in a gap a character stands: between comments, in a comment to the end of the line, or in
a closed comment. The second character of `/*` and of `*/` have places of their own, so that `/*/`
does not close what it opens. -/
inductive GapPlace where
  | between | line | opening | block | closing
  deriving Repr, DecidableEq, Inhabited

/-- The length of the gap at the start of a text, from a place inside the gap. -/
def gapLength : GapPlace → List Char → Nat
  | _, [] => 0
  | .between, c :: cs =>
    if Text.isBlank c then gapLength .between cs + 1
    else if c = '-' ∧ cs.head? = some '-' then gapLength .line cs + 1
    else if c = '/' ∧ cs.head? = some '*' then gapLength .opening cs + 1
    else 0
  | .line, c :: cs => gapLength (if c = '\n' then .between else .line) cs + 1
  | .opening, _ :: cs => gapLength .block cs + 1
  | .block, c :: cs =>
    gapLength (if c = '*' ∧ cs.head? = some '/' then .closing else .block) cs + 1
  | .closing, _ :: cs => gapLength .between cs + 1

/-! ## Lexemes -/

/-- A token without its place: its kind, and the number of characters after the first one. -/
structure Lexeme where
  kind : TokenKind
  tail : Nat
  deriving Repr, DecidableEq, Inhabited

/-- Characters that a bare name starts with. -/
def isNameStart (c : Char) : Bool := Text.isAlphabetic c || c = '_'

/-- Characters that a bare name goes on with. -/
def isNamePart (c : Char) : Bool := Text.isAlphanumeric c || c = '_' || c = '$'

/-- What a word is: a keyword, or else a bare name. -/
def wordKind (word : String) : TokenKind :=
  match Keyword.ofText? word with
  | some keyword => .keyword keyword
  | none => .identifier (.bare word)

/-- A symbol that may be followed by another character to make a longer one. -/
def twoCharSymbol? (c d : Char) : Option Symbol :=
  match c, d with
  | '|', '|' => some .concat
  | '=', '=' => some .equal
  | '!', '=' => some .notEqual
  | '<', '=' => some .lessEqual
  | '<', '>' => some .notEqual
  | '>', '=' => some .greaterEqual
  | '&', '&' => some .andAnd
  | _, _ => none

/-- The symbols of one character. -/
def oneCharSymbol? (c : Char) : Option Symbol :=
  match c with
  | '(' => some .leftParen
  | ')' => some .rightParen
  | '+' => some .plus
  | '-' => some .minus
  | '*' => some .star
  | '/' => some .slash
  | '%' => some .percent
  | '.' => some .dot
  | ',' => some .comma
  | ';' => some .semicolon
  | '?' => some .question
  | '@' => some .atSign
  | ':' => some .colon
  | '|' => some .pipe
  | '=' => some .equal
  | '<' => some .less
  | '>' => some .greater
  | _ => none

/-- Quoted text, or everything to the end of the text when the quote is never closed. -/
def quotedLexeme (style : QuoteStyle) (kind : String → TokenKind) (cs : List Char) : Lexeme :=
  match style.read cs with
  | some content => ⟨kind (String.ofList content.value), content.extent⟩
  | none => ⟨.unknown, cs.length⟩

/-- A symbol, the longer one where two fit. -/
def symbolLexeme (c : Char) (cs : List Char) : Lexeme :=
  match cs.head?.bind (twoCharSymbol? c) with
  | some symbol => ⟨.symbol symbol, 1⟩
  | none => ⟨((oneCharSymbol? c).map TokenKind.symbol).getD .unknown, 0⟩

/-- The lexeme that starts with `c` in a text that goes on with `cs`. -/
def lexeme (c : Char) (cs : List Char) : Lexeme :=
  if Numeral.startsAt (c :: cs) then
    let numeral := Numeral.ofChars (c :: cs)
    ⟨numeral.kind, numeral.chars.length - 1⟩
  else if c = QuoteStyle.single.opening then quotedLexeme .single .string cs
  else match QuoteStyle.names.find? (·.opening = c) with
    | some style => quotedLexeme style (fun name => .identifier (.ofQuoted name)) cs
    | none =>
      if isNameStart c then
        let tail := cs.takeWhile isNamePart
        ⟨wordKind (String.ofList (c :: tail)), tail.length⟩
      else symbolLexeme c cs

/-! ## Tokens with their places -/

/-- A place in a text together with what follows it. -/
structure Cursor where
  position : Position
  rest : List Char
  deriving Repr, DecidableEq, Inhabited

namespace Cursor

/-- The start of a text. -/
def ofString (text : String) : Cursor := ⟨.start, text.toList⟩

/-- The place `count` characters further on. -/
def advance (c : Cursor) (count : Nat) : Cursor :=
  ⟨c.position.advance count c.rest, c.rest.drop count⟩

/-- The place after the gap that starts here. -/
def skipGap (c : Cursor) : Cursor := c.advance (gapLength .between c.rest)

/-- The token that starts at a place, and the place after it; none at the end of the text. -/
def token? (here : Cursor) : Option (Token × Cursor) :=
  match here.rest with
  | [] => none
  | head :: tail =>
    let found := lexeme head tail
    let after := here.advance (found.tail + 1)
    some (⟨found.kind, ⟨here.position, after.position⟩,
      String.ofList (head :: tail.take found.tail)⟩, after)

/-- The next token after a gap, and the place after it; none when only a gap is left. -/
def next? (c : Cursor) : Option (Token × Cursor) := c.skipGap.token?

@[simp] theorem rest_advance (c : Cursor) (count : Nat) :
    (c.advance count).rest = c.rest.drop count := rfl

theorem length_skipGap_le (c : Cursor) : c.skipGap.rest.length ≤ c.rest.length := by
  simp [skipGap]

/-- A token is the lexeme that starts at its place. -/
theorem token?_eq_some_iff {c after : Cursor} {t : Token} :
    c.token? = some (t, after) ↔ ∃ head tail, c.rest = head :: tail ∧
      after = c.advance ((lexeme head tail).tail + 1) ∧
      t = ⟨(lexeme head tail).kind, ⟨c.position, after.position⟩,
        String.ofList (head :: tail.take (lexeme head tail).tail)⟩ := by
  unfold token?
  split
  · next hRest => simp [hRest]
  · next head tail hRest =>
    constructor
    · intro h
      obtain ⟨rfl, rfl⟩ := Prod.mk.inj (Option.some.inj h)
      exact ⟨head, tail, hRest, rfl, rfl⟩
    · rintro ⟨head', tail', hRest', rfl, rfl⟩
      obtain ⟨rfl, rfl⟩ := List.cons.inj (hRest.symm.trans hRest')
      rfl

theorem token?_eq_none_iff {c : Cursor} : c.token? = none ↔ c.rest = [] := by
  unfold token?
  split
  · next hRest => simp [hRest]
  · next hRest => simp [hRest]

theorem first_of_token? {c after : Cursor} {t : Token} (h : c.token? = some (t, after)) :
    t.span.first = c.position := by
  obtain ⟨_, _, -, -, rfl⟩ := token?_eq_some_iff.mp h
  rfl

theorem length_lt_of_token? {c after : Cursor} {t : Token} (h : c.token? = some (t, after)) :
    after.rest.length < c.rest.length := by
  obtain ⟨head, tail, hRest, rfl, -⟩ := token?_eq_some_iff.mp h
  simp only [rest_advance, hRest, List.drop_succ_cons, List.length_drop, List.length_cons]
  omega

/-- Every token takes at least one character. -/
theorem length_lt_of_next? {c after : Cursor} {t : Token} (h : c.next? = some (t, after)) :
    after.rest.length < c.rest.length :=
  Nat.lt_of_lt_of_le (length_lt_of_token? h) c.length_skipGap_le

/-- All tokens from a place on, without the end. -/
def tokens (c : Cursor) : List Token :=
  match _h : c.next? with
  | none => []
  | some (t, after) => t :: after.tokens
termination_by c.rest.length
decreasing_by exact length_lt_of_next? ‹_›

/-- The place at the end of the text. -/
def finish (c : Cursor) : Position := c.position.advance c.rest.length c.rest

end Cursor

/-! ## Reading with lookahead -/

/-- A reader of tokens: the place reached in the text, and the tokens before it that were looked at
and not yet taken. -/
structure Lexer where
  cursor : Cursor
  ahead : List Token
  deriving Repr, DecidableEq, Inhabited

namespace Lexer

/-- A reader at the start of a text. -/
def ofString (text : String) : Lexer := ⟨.ofString text, []⟩

/-- Cuts the next token off the text, the end of the text when none is left. -/
def scan (c : Cursor) : Token × Cursor :=
  match c.next? with
  | some result => result
  | none => (.endOfInput c.finish, ⟨c.finish, []⟩)

/-- Takes the next token. After the last one it is the end of the text, again and again. -/
def next (l : Lexer) : Token × Lexer :=
  match l.ahead with
  | token :: ahead => (token, { l with ahead })
  | [] => ((scan l.cursor).1, ⟨(scan l.cursor).2, []⟩)

/-- Scans `count` more tokens into the lookahead. -/
def lookAhead (l : Lexer) : Nat → Lexer
  | 0 => l
  | count + 1 => lookAhead ⟨(scan l.cursor).2, l.ahead ++ [(scan l.cursor).1]⟩ count

/-- The token `n` places after the next one, which is not taken. -/
def peekNth (l : Lexer) (n : Nat) : Token × Lexer :=
  let l := l.lookAhead (n + 1 - l.ahead.length)
  (l.ahead.getD n (.endOfInput l.cursor.position), l)

/-- The next token, which is not taken. -/
def peek (l : Lexer) : Token × Lexer := l.peekNth 0

/-- Takes all tokens that are left, through the first end of the text. -/
def tokenize (l : Lexer) : List Token × Lexer :=
  match l.ahead.findIdx? Token.isEnd with
  | some i => (l.ahead.take (i + 1), { l with ahead := l.ahead.drop (i + 1) })
  | none =>
    let finish := l.cursor.finish
    (l.ahead ++ l.cursor.tokens ++ [.endOfInput finish], ⟨⟨finish, []⟩, []⟩)

end Lexer

/-- The tokens of a text, without the end. -/
def tokensOf (text : String) : List Token := (Cursor.ofString text).tokens

/-- The place of the end of a text. -/
def endOf (text : String) : Position := (Cursor.ofString text).finish

end SqlKit
