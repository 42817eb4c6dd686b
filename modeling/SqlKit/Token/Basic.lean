import SqlKit.Number.Shortest
import SqlKit.Source.Span
import SqlKit.Token.Keyword

/-!
# Tokens

What a text is cut into: literals, names, keywords and symbols, each with its place and its source
text. Characters that belong to no token of the language make up a token of their own kind, and the
end of the text is a token too.
-/

namespace SqlKit

/-- Operators and punctuation. -/
inductive Symbol where
  | leftParen | rightParen | plus | minus | star | slash | percent | dot | comma | semicolon
  | pipe | concat | equal | notEqual | less | lessEqual | greater | greaterEqual | andAnd
  | question | atSign | colon
  deriving Repr, DecidableEq, Inhabited

/-- The text of a symbol. Of two spellings (`!=` and `<>`, `=` and `==`) it is the first. -/
def Symbol.text : Symbol → String
  | .leftParen => "("
  | .rightParen => ")"
  | .plus => "+"
  | .minus => "-"
  | .star => "*"
  | .slash => "/"
  | .percent => "%"
  | .dot => "."
  | .comma => ","
  | .semicolon => ";"
  | .pipe => "|"
  | .concat => "||"
  | .equal => "="
  | .notEqual => "!="
  | .less => "<"
  | .lessEqual => "<="
  | .greater => ">"
  | .greaterEqual => ">="
  | .andAnd => "&&"
  | .question => "?"
  | .atSign => "@"
  | .colon => ":"

/-- A name in a text, and whether it stood between quotes. -/
structure Identifier where
  text : String
  quoted : Bool
  deriving Repr, DecidableEq, Inhabited

namespace Identifier

/-- A name written without quotes. -/
def bare (text : String) : Identifier := ⟨text, false⟩

/-- A name written between quotes. -/
def ofQuoted (text : String) : Identifier := ⟨text, true⟩

/-- The form in which a name is compared with the words of the language: quotes protect the letter
case. -/
def folded (name : Identifier) : String := if name.quoted then name.text else name.text.toLower

end Identifier

/-- The kinds of tokens, with the values of literals and names. -/
inductive TokenKind where
  | integer (value : Int64)
  | float (value : Binary64)
  | string (value : String)
  | identifier (name : Identifier)
  | keyword (word : Keyword)
  | symbol (symbol : Symbol)
  /-- Text that is no token of the language, and quotes that are never closed. -/
  | unknown
  | endOfInput
  deriving Repr, DecidableEq, Inhabited

/-- A kind as it is shown to the reader. -/
def TokenKind.shown : TokenKind → String
  | .integer value => toString value.toInt
  | .float value => value.text
  | .string value => "'" ++ value ++ "'"
  | .identifier name => name.text
  | .keyword word => word.text
  | .symbol s => s.text
  | .unknown => "unknown character"
  | .endOfInput => "EOF"

/-- A token with its place and its source text. -/
structure Token where
  kind : TokenKind
  span : Span
  text : String
  deriving Repr, DecidableEq, Inhabited

namespace Token

/-- The token that stands at the end of a text. -/
def endOfInput (p : Position) : Token := ⟨.endOfInput, ⟨p, p⟩, ""⟩

/-- Whether the token is the end of the text. -/
def isEnd (t : Token) : Bool := t.kind == .endOfInput

/-- The keyword that a token is, if it is one. -/
def keyword? (t : Token) : Option Keyword :=
  match t.kind with
  | .keyword word => some word
  | _ => none

/-- How a token is named in "found" messages: by its source text, or by its kind where it has
none. -/
def described (t : Token) : String :=
  match t.kind with
  | .endOfInput => "EOF"
  | kind => if t.text.isEmpty then kind.shown else t.text

end Token

end SqlKit
