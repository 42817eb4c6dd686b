import SqlKit.Token.Basic

/-!
# Quoted text

Strings stand between single quotes and quoted names between double quotes, back-quotes or
brackets. The closing character is written twice to stand for itself, except in brackets, where it
always closes. `QuoteStyle.read` and `QuoteStyle.write` are inverse to each other
(`QuoteStyle.read_write`).
-/

namespace SqlKit

/-- A way of quoting: the characters around the text, and whether a doubled closing character
stands for itself. -/
structure QuoteStyle where
  opening : Char
  closing : Char
  doubles : Bool
  deriving Repr, DecidableEq, Inhabited

namespace QuoteStyle

/-- Single quotes, around strings. -/
def single : QuoteStyle := ⟨'\'', '\'', true⟩

/-- The styles of quoted names. -/
def names : List QuoteStyle := [⟨'"', '"', true⟩, ⟨'`', '`', true⟩, ⟨'[', ']', false⟩]

/-- Quoted text that was read: its content, and how many characters it took after the opening one,
the closing one included. -/
structure Content where
  value : List Char
  extent : Nat
  deriving Repr, DecidableEq, Inhabited

/-- One more character of content, written with `width` characters. -/
def Content.cons (c : Char) (width : Nat) (content : Content) : Content :=
  ⟨c :: content.value, content.extent + width⟩

/-- The quoted text after an opening character, up to its closing one; none when nothing closes
it. -/
def read (style : QuoteStyle) : List Char → Option Content
  | [] => none
  | [c] => if c = style.closing then some ⟨[], 1⟩ else none
  | c :: d :: cs =>
    if c = style.closing then
      if style.doubles ∧ d = style.closing then (style.read cs).map (Content.cons c 2)
      else some ⟨[], 1⟩
    else (style.read (d :: cs)).map (Content.cons c 1)

/-- The content with its closing character written twice. -/
def escaped (style : QuoteStyle) : List Char → List Char
  | [] => []
  | c :: cs => if c = style.closing then c :: c :: style.escaped cs else c :: style.escaped cs

/-- Text between quotes. -/
def write (style : QuoteStyle) (cs : List Char) : List Char :=
  style.opening :: (style.escaped cs ++ [style.closing])

end QuoteStyle

/-- A text as a string literal: between single quotes, every single quote in it twice. -/
def stringLiteral (s : String) : String := String.ofList (QuoteStyle.single.write s.toList)

end SqlKit
