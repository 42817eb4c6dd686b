import SqlKit.Token.Lexer
import Mathlib.Data.List.Chain

/-!
# Glyphs

The text of a tree is laid out as a row of glyphs: blanks, and the pieces that tokens are read from.
`chars` is the text of a row and `kinds` are the kinds of its tokens. A row is `Legal` when each of
its glyphs is the text of a token and no two neighbours run into each other.

`Spells` compares a row with tokens that were read somewhere, and leaves their places open: only a
placeholder with a number must touch it.
-/

namespace SqlKit

/-- A piece of a text that was written for a tree. -/
inductive Glyph where
  | blank
  | name (text : String)
  | keyword (word : Keyword)
  | symbol (symbol : Symbol)
  | integer (value : Nat)
  /-- The digits of a binary number. -/
  | numeral (parts : Numeral)
  | string (value : String)
  /-- A question mark, with the number that touches it if it has one. -/
  | mark (number : Option Nat)
  deriving Repr, DecidableEq, Inhabited

/-- How a symbol is written. -/
def Symbol.written : Symbol → String
  | .notEqual => "<>"
  | s => s.text

/-- Whether some characters are read as one word. -/
def isWord : List Char → Bool
  | [] => false
  | c :: cs => isNameStart c && !Text.isBlank c && cs.all isNamePart

/-- A word that may stand for a name. -/
structure IsName (text : String) : Prop where
  word : isWord text.toList = true
  free : ∀ w, wordKind text = .keyword w → w.isReserved = false

/-- A numeral that starts with a digit, without an exponent. -/
structure Numeral.IsPositional (n : Numeral) : Prop where
  nonempty : n.whole ≠ []
  whole : n.whole.all Char.isDigit = true
  fraction : ∀ ds ∈ n.fraction, ds ≠ [] ∧ ds.all Char.isDigit = true
  exponent : n.exponent = none

theorem all_isDigit_toDigits (n : Nat) : (Nat.toDigits 10 n).all Char.isDigit = true := by
  rw [List.all_eq_true]
  exact fun c hc => Nat.isDigit_of_mem_toDigits (by decide) (by decide) hc

/-- The digits of a number make up a numeral. -/
theorem isPositional_toDigits (n : Nat) :
    Numeral.IsPositional ⟨Nat.toDigits 10 n, none, none⟩ where
  nonempty := Nat.toDigits_ne_nil
  whole := all_isDigit_toDigits n
  fraction := by simp
  exponent := rfl

namespace Glyph

/-- The characters of a glyph. -/
def chars : Glyph → List Char
  | .blank => [' ']
  | .name text => text.toList
  | .keyword word => word.text.toList
  | .symbol s => s.written.toList
  | .integer value => (toString value).toList
  | .numeral parts => parts.chars
  | .string value => (stringLiteral value).toList
  | .mark none => ['?']
  | .mark (some number) => '?' :: (toString number).toList

/-- The kind of a numeral without a sign. -/
def integerKind (value : Nat) : TokenKind := .integer (.ofNat value)

/-- The kinds of the tokens of a glyph. -/
def kinds : Glyph → List TokenKind
  | .blank => []
  | .name text => [wordKind text]
  | .keyword word => [.keyword word]
  | .symbol s => [.symbol s]
  | .integer value => [integerKind value]
  | .numeral parts => [parts.kind]
  | .string value => [.string value]
  | .mark none => [.symbol .question]
  | .mark (some number) => [.symbol .question, integerKind number]

/-- Glyphs that tokens of the language are read from. A semicolon would end the statement. -/
def Fits : Glyph → Prop
  | .name text => IsName text
  | .symbol s => s ≠ .semicolon
  | .integer value => value ≤ Numeral.maxInteger
  | .numeral parts => parts.IsPositional
  | .mark (some number) => number ≤ Numeral.maxInteger
  | .blank | .keyword _ | .string _ | .mark none => True

/-- Glyphs that never run into their neighbours. -/
def isOpen : Glyph → Bool
  | .blank | .symbol .leftParen | .symbol .rightParen | .symbol .comma => true
  | _ => false

/-- The glyphs besides the open ones that may follow a glyph. -/
def allows : Glyph → Glyph → Bool
  | .name _, .symbol .dot | .name _, .symbol .colon => true
  | .symbol .dot, .name _ | .symbol .dot, .symbol .star => true
  | .symbol .colon, .name _ | .symbol .atSign, .name _ => true
  | .symbol .plus, _ => true
  | .symbol .minus, h => h ≠ .symbol .minus
  | _, _ => false

/-- Whether one glyph may stand in front of another. -/
def meets (g h : Glyph) : Bool := g.isOpen || h.isOpen || g.allows h

end Glyph

/-! ## Rows of glyphs -/

/-- A row of glyphs. -/
abbrev Script := List Glyph

namespace Script

/-- The text of a row. -/
def chars (gs : Script) : List Char := gs.flatMap Glyph.chars

/-- The kinds of the tokens of a row. -/
def kinds (gs : Script) : List TokenKind := gs.flatMap Glyph.kinds

/-- The kind of the first token, or the end where there is none. -/
def lead (gs : Script) : TokenKind := (kinds gs).headD .endOfInput

@[simp] theorem chars_nil : chars [] = [] := rfl

@[simp] theorem chars_cons (g : Glyph) (gs : Script) : chars (g :: gs) = g.chars ++ chars gs :=
  List.flatMap_cons

@[simp] theorem chars_append (gs hs : Script) : chars (gs ++ hs) = chars gs ++ chars hs :=
  List.flatMap_append

@[simp] theorem kinds_nil : kinds [] = [] := rfl

@[simp] theorem kinds_cons (g : Glyph) (gs : Script) : kinds (g :: gs) = g.kinds ++ kinds gs :=
  List.flatMap_cons

@[simp] theorem kinds_append (gs hs : Script) : kinds (gs ++ hs) = kinds gs ++ kinds hs :=
  List.flatMap_append

/-- Every glyph can be read, and no two neighbours run into each other. -/
structure Legal (gs : Script) : Prop where
  fits : ∀ g ∈ gs, g.Fits
  chain : gs.IsChain fun g h => g.meets h = true

/-- A row that may follow any other. -/
def Detached (gs : Script) : Prop := ∀ g ∈ gs.head?, g.isOpen = true

@[simp] theorem detached_nil : Detached [] := fun _ h => nomatch h

theorem detached_cons {g : Glyph} {gs : Script} (h : g.isOpen = true) : Detached (g :: gs) := by
  intro g' hg
  obtain rfl := Option.some.inj hg
  exact h

theorem Detached.append {gs hs : Script} (hg : Detached gs) (hh : Detached hs) :
    Detached (gs ++ hs) := by
  cases gs with
  | nil => exact hh
  | cons g gs => exact detached_cons (hg g rfl)

@[simp] theorem legal_nil : Legal [] := ⟨by simp, .nil⟩

theorem Legal.append {gs hs : Script} (hg : Legal gs) (hh : Legal hs) (hOpen : Detached hs) :
    Legal (gs ++ hs) := by
  refine ⟨fun g h => (List.mem_append.mp h).elim (hg.fits g) (hh.fits g), ?_⟩
  refine List.isChain_append.mpr ⟨hg.chain, hh.chain, fun g _ h hh => ?_⟩
  simp only [Glyph.meets, hOpen h hh, Bool.or_true, Bool.true_or]

/-- A glyph in front of a legal row that it may stand in front of. -/
theorem legal_cons {g : Glyph} {gs : Script} :
    Legal (g :: gs) ↔ g.Fits ∧ (∀ h ∈ gs.head?, g.meets h = true) ∧ Legal gs := by
  constructor
  · rintro ⟨hFits, hChain⟩
    obtain ⟨hMeets, hRest⟩ := List.isChain_cons.mp hChain
    exact ⟨hFits g List.mem_cons_self, hMeets,
      fun h hh => hFits h (List.mem_cons_of_mem g hh), hRest⟩
  · rintro ⟨hFits, hMeets, hRest, hChain⟩
    refine ⟨fun h hh => ?_, hChain.cons hMeets⟩
    rcases List.mem_cons.mp hh with rfl | hh
    · exact hFits
    · exact hRest h hh

/-- An open glyph may stand in front of any legal row. -/
theorem legal_cons_open {g : Glyph} {gs : Script} (hOpen : g.isOpen = true) :
    Legal (g :: gs) ↔ g.Fits ∧ Legal gs := by
  have hMeets : ∀ h ∈ gs.head?, g.meets h = true := fun h _ => by
    simp only [Glyph.meets, hOpen, Bool.true_or]
  rw [legal_cons]
  exact ⟨fun h => ⟨h.1, h.2.2⟩, fun h => ⟨h.1, hMeets, h.2⟩⟩

/-- Any glyph may stand in front of a row that is detached. -/
theorem legal_cons_detached {g : Glyph} {gs : Script} (hOpen : Detached gs) :
    Legal (g :: gs) ↔ g.Fits ∧ Legal gs := by
  have hMeets : ∀ h ∈ gs.head?, g.meets h = true := fun h hh => by
    simp only [Glyph.meets, hOpen h hh, Bool.or_true, Bool.true_or]
  rw [legal_cons]
  exact ⟨fun h => ⟨h.1, h.2.2⟩, fun h => ⟨h.1, hMeets, h.2⟩⟩

/-- Two rows one behind the other, if the second one is detached. -/
theorem legal_append {gs hs : Script} (hOpen : Detached hs) :
    Legal (gs ++ hs) ↔ Legal gs ∧ Legal hs := by
  refine ⟨fun h => ?_, fun h => h.1.append h.2 hOpen⟩
  obtain ⟨hFirst, hRest, -⟩ := List.isChain_append.mp h.chain
  exact ⟨⟨fun g hg => h.fits g (List.mem_append_left hs hg), hFirst⟩,
    fun g hg => h.fits g (List.mem_append_right gs hg), hRest⟩

section Layout

variable (g : Glyph) (gs hs : Script) (w : Keyword)

@[simp] theorem legal_singleton : Legal [g] ↔ g.Fits := by
  rw [legal_cons_detached detached_nil]
  simp [legal_nil]

@[simp] theorem legal_blank : Legal (.blank :: gs) ↔ Legal gs := by
  rw [legal_cons_open rfl]
  simp [Glyph.Fits]

@[simp] theorem legal_leftParen : Legal (.symbol .leftParen :: gs) ↔ Legal gs := by
  rw [legal_cons_open rfl]
  simp [Glyph.Fits]

@[simp] theorem legal_rightParen : Legal (.symbol .rightParen :: gs) ↔ Legal gs := by
  rw [legal_cons_open rfl]
  simp [Glyph.Fits]

@[simp] theorem legal_comma : Legal (.symbol .comma :: gs) ↔ Legal gs := by
  rw [legal_cons_open rfl]
  simp [Glyph.Fits]

@[simp] theorem legal_cons_blank : Legal (g :: .blank :: gs) ↔ g.Fits ∧ Legal gs := by
  rw [legal_cons_detached (detached_cons rfl), legal_blank]

@[simp] theorem legal_cons_leftParen :
    Legal (g :: .symbol .leftParen :: gs) ↔ g.Fits ∧ Legal gs := by
  rw [legal_cons_detached (detached_cons rfl), legal_leftParen]

@[simp] theorem legal_append_blank : Legal (gs ++ .blank :: hs) ↔ Legal gs ∧ Legal hs := by
  rw [legal_append (detached_cons rfl), legal_blank]

@[simp] theorem legal_append_leftParen :
    Legal (gs ++ .symbol .leftParen :: hs) ↔ Legal gs ∧ Legal hs := by
  rw [legal_append (detached_cons rfl), legal_leftParen]

@[simp] theorem legal_append_rightParen :
    Legal (gs ++ .symbol .rightParen :: hs) ↔ Legal gs ∧ Legal hs := by
  rw [legal_append (detached_cons rfl), legal_rightParen]

@[simp] theorem legal_append_comma :
    Legal (gs ++ .symbol .comma :: hs) ↔ Legal gs ∧ Legal hs := by
  rw [legal_append (detached_cons rfl), legal_comma]

@[simp] theorem fits_keyword : (Glyph.keyword w).Fits := trivial

@[simp] theorem fits_name (text : String) : (Glyph.name text).Fits ↔ IsName text := .rfl

@[simp] theorem fits_symbol (s : Symbol) : (Glyph.symbol s).Fits ↔ s ≠ .semicolon := .rfl

@[simp] theorem fits_integer (n : Nat) : (Glyph.integer n).Fits ↔ n ≤ Numeral.maxInteger := .rfl

end Layout

end Script

/-! ## Rows and tokens -/

/-- The token that a glyph of one token is read as. -/
structure Glyph.IsToken (g : Glyph) (t : Token) : Prop where
  kinds : g.kinds = [t.kind]
  text : ∀ n, g = .name n → t.text = n

/-- Tokens that were read from a row, wherever it stands. -/
inductive Spells : Script → List Token → Prop where
  | nil : Spells [] []
  | blank {gs : Script} {ts : List Token} (h : Spells gs ts) : Spells (.blank :: gs) ts
  | token {g : Glyph} {t : Token} {gs : Script} {ts : List Token} (hToken : g.IsToken t)
    (h : Spells gs ts) : Spells (g :: gs) (t :: ts)
  | mark {number : Nat} {t u : Token} {gs : Script} {ts : List Token}
    (hMark : t.kind = .symbol .question) (hNumber : u.kind = Glyph.integerKind number)
    (hTouch : u.span.first.offset = t.span.last.offset) (h : Spells gs ts) :
    Spells (.mark (some number) :: gs) (t :: u :: ts)

namespace Spells

theorem kinds_eq {gs : Script} {ts : List Token} (h : Spells gs ts) :
    Script.kinds gs = ts.map Token.kind := by
  induction h with
  | nil => rfl
  | blank _ ih => simpa [Glyph.kinds] using ih
  | token hToken _ ih => simp [hToken.kinds, ih]
  | mark hMark hNumber _ _ ih => simp [Glyph.kinds, hMark, hNumber, ih]

theorem of_blank {gs : Script} {ts : List Token} (h : Spells (.blank :: gs) ts) : Spells gs ts := by
  cases h with
  | blank h => exact h
  | token hToken _ => exact nomatch hToken.kinds

/-- The token of a glyph that has one. -/
theorem of_single {g : Glyph} {k : TokenKind} {gs : Script} {ts : List Token}
    (h : Spells (g :: gs) ts) (hKinds : g.kinds = [k]) :
    ∃ t rest, ts = t :: rest ∧ t.kind = k ∧ (∀ n, g = .name n → t.text = n) ∧ Spells gs rest := by
  cases h with
  | blank h => exact nomatch hKinds
  | @token _ t _ ts hToken h =>
    have hKind := hToken.kinds.symm.trans hKinds
    exact ⟨t, ts, rfl, List.singleton_inj.mp hKind, hToken.text, h⟩
  | mark _ _ _ h => exact absurd (congrArg List.length hKinds) (by simp [Glyph.kinds])

theorem of_mark {number : Nat} {gs : Script} {ts : List Token}
    (h : Spells (.mark (some number) :: gs) ts) :
    ∃ t u rest, ts = t :: u :: rest ∧ t.kind = .symbol .question ∧
      u.kind = Glyph.integerKind number ∧ u.span.first.offset = t.span.last.offset ∧
      Spells gs rest := by
  cases h with
  | token hToken _ => exact absurd (congrArg List.length hToken.kinds) (by simp [Glyph.kinds])
  | @mark _ t u _ ts hMark hNumber hTouch h =>
    exact ⟨t, u, ts, rfl, hMark, hNumber, hTouch, h⟩

end Spells

end SqlKit
