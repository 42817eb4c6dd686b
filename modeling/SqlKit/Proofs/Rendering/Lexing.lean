import SqlKit.Proofs.Rendering.Glyph
import SqlKit.Proofs.Token.Shift

/-!
# Reading a row of glyphs

The text of a legal row is cut into the tokens that its glyphs stand for: `Script.Legal.spells`. One
glyph is cut off at a time. `IsLexeme part rest kind` says that `part` is cut off in front of
`rest`, and there is one lemma for each sort of glyph, with what it asks of the first character of
`rest`.
-/

namespace SqlKit

/-! ## One lexeme -/

/-- In front of `rest` the characters `part` are one lexeme, with no gap before it. -/
def IsLexeme (part rest : List Char) (kind : TokenKind) : Prop :=
  ∃ c cs, part = c :: cs ∧ gapLength .between (part ++ rest) = 0 ∧
    lexeme c (cs ++ rest) = ⟨kind, cs.length⟩

theorem gapLength_eq_zero {c : Char} {cs : List Char} (hBlank : Text.isBlank c = false)
    (hDash : c = '-' → cs.head? ≠ some '-') (hSlash : c = '/' → cs.head? ≠ some '*') :
    gapLength .between (c :: cs) = 0 := by
  rw [gapLength, hBlank]
  rw [if_neg (by simp), if_neg (fun h => hDash h.1 h.2), if_neg (fun h => hSlash h.1 h.2)]

/-- The token of a lexeme, and the place behind it. -/
theorem IsLexeme.tokens {part rest : List Char} {kind : TokenKind} (h : IsLexeme part rest kind)
    (p : Position) :
    ∃ t q, (Cursor.mk p (part ++ rest)).tokens = t :: (Cursor.mk q rest).tokens ∧
      t.kind = kind ∧ t.text = String.ofList part ∧ t.span = ⟨p, q⟩ ∧
      q = p.advance part.length (part ++ rest) := by
  obtain ⟨c, cs, rfl, hGap, hLexeme⟩ := h
  have hSkip : (Cursor.mk p (c :: cs ++ rest)).skipGap = ⟨p, c :: (cs ++ rest)⟩ := by
    rw [Cursor.skipGap, hGap]
    simp [Cursor.advance]
  have hNext : (Cursor.mk p (c :: cs ++ rest)).next? = some
      (⟨kind, ⟨p, p.advance (cs.length + 1) (c :: (cs ++ rest))⟩, String.ofList (c :: cs)⟩,
        ⟨p.advance (cs.length + 1) (c :: (cs ++ rest)), rest⟩) := by
    rw [Cursor.next?, hSkip]
    simp only [Cursor.token?, hLexeme, Cursor.advance, List.drop_succ_cons, List.drop_left,
      List.take_left]
  exact ⟨_, _, Cursor.tokens_of_some hNext, rfl, rfl, rfl, rfl⟩

/-- A blank in front of a text changes none of its tokens. -/
theorem tokens_blank (p : Position) (cs : List Char) :
    (Cursor.mk p (' ' :: cs)).tokens = (Cursor.mk (p.step ' ' cs) cs).tokens := by
  have hBlank : Text.isBlank ' ' = true := by decide
  have hSkip : (Cursor.mk p (' ' :: cs)).skipGap = (Cursor.mk (p.step ' ' cs) cs).skipGap := by
    simp [Cursor.skipGap, Cursor.advance, gapLength, hBlank]
  have hNext : (Cursor.mk p (' ' :: cs)).next? = (Cursor.mk (p.step ' ' cs) cs).next? := by
    rw [Cursor.next?, hSkip, Cursor.next?]
  cases hSome : (Cursor.mk (p.step ' ' cs) cs).next? with
  | none => rw [Cursor.tokens_of_none hSome, Cursor.tokens_of_none (hNext.trans hSome)]
  | some result => rw [Cursor.tokens_of_some hSome, Cursor.tokens_of_some (hNext.trans hSome)]

/-! ## Words -/

/-- The characters that open glyphs start with. -/
def isOpener (c : Char) : Bool := c = ' ' || c = '(' || c = ')' || c = ','

theorem isOpener_cases {c : Char} (h : isOpener c = true) :
    c = ' ' ∨ c = '(' ∨ c = ')' ∨ c = ',' := by
  simpa [isOpener, or_assoc] using h

theorem isNamePart_opener {c : Char} (h : isOpener c = true) : isNamePart c = false := by
  rcases isOpener_cases h with rfl | rfl | rfl | rfl <;> decide

/-- A name starts with no ASCII digit. -/
theorem isDigit_nameStart {c : Char} (h : isNameStart c = true) : c.isDigit = false := by
  by_contra hDigit
  rw [Bool.not_eq_false] at hDigit
  have hRange : 48 ≤ c.toNat ∧ c.toNat ≤ 57 := by
    simpa [Char.isDigit, UInt32.le_iff_toNat_le] using hDigit
  have hAscii : Text.isAscii c = true := by
    simp only [Text.isAscii, decide_eq_true_eq]
    omega
  have hAlpha : c.isAlpha = false := by
    have hUpper : 'A'.toNat = 65 := rfl
    have hLower : 'a'.toNat = 97 := rfl
    delta Char.isAlpha Char.isUpper Char.isLower
    simp only [Bool.or_eq_false_iff, ge_iff_le, Bool.and_eq_false_iff, decide_eq_false_iff_not,
      UInt32.le_iff_toNat_le, Char.toNat_val]
    omega
  have hMark : c ≠ '_' := by
    rintro rfl
    exact absurd hRange (by decide)
  simp [isNameStart, Text.isAlphabetic, hAscii, hAlpha, hMark] at h

theorem takeWhile_append_of_all {p : Char → Bool} {cs rest : List Char} (h : cs.all p = true)
    (hRest : ∀ d ∈ rest.head?, p d = false) : (cs ++ rest).takeWhile p = cs := by
  rw [List.takeWhile_append_of_pos (by simpa using h)]
  cases rest with
  | nil => simp
  | cons d rest => simp [hRest d rfl]

theorem isLexeme_word {text : String} {rest : List Char} (h : isWord text.toList = true)
    (hRest : ∀ d ∈ rest.head?, isNamePart d = false) :
    IsLexeme text.toList rest (wordKind text) := by
  cases hText : text.toList with
  | nil => simp [hText, isWord] at h
  | cons c cs =>
    simp only [hText, isWord, Bool.and_eq_true, Bool.not_eq_true'] at h
    obtain ⟨⟨hStart, hBlank⟩, hParts⟩ := h
    have hNe : ∀ d, isNameStart d = false → c ≠ d := by
      rintro d hd rfl
      exact Bool.noConfusion (hStart.symm.trans hd)
    have hNumeral : Numeral.startsAt (c :: (cs ++ rest)) = false := by
      simp [Numeral.startsAt, isDigit_nameStart hStart, hNe '.' (by decide)]
    have hQuote : c ≠ QuoteStyle.single.opening := hNe '\'' (by decide)
    have hNames : QuoteStyle.names.find? (·.opening = c) = none := by
      simp [QuoteStyle.names, (hNe '"' (by decide)).symm, (hNe '`' (by decide)).symm,
        (hNe '[' (by decide)).symm]
    have hWord : String.ofList (c :: cs) = text := by rw [← hText, String.ofList_toList]
    refine ⟨c, cs, rfl, ?_, ?_⟩
    · exact gapLength_eq_zero hBlank (fun h => absurd h (hNe '-' (by decide)))
        fun h => absurd h (hNe '/' (by decide))
    · rw [lexeme, hNumeral, if_neg (by simp), if_neg hQuote, hNames]
      simp only [hStart, ↓reduceIte, takeWhile_append_of_all hParts hRest, hWord]

theorem isWord_keyword (w : Keyword) : isWord w.text.toList = true := by
  have hAll : ∀ w ∈ Keyword.all, isWord w.text.toList = true := by decide +kernel
  exact hAll w (Keyword.mem_all w)

theorem wordKind_keyword (w : Keyword) : wordKind w.text = .keyword w := by
  have hAll : ∀ w ∈ Keyword.all, wordKind w.text = .keyword w := by decide +kernel
  exact hAll w (Keyword.mem_all w)

/-! ## Numbers -/

theorem toList_toString_nat (n : Nat) : (toString n).toList = Nat.toDigits 10 n := by
  rw [Nat.toString_eq_ofList_toDigits, String.toList_ofList]

/-- What is behind digits is no part of them, if an open glyph or nothing is. -/
theorem Numeral.digits_append {ds rest : List Char} (h : ds.all Char.isDigit = true)
    (hRest : ∀ d ∈ rest.head?, d.isDigit = false) : Numeral.digits (ds ++ rest) = ds :=
  takeWhile_append_of_all h hRest

theorem isDigit_opener {c : Char} (h : isOpener c = true) : c.isDigit = false := by
  rcases isOpener_cases h with rfl | rfl | rfl | rfl <;> decide

/-- Neither a fraction nor an exponent starts like an open glyph. -/
theorem Numeral.parts_opener {rest : List Char} (h : ∀ d ∈ rest.head?, isOpener d = true) :
    Numeral.fraction? rest = none ∧ Numeral.exponent? rest = none := by
  cases rest with
  | nil => exact ⟨rfl, rfl⟩
  | cons d rest =>
    rcases isOpener_cases (h d rfl) with rfl | rfl | rfl | rfl <;>
      exact ⟨rfl, by simp [Numeral.exponent?]⟩

/-- What is behind a numeral is no part of it, if an open glyph or nothing is. -/
theorem Numeral.IsPositional.ofChars {n : Numeral} (h : n.IsPositional) {rest : List Char}
    (hRest : ∀ d ∈ rest.head?, isOpener d = true) : Numeral.ofChars (n.chars ++ rest) = n := by
  obtain ⟨whole, fraction, exponent⟩ := n
  obtain ⟨-, hWhole, hFraction, rfl⟩ := h
  obtain ⟨hNoFraction, hNoExponent⟩ := parts_opener hRest
  have hDigits : ∀ d ∈ rest.head?, d.isDigit = false := fun d hd => isDigit_opener (hRest d hd)
  cases fraction with
  | none =>
    have hChars : Numeral.chars ⟨whole, none, none⟩ ++ rest = whole ++ rest := by
      simp [Numeral.chars, Numeral.fractionChars]
    simp only [hChars, Numeral.ofChars, digits_append hWhole hDigits, List.drop_left, hNoFraction,
      Numeral.fractionChars, List.length_nil, List.drop_zero, hNoExponent]
  | some ds =>
    obtain ⟨hSome, hAll⟩ := hFraction ds rfl
    have hChars : Numeral.chars ⟨whole, some ds, none⟩ ++ rest = whole ++ '.' :: (ds ++ rest) := by
      simp [Numeral.chars, Numeral.fractionChars]
    have hStarts : Numeral.startsWithDigit (ds ++ rest) = true := by
      cases ds with
      | nil => exact absurd rfl hSome
      | cons d ds =>
        simp only [List.all_cons, Bool.and_eq_true] at hAll
        exact hAll.1
    have hFirst : Numeral.digits (whole ++ '.' :: (ds ++ rest)) = whole :=
      digits_append hWhole (by simp [show Char.isDigit '.' = false from by decide])
    have hSecond : Numeral.fraction? ('.' :: (ds ++ rest)) = some ds := by
      rw [Numeral.fraction?, if_pos hStarts, digits_append hAll hDigits]
    have hLeft : List.drop (ds.length + 1) ('.' :: (ds ++ rest)) = rest := by simp
    simp only [hChars, Numeral.ofChars, hFirst, List.drop_left, hSecond, Numeral.fractionChars,
      List.length_cons, hLeft, hNoExponent]

theorem isBlank_digit {c : Char} (h : c.isDigit = true) : Text.isBlank c = false := by
  have hNe : c ≠ ' ' := by
    rintro rfl
    exact absurd h (by decide)
  have hRange : 48 ≤ c.toNat ∧ c.toNat ≤ 57 := by
    simpa [Char.isDigit, UInt32.le_iff_toNat_le] using h
  simp only [Text.isBlank, hNe, Text.inRanges, Text.blankRanges]
  simp
  omega

theorem isLexeme_number {n : Numeral} {rest : List Char} (h : n.IsPositional)
    (hRest : ∀ d ∈ rest.head?, isOpener d = true) : IsLexeme n.chars rest n.kind := by
  have hNumeral := h.ofChars hRest
  cases hWhole : n.whole with
  | nil => exact absurd hWhole h.nonempty
  | cons c cs =>
    have hDigit : c.isDigit = true := by
      have hAll := h.whole
      simp only [hWhole, List.all_cons, Bool.and_eq_true] at hAll
      exact hAll.1
    have hNe : ∀ d : Char, d.isDigit = false → c ≠ d := by
      rintro d hd rfl
      exact Bool.noConfusion (hDigit.symm.trans hd)
    obtain ⟨ds, hChars⟩ : ∃ ds, n.chars = c :: ds := ⟨_, by rw [Numeral.chars, hWhole]; rfl⟩
    refine ⟨c, ds, hChars, ?_, ?_⟩
    · rw [hChars]
      exact gapLength_eq_zero (isBlank_digit hDigit) (fun h => absurd h (hNe '-' (by decide)))
        fun h => absurd h (hNe '/' (by decide))
    · have hStarts : Numeral.startsAt (c :: (ds ++ rest)) = true := by
        simp [Numeral.startsAt, hDigit]
      rw [hChars, List.cons_append] at hNumeral
      simp only [lexeme, hStarts, hNumeral, hChars, ↓reduceIte, List.length_cons,
        Nat.add_sub_cancel]

theorem isLexeme_integer {n : Nat} {rest : List Char} (hn : n ≤ Numeral.maxInteger)
    (hRest : ∀ d ∈ rest.head?, isOpener d = true) :
    IsLexeme (toString n).toList rest (Glyph.integerKind n) := by
  have hLexeme := isLexeme_number (isPositional_toDigits n) hRest
  have hValue : Nat.ofDigitChars 10 (Nat.toDigits 10 n) 0 = n := Nat.ofDigitChars_ten_toDigits
  have hKind : (Numeral.mk (Nat.toDigits 10 n) none none).kind = Glyph.integerKind n := by
    simp [Numeral.kind, hValue, hn, Glyph.integerKind]
  have hChars : (Numeral.mk (Nat.toDigits 10 n) none none).chars = (toString n).toList := by
    simp [Numeral.chars, Numeral.fractionChars]
  rwa [hKind, hChars] at hLexeme

/-! ## Strings -/

/-- Quoted text is read up to its closing character, unless another one follows. -/
theorem QuoteStyle.read_escaped {style : QuoteStyle} (hDoubles : style.doubles = true)
    (cs rest : List Char) (hRest : ∀ d ∈ rest.head?, d ≠ style.closing) :
    style.read (style.escaped cs ++ style.closing :: rest) =
      some ⟨cs, (style.escaped cs).length + 1⟩ := by
  induction cs with
  | nil =>
    cases rest with
    | nil => simp [escaped, read]
    | cons d rest => simp [escaped, read, hRest d rfl]
  | cons c cs ih =>
    by_cases hClosing : c = style.closing
    · have hBoth : style.doubles = true ∧ c = style.closing := ⟨hDoubles, hClosing⟩
      rw [escaped, if_pos hClosing, List.cons_append, List.cons_append, read, if_pos hClosing,
        if_pos hBoth, ih]
      rfl
    · simp only [escaped, if_neg hClosing, List.cons_append, List.length_cons]
      cases hTail : style.escaped cs ++ style.closing :: rest with
      | nil => simp at hTail
      | cons d ds =>
        rw [read, if_neg hClosing, ← hTail, ih]
        rfl

theorem isLexeme_string {s : String} {rest : List Char} (hRest : ∀ d ∈ rest.head?, d ≠ '\'') :
    IsLexeme (stringLiteral s).toList rest (.string s) := by
  have hDoubles : QuoteStyle.single.doubles = true := rfl
  have hRead := QuoteStyle.read_escaped hDoubles s.toList rest hRest
  have hBlank : Text.isBlank '\'' = false := by decide
  have hNumeral : ∀ cs, Numeral.startsAt ('\'' :: cs) = false := fun _ => rfl
  have hChars : (stringLiteral s).toList =
      '\'' :: (QuoteStyle.single.escaped s.toList ++ [QuoteStyle.single.closing]) := by
    rw [stringLiteral, String.toList_ofList]
    rfl
  refine ⟨_, _, hChars, ?_, ?_⟩
  · rw [hChars]
    exact gapLength_eq_zero hBlank (fun h => absurd h (by decide)) fun h => absurd h (by decide)
  · rw [List.append_assoc, List.singleton_append, lexeme, hNumeral, if_neg (by simp)]
    simp only [QuoteStyle.single, ↓reduceIte, quotedLexeme] at hRead ⊢
    simp only [hRead, String.ofList_toList, List.length_append, List.length_singleton]

/-! ## Symbols -/

/-- Characters that neither a numeral nor a name nor quoted text starts with, and no gap either
unless two of them make up a comment. -/
def IsPlain (c : Char) : Prop :=
  Text.isBlank c = false ∧ c.isDigit = false ∧ c ≠ QuoteStyle.single.opening ∧
    QuoteStyle.names.find? (·.opening = c) = none ∧ isNameStart c = false

theorem IsPlain.lexeme {c : Char} {cs : List Char} (h : IsPlain c)
    (hDot : c = '.' → Numeral.startsWithDigit cs = false) : lexeme c cs = symbolLexeme c cs := by
  obtain ⟨-, hDigit, hQuote, hNames, hName⟩ := h
  have hNumeral : Numeral.startsAt (c :: cs) = false := by
    simpa [Numeral.startsAt, hDigit] using hDot
  rw [SqlKit.lexeme, hNumeral, if_neg (by simp), if_neg hQuote, hNames]
  simp only [hName, Bool.false_eq_true, ↓reduceIte]

theorem isPlain_of_oneCharSymbol? {c : Char} {s : Symbol} (h : oneCharSymbol? c = some s) :
    IsPlain c := by
  unfold oneCharSymbol? at h
  split at h <;> first | exact ⟨by decide, by decide, by decide, by decide, by decide⟩ | cases h

/-- A symbol of one character, unless it makes up more with the character behind it. -/
theorem isLexeme_oneChar {c : Char} {s : Symbol} {rest : List Char}
    (h : oneCharSymbol? c = some s) (hTwo : ∀ d ∈ rest.head?, twoCharSymbol? c d = none)
    (hDash : c = '-' → rest.head? ≠ some '-') (hSlash : c = '/' → rest.head? ≠ some '*')
    (hDot : c = '.' → Numeral.startsWithDigit rest = false) : IsLexeme [c] rest (.symbol s) := by
  have hPlain := isPlain_of_oneCharSymbol? h
  refine ⟨c, [], rfl, gapLength_eq_zero hPlain.1 hDash hSlash, ?_⟩
  rw [List.nil_append, hPlain.lexeme hDot, symbolLexeme, Option.bind_eq_none_iff.mpr hTwo, h]
  rfl

/-- A question mark is cut off in front of anything. -/
theorem isLexeme_question (rest : List Char) : IsLexeme ['?'] rest (.symbol .question) :=
  isLexeme_oneChar (by decide) (by simp [twoCharSymbol?]) (by simp) (by simp) (by simp)

theorem twoCharSymbol?_cases {c d : Char} {s : Symbol} (h : twoCharSymbol? c d = some s) :
    IsPlain c ∧ c ≠ '-' ∧ c ≠ '/' ∧ c ≠ '.' := by
  unfold twoCharSymbol? at h
  split at h <;> first
    | exact ⟨⟨by decide, by decide, by decide, by decide, by decide⟩, by decide, by decide,
        by decide⟩
    | cases h

/-- A symbol of two characters, whatever follows. -/
theorem isLexeme_twoChar {c d : Char} {s : Symbol} (h : twoCharSymbol? c d = some s)
    (rest : List Char) : IsLexeme [c, d] rest (.symbol s) := by
  obtain ⟨hPlain, hDash, hSlash, hDot⟩ := twoCharSymbol?_cases h
  refine ⟨c, [d], rfl, ?_, ?_⟩
  · exact gapLength_eq_zero hPlain.1 (fun h => absurd h hDash) fun h => absurd h hSlash
  · rw [hPlain.lexeme fun h => absurd h hDot, symbolLexeme, List.singleton_append, List.head?_cons,
      Option.bind_some, h]
    rfl

/-- A symbol is written with one character, or with two. -/
theorem Symbol.toList_written (s : Symbol) :
    (∃ c, s.written.toList = [c] ∧ oneCharSymbol? c = some s) ∨
      ∃ c d, s.written.toList = [c, d] ∧ twoCharSymbol? c d = some s := by
  cases s <;> first
    | exact Or.inl ⟨_, by simp only [written, text]; rfl, by decide⟩
    | exact Or.inr ⟨_, _, by simp only [written, text]; rfl, by decide⟩

/-! ## Glyphs -/

namespace Glyph

/-- What a glyph asks of the character behind it, so that it is cut off there. -/
def clears : Glyph → Char → Bool
  | .blank, _ => true
  | .name _, d | .keyword _, d => !isNamePart d
  | .symbol .minus, d => d ≠ '-'
  | .symbol .dot, d => !d.isDigit
  | .symbol .plus, _ | .symbol .colon, _ | .symbol .atSign, _ => true
  | .symbol .leftParen, _ | .symbol .rightParen, _ | .symbol .comma, _ => true
  | .symbol _, d | .integer _, d | .numeral _, d | .string _, d | .mark _, d => isOpener d

theorem clears_opener (g : Glyph) {d : Char} (h : isOpener d = true) : g.clears d = true := by
  have hPart : isNamePart d = false := isNamePart_opener h
  have hDigit : d.isDigit = false := by
    rcases isOpener_cases h with rfl | rfl | rfl | rfl <;> decide
  have hDash : d ≠ '-' := by
    rintro rfl
    exact absurd h (by decide)
  unfold clears
  split <;> simp [hPart, hDigit, hDash, h]

theorem clears_of_isOpen {g : Glyph} (h : g.isOpen = true) (d : Char) : g.clears d = true := by
  unfold isOpen at h
  split at h <;> first | rfl | cases h

theorem isOpener_of_isOpen {g : Glyph} {d : Char} {ds : List Char} (h : g.isOpen = true)
    (hChars : g.chars = d :: ds) : isOpener d = true := by
  unfold isOpen at h
  split at h
  · obtain ⟨rfl, -⟩ := List.cons.inj hChars
    decide
  all_goals first
    | simp [chars, Symbol.written, Symbol.text] at hChars
      obtain ⟨rfl, -⟩ := hChars
      decide
    | cases h

theorem isNameStart_of_isWord {cs : List Char} {d : Char} {ds : List Char} (h : isWord cs = true)
    (hChars : cs = d :: ds) : isNameStart d = true := by
  subst hChars
  simp only [isWord, Bool.and_eq_true] at h
  exact h.1.1

/-- Only a minus starts with a minus. -/
theorem ne_dash {g : Glyph} {d : Char} {ds : List Char} (hFits : g.Fits)
    (hg : g ≠ .symbol .minus) (hChars : g.chars = d :: ds) : d ≠ '-' := by
  rintro rfl
  have hStart : isNameStart '-' = false := by decide
  cases g with
  | blank => cases hChars
  | name text =>
    exact Bool.noConfusion (hStart.symm.trans (isNameStart_of_isWord hFits.word hChars))
  | keyword w =>
    exact Bool.noConfusion (hStart.symm.trans (isNameStart_of_isWord (isWord_keyword w) hChars))
  | symbol s =>
    rcases s.toList_written with ⟨c, hWritten, hOne⟩ | ⟨c, d, hWritten, hTwo⟩
    · obtain ⟨rfl, -⟩ := List.cons.inj (hWritten.symm.trans hChars)
      exact hg (congrArg Glyph.symbol (Option.some.inj hOne).symm)
    · obtain ⟨rfl, -⟩ := List.cons.inj (hWritten.symm.trans hChars)
      exact (twoCharSymbol?_cases hTwo).2.1 rfl
  | integer n =>
    have hAll := all_isDigit_toDigits n
    rw [← toList_toString_nat, show (toString n).toList = '-' :: ds from hChars] at hAll
    exact absurd hAll (by simp)
  | numeral n =>
    obtain ⟨hSome, hWhole, -, -⟩ := hFits
    cases hDigits : n.whole with
    | nil => exact hSome hDigits
    | cons c cs =>
      rw [chars, Numeral.chars, hDigits] at hChars
      obtain ⟨rfl, -⟩ := List.cons.inj hChars
      simp [hDigits] at hWhole
  | string s =>
    rw [chars, stringLiteral, String.toList_ofList] at hChars
    exact absurd (List.cons.inj hChars).1 (by decide)
  | mark number =>
    cases number with
    | none => cases hChars
    | some n => exact absurd (List.cons.inj hChars).1 (by decide)

/-- A glyph is cut off in front of any glyph that may follow it. -/
theorem clears_of_meets {g k : Glyph} {d : Char} {ds : List Char} (hFits : k.Fits)
    (h : g.meets k = true) (hChars : k.chars = d :: ds) : g.clears d = true := by
  simp only [meets, Bool.or_eq_true] at h
  rcases h with (hg | hk) | h
  · exact clears_of_isOpen hg d
  · exact g.clears_opener (isOpener_of_isOpen hk hChars)
  · unfold allows at h
    split at h
    · simp [chars, Symbol.written, Symbol.text] at hChars
      obtain ⟨rfl, -⟩ := hChars
      change (!isNamePart '.') = true
      decide
    · simp [chars, Symbol.written, Symbol.text] at hChars
      obtain ⟨rfl, -⟩ := hChars
      change (!isNamePart ':') = true
      decide
    · simp [clears, isDigit_nameStart (isNameStart_of_isWord hFits.word hChars)]
    · simp [chars, Symbol.written, Symbol.text] at hChars
      obtain ⟨rfl, -⟩ := hChars
      decide
    · rfl
    · rfl
    · rfl
    · simpa [clears] using ne_dash hFits (by simpa using h) hChars
    · cases h

/-- A symbol of one character makes up no more with a character that it is cut off in front of. -/
theorem apart_of_clears {s : Symbol} {c d : Char} (hOne : oneCharSymbol? c = some s)
    (h : (symbol s).clears d = true) : twoCharSymbol? c d = none ∧ (c = '-' → d ≠ '-') ∧
      (c = '/' → d ≠ '*') ∧ (c = '.' → d.isDigit = false) := by
  unfold oneCharSymbol? at hOne
  split at hOne
  case h_18 => cases hOne
  all_goals
    obtain rfl := Option.some.inj hOne
    first
    | have hOpener : isOpener d = true := h
      rcases isOpener_cases hOpener with rfl | rfl | rfl | rfl <;> decide
    | simp_all [clears, twoCharSymbol?]

/-- A glyph of one token is cut off as this token in front of what it may be followed by. -/
theorem isLexeme {g : Glyph} {kind : TokenKind} {rest : List Char} (hKinds : g.kinds = [kind])
    (hFits : g.Fits) (hRest : ∀ d ∈ rest.head?, g.clears d = true) :
    IsLexeme g.chars rest kind := by
  cases g with
  | blank => cases hKinds
  | name text =>
    obtain rfl := List.singleton_inj.mp hKinds
    exact isLexeme_word hFits.word (by simpa [clears] using hRest)
  | keyword w =>
    obtain rfl := List.singleton_inj.mp hKinds
    rw [← wordKind_keyword]
    exact isLexeme_word (isWord_keyword w) (by simpa [clears] using hRest)
  | integer n =>
    obtain rfl := List.singleton_inj.mp hKinds
    exact isLexeme_integer hFits (by simpa [clears] using hRest)
  | numeral n =>
    obtain rfl := List.singleton_inj.mp hKinds
    exact isLexeme_number hFits (by simpa [clears] using hRest)
  | string s =>
    obtain rfl := List.singleton_inj.mp hKinds
    refine isLexeme_string fun d hd => ?_
    rcases isOpener_cases (hRest d hd) with rfl | rfl | rfl | rfl <;> decide
  | mark number =>
    cases number with
    | some n => exact absurd (congrArg List.length hKinds) (by simp [kinds])
    | none =>
      obtain rfl := List.singleton_inj.mp hKinds
      exact isLexeme_question rest
  | symbol s =>
    obtain rfl := List.singleton_inj.mp hKinds
    rcases s.toList_written with ⟨c, hWritten, hOne⟩ | ⟨c, d, hWritten, hTwo⟩
    · rw [chars, hWritten]
      cases rest with
      | nil => exact isLexeme_oneChar hOne (by simp) (by simp) (by simp) fun _ => rfl
      | cons d rest =>
        obtain ⟨hTwo, hDash, hSlash, hDot⟩ := apart_of_clears hOne (hRest d rfl)
        refine isLexeme_oneChar hOne (by simpa using hTwo) ?_ ?_ ?_
        · simpa using hDash
        · simpa using hSlash
        · simpa [Numeral.startsWithDigit] using hDot
    · rw [chars, hWritten]
      exact isLexeme_twoChar hTwo rest

end Glyph

/-! ## Rows -/

/-- Tokens that touch each other, from one place up to another. -/
def Touching : Position → List Token → Position → Prop
  | p, [], q => p = q
  | p, t :: ts, q => t.span.first = p ∧ Touching t.span.last ts q

namespace Script

theorem ne_nil_chars {g : Glyph} (h : g.Fits) : g.chars ≠ [] := by
  cases g with
  | blank => simp [Glyph.chars]
  | name text =>
    intro hText
    exact absurd h.word (by simp [show text.toList = [] from hText, isWord])
  | keyword w =>
    intro hText
    exact absurd (isWord_keyword w) (by simp [show w.text.toList = [] from hText, isWord])
  | symbol s =>
    rcases s.toList_written with ⟨c, hWritten, -⟩ | ⟨c, d, hWritten, -⟩ <;>
      simp [Glyph.chars, hWritten]
  | integer n => simp [Glyph.chars, Nat.toDigits_ne_nil]
  | numeral n =>
    simp [Glyph.chars, Numeral.chars, h.nonempty]
  | string s => simp [Glyph.chars, stringLiteral, QuoteStyle.write]
  | mark number => cases number <;> simp [Glyph.chars]

/-- The first character of a row is the first one of its first glyph. -/
theorem head?_chars {gs : Script} (hFits : ∀ g ∈ gs, g.Fits) {d : Char}
    (hd : d ∈ (chars gs).head?) :
    ∃ g ∈ gs.head?, ∃ ds, g.Fits ∧ g.chars = d :: ds := by
  cases gs with
  | nil => cases hd
  | cons g gs =>
    have hg := hFits g List.mem_cons_self
    cases hChars : g.chars with
    | nil => exact absurd hChars (ne_nil_chars hg)
    | cons c cs =>
      rw [chars_cons, hChars, List.cons_append, List.head?_cons] at hd
      obtain rfl := Option.some.inj hd
      exact ⟨g, rfl, cs, hg, hChars⟩

/-- A glyph is cut off in front of a row whose first glyph may follow it. -/
theorem clears_chars {g : Glyph} {gs : Script} (hFits : ∀ k ∈ gs, k.Fits)
    (hMeets : ∀ k ∈ gs.head?, g.meets k = true) : ∀ d ∈ (chars gs).head?, g.clears d = true := by
  intro d hd
  obtain ⟨k, hk, ds, hkFits, hChars⟩ := head?_chars hFits hd
  exact Glyph.clears_of_meets hkFits (hMeets k hk) hChars

/-- A glyph other than a blank is read as its tokens, which touch each other. -/
theorem exists_tokens {g : Glyph} {rest : List Char} (hFits : g.Fits) (hBlank : g ≠ .blank)
    (hClears : ∀ d ∈ rest.head?, g.clears d = true) (p : Position) :
    ∃ ts q, (Cursor.mk p (g.chars ++ rest)).tokens = ts ++ (Cursor.mk q rest).tokens ∧
      q = p.advance g.chars.length (g.chars ++ rest) ∧ Touching p ts q ∧
      ∀ gs us, Spells gs us → Spells (g :: gs) (ts ++ us) := by
  by_cases hMark : ∃ n, g = .mark (some n)
  · obtain ⟨n, rfl⟩ := hMark
    obtain ⟨t, q, hTokens, hKind, -, hSpan, rfl⟩ :=
      (isLexeme_question ((toString n).toList ++ rest)).tokens p
    obtain ⟨u, r, hTokens', hKind', -, hSpan', rfl⟩ := (isLexeme_integer hFits hClears).tokens _
    have hChars :
      Glyph.chars (.mark (some n)) ++ rest = ['?'] ++ ((toString n).toList ++ rest) := rfl
    refine ⟨[t, u], _, by rw [hChars, hTokens, hTokens']; rfl, rfl, ?_, fun gs us h => ?_⟩
    · simp only [Touching, hSpan, hSpan', true_and]
      rfl
    · exact .mark hKind hKind' (by rw [hSpan, hSpan']) h
  · obtain ⟨kind, hKinds⟩ : ∃ kind, g.kinds = [kind] := by
      cases g with
      | blank => exact absurd rfl hBlank
      | mark number =>
        cases number with
        | none => exact ⟨_, rfl⟩
        | some n => exact absurd ⟨n, rfl⟩ hMark
      | name | keyword | symbol | integer | numeral | string => exact ⟨_, rfl⟩
    obtain ⟨t, q, hTokens, hKind, hText, hSpan, rfl⟩ :=
      (Glyph.isLexeme hKinds hFits hClears).tokens p
    refine ⟨[t], _, hTokens, rfl, ?_, fun gs us h => ?_⟩
    · simp only [Touching, hSpan, and_self]
    · refine .token ⟨hKind ▸ hKinds, ?_⟩ h
      rintro n rfl
      rw [hText, show (Glyph.name n).chars = n.toList from rfl, String.ofList_toList]

/-- The text of a legal row is read as its tokens. -/
theorem Legal.spells {gs : Script} (h : Legal gs) (p : Position) :
    Spells gs (Cursor.mk p (chars gs)).tokens := by
  induction gs generalizing p with
  | nil =>
    rw [chars_nil, Cursor.tokens_nil]
    exact .nil
  | cons g gs ih =>
    obtain ⟨hFits, hMeets, hLegal⟩ := legal_cons.mp h
    rw [chars_cons]
    by_cases hBlank : g = .blank
    · rw [hBlank, show Glyph.blank.chars = [' '] from rfl, List.singleton_append, tokens_blank]
      exact .blank (ih hLegal _)
    · have hClears := clears_chars hLegal.fits hMeets
      obtain ⟨ts, q, hTokens, -, -, hSpells⟩ := exists_tokens hFits hBlank hClears p
      rw [hTokens]
      exact hSpells gs _ (ih hLegal q)

end Script

end SqlKit
