import SqlKit.Proofs.Simulation.Respelling
import SqlKit.Proofs.Token.Boundary
import Mathlib.Data.List.Forall2

/-!
# Texts in another letter case

A text is written in another letter case when ASCII letters of it are changed from capital to small
or back, save inside of strings and quoted names (`Recased`). Everything that the lexer asks about a
character is the same for a letter in either case, so that both texts are cut at the same places
(`Cursor.tokens_recased`): a word is the same keyword, a number has the same value whatever the
letter of its exponent, and a bare name is the same name up to letter case.
-/

namespace SqlKit

/-! ## Letters -/

namespace Text

theorem toNat_toLower (c : Char) :
    c.toLower.toNat = if 65 ≤ c.toNat ∧ c.toNat ≤ 90 then c.toNat + 32 else c.toNat := by
  unfold Char.toLower
  split
  · next h =>
    have hLow : 65 ≤ c.toNat := UInt32.le_iff_toNat_le.mp h.1
    have hHigh : c.toNat ≤ 90 := UInt32.le_iff_toNat_le.mp h.2
    rw [if_pos ⟨hLow, hHigh⟩]
    show (c.val + ('a'.val - 'A'.val)).toNat = c.toNat + 32
    have hStep : ('a'.val - 'A'.val).toNat = 32 := by decide
    have hSelf : c.val.toNat = c.toNat := rfl
    rw [UInt32.toNat_add, hStep, hSelf]
    omega
  · next h =>
    rw [if_neg]
    intro h'
    exact h ⟨UInt32.le_iff_toNat_le.mpr h'.1, UInt32.le_iff_toNat_le.mpr h'.2⟩

theorem toNat_toUpper (c : Char) :
    c.toUpper.toNat = if 97 ≤ c.toNat ∧ c.toNat ≤ 122 then c.toNat - 32 else c.toNat := by
  unfold Char.toUpper
  split
  · next h =>
    have hLow : 97 ≤ c.toNat := UInt32.le_iff_toNat_le.mp h.1
    have hHigh : c.toNat ≤ 122 := UInt32.le_iff_toNat_le.mp h.2
    rw [if_pos ⟨hLow, hHigh⟩]
    show (c.val + ('A'.val - 'a'.val)).toNat = c.toNat - 32
    have hStep : ('A'.val - 'a'.val).toNat = 4294967264 := by decide
    have hSelf : c.val.toNat = c.toNat := rfl
    rw [UInt32.toNat_add, hStep, hSelf]
    omega
  · next h =>
    rw [if_neg]
    intro h'
    exact h ⟨UInt32.le_iff_toNat_le.mpr h'.1, UInt32.le_iff_toNat_le.mpr h'.2⟩

theorem isAlpha_iff (c : Char) : c.isAlpha = true ↔
    (65 ≤ c.toNat ∧ c.toNat ≤ 90) ∨ (97 ≤ c.toNat ∧ c.toNat ≤ 122) := by
  unfold Char.isAlpha Char.isUpper Char.isLower
  simp only [Bool.or_eq_true, Bool.and_eq_true, decide_eq_true_eq, ge_iff_le,
    UInt32.le_iff_toNat_le]
  rfl

/-- Two characters that are equal up to the case of ASCII letters. -/
def SameLetter (c d : Char) : Prop := c.toLower = d.toLower

instance : DecidableRel SameLetter := fun _ _ => inferInstanceAs (Decidable (_ = _))

namespace SameLetter

variable {c d : Char}

/-- Characters that are equal up to letter case are equal, or ASCII letters with the same capital
letter. -/
theorem cases (h : SameLetter c d) :
    c = d ∨ (c.isAlpha = true ∧ d.isAlpha = true ∧ c.toUpper = d.toUpper) := by
  have hLower := congrArg Char.toNat h
  rw [toNat_toLower, toNat_toLower] at hLower
  rw [isAlpha_iff, isAlpha_iff, ← Char.toNat_inj, ← Char.toNat_inj, toNat_toUpper, toNat_toUpper]
  split at hLower <;> split at hLower <;> split <;> split <;> omega

theorem toUpper_eq (h : SameLetter c d) : c.toUpper = d.toUpper := by
  rcases h.cases with rfl | ⟨-, -, h⟩
  · rfl
  · exact h

/-- What is the same for all ASCII letters is the same for characters that are equal up to letter
case. -/
theorem congr {α : Type} (h : SameLetter c d) (f : Char → α) (a : α)
    (hLetter : ∀ c : Char, c.isAlpha = true → f c = a) : f c = f d := by
  rcases h.cases with rfl | ⟨hc, hd, -⟩
  · rfl
  · rw [hLetter c hc, hLetter d hd]

theorem eq_iff (h : SameLetter c d) {x : Char} (hx : x.isAlpha = false) : c = x ↔ d = x := by
  rcases h.cases with rfl | ⟨hc, hd, -⟩
  · rfl
  · constructor
    · rintro rfl
      rw [hx] at hc
      cases hc
    · rintro rfl
      rw [hx] at hd
      cases hd

/-- A character that is no ASCII letter is not changed. -/
theorem eq_of_not_alpha (h : SameLetter c d) (hc : c.isAlpha = false) : c = d := by
  rcases h.cases with rfl | ⟨hc', -, -⟩
  · rfl
  · rw [hc] at hc'
    cases hc'

theorem utf8Size_eq (h : SameLetter c d) : c.utf8Size = d.utf8Size := by
  refine h.congr Char.utf8Size 1 fun c hc => ?_
  rw [isAlpha_iff] at hc
  rw [Char.utf8Size, if_pos]
  exact UInt32.le_iff_toNat_le.mpr (by show c.toNat ≤ 127; omega)

end SameLetter

theorem isDigit_of_isAlpha {c : Char} (h : c.isAlpha = true) : c.isDigit = false := by
  rw [isAlpha_iff] at h
  rw [Bool.eq_false_iff]
  intro hDigit
  simp only [Char.isDigit, Bool.and_eq_true, decide_eq_true_eq, ge_iff_le,
    UInt32.le_iff_toNat_le] at hDigit
  have hHigh : c.toNat ≤ 57 := hDigit.2
  omega

theorem isBlank_of_isAlpha {c : Char} (h : c.isAlpha = true) : isBlank c = false := by
  have hAscii := (isAlpha_iff c).mp h
  rw [Bool.eq_false_iff]
  intro hBlank
  simp only [isBlank, Bool.or_eq_true, Bool.and_eq_true, decide_eq_true_eq] at hBlank
  rcases hBlank with (rfl | hControl) | hRange
  · cases h
  · omega
  · rw [inRanges_iff] at hRange
    obtain ⟨r, hr, hFirst, -⟩ := hRange
    have hAll : ∀ r ∈ blankRanges, 128 ≤ r.1 := by decide
    have := hAll r hr
    omega

theorem isAlphabetic_of_isAlpha {c : Char} (h : c.isAlpha = true) : isAlphabetic c = true := by
  have hAscii : isAscii c = true := by
    have := (isAlpha_iff c).mp h
    rw [isAscii, decide_eq_true_eq]
    omega
  rw [isAlphabetic, if_pos hAscii, h]

end Text

open Text

theorem isNameStart_of_isAlpha {c : Char} (h : c.isAlpha = true) : isNameStart c = true := by
  rw [isNameStart, isAlphabetic_of_isAlpha h, Bool.true_or]

theorem isNamePart_of_isAlpha {c : Char} (h : c.isAlpha = true) : isNamePart c = true := by
  rw [isNamePart, isAlphanumeric, isAlphabetic_of_isAlpha h, Bool.true_or, Bool.true_or,
    Bool.true_or]

theorem oneCharSymbol?_of_isAlpha {c : Char} (h : c.isAlpha = true) : oneCharSymbol? c = none := by
  unfold oneCharSymbol?
  split <;> first | rfl | cases h

theorem twoCharSymbol?_of_isAlpha {c d : Char} (h : c.isAlpha = true ∨ d.isAlpha = true) :
    twoCharSymbol? c d = none := by
  unfold twoCharSymbol?
  split <;> first | rfl | (rcases h with h | h <;> cases h)

/-! ## Words -/

/-- Characters that are equal one by one up to letter case. -/
abbrev SameLetters (cs ds : List Char) : Prop := List.Forall₂ SameLetter cs ds

namespace SameLetters

variable {cs ds : List Char}

theorem toLower_eq (h : SameLetters cs ds) :
    (String.ofList cs).toLower = (String.ofList ds).toLower := by
  unfold String.toLower
  rw [← String.toList_inj, String.toList_map, String.toList_map,
    String.toList_ofList, String.toList_ofList, ← List.forall₂_eq_eq_eq,
    List.forall₂_map_left_iff, List.forall₂_map_right_iff]
  exact h

theorem toUpper_eq (h : SameLetters cs ds) :
    (String.ofList cs).toUpper = (String.ofList ds).toUpper := by
  rw [String.toUpper, String.toUpper, ← String.toList_inj, String.toList_map, String.toList_map,
    String.toList_ofList, String.toList_ofList, ← List.forall₂_eq_eq_eq,
    List.forall₂_map_left_iff, List.forall₂_map_right_iff]
  exact h.imp fun _ _ h => h.toUpper_eq

/-- The same number of characters are taken for a test that letters pass in either case. -/
theorem takeWhile (h : SameLetters cs ds) {p : Char → Bool} (b : Bool)
    (hLetter : ∀ c : Char, c.isAlpha = true → p c = b) :
    SameLetters (cs.takeWhile p) (ds.takeWhile p) := by
  induction h with
  | nil => exact .nil
  | @cons c d cs ds hHead _ ih =>
    rw [List.takeWhile_cons, List.takeWhile_cons, hHead.congr p b hLetter]
    split
    · exact .cons hHead ih
    · exact .nil

theorem drop (h : SameLetters cs ds) (n : Nat) : SameLetters (cs.drop n) (ds.drop n) :=
  List.forall₂_drop n h

theorem take (h : SameLetters cs ds) (n : Nat) : SameLetters (cs.take n) (ds.take n) :=
  List.forall₂_take n h

theorem head?_eq_iff (h : SameLetters cs ds) {x : Char} (hx : x.isAlpha = false) :
    cs.head? = some x ↔ ds.head? = some x := by
  cases h with
  | nil => rfl
  | cons hHead _ =>
    rw [List.head?_cons, List.head?_cons, Option.some_inj, Option.some_inj]
    exact hHead.eq_iff hx

/-- Characters that are no letters are not changed. -/
theorem eq_of_not_alpha (h : SameLetters cs ds) (hAll : ∀ c ∈ cs, c.isAlpha = false) :
    cs = ds := by
  induction h with
  | nil => rfl
  | @cons c d cs ds hHead _ ih =>
    rw [hHead.eq_of_not_alpha (hAll c List.mem_cons_self),
      ih fun c hc => hAll c (List.mem_cons_of_mem _ hc)]

end SameLetters

/-- Names and words in another letter case. -/
def Erasure.letterCase : Erasure := ⟨String.toLower, id⟩

theorem lawful_letterCase : Erasure.letterCase.Lawful := by
  refine ⟨fun h => h, ?_, Or.inr fun _ _ h => h⟩
  intro a b c d h h'
  show (a ++ c).toLower = (b ++ d).toLower
  have hAppend : ∀ x y : String, (x ++ y).toLower = x.toLower ++ y.toLower := by
    intro x y
    unfold String.toLower
    rw [← String.toList_inj, String.toList_map,
      String.toList_append, String.toList_append, List.map_append, String.toList_map,
      String.toList_map]
  have hFront : a.toLower = b.toLower := h
  have hBack : c.toLower = d.toLower := h'
  rw [hAppend, hAppend, hFront, hBack]

/-- A word in another letter case is the same keyword, or the same bare name up to letter case. -/
theorem wordKind_respelled {cs ds : List Char} (h : SameLetters cs ds) :
    (wordKind (String.ofList cs)).Respelled .letterCase (wordKind (String.ofList ds)) := by
  have hSame : Keyword.ofText? (String.ofList cs) = Keyword.ofText? (String.ofList ds) := by
    unfold Keyword.ofText?
    rw [h.toUpper_eq]
  unfold wordKind
  rw [hSame]
  split
  · exact Or.inl rfl
  · exact Or.inr ⟨_, _, rfl, rfl, h.toLower_eq⟩

/-! ## Numerals -/

namespace Numeral

variable {cs ds : List Char}

theorem digits_eq (h : SameLetters cs ds) : digits cs = digits ds := by
  refine (h.takeWhile (p := Char.isDigit) false fun c => isDigit_of_isAlpha).eq_of_not_alpha ?_
  intro c hc
  have hDigit : c.isDigit = true := List.all_eq_true.mp List.all_takeWhile c hc
  by_contra hAlpha
  rw [isDigit_of_isAlpha (by simpa using hAlpha)] at hDigit
  cases hDigit

theorem startsWithDigit_eq (h : SameLetters cs ds) : startsWithDigit cs = startsWithDigit ds := by
  cases h with
  | nil => rfl
  | cons hHead _ => exact hHead.congr Char.isDigit false fun c => isDigit_of_isAlpha

theorem startsAt_eq (h : SameLetters cs ds) : startsAt cs = startsAt ds := by
  cases h with
  | nil => rfl
  | @cons c d cs ds hHead hTail =>
    have hPoint := hHead.eq_iff (x := '.') rfl
    rw [startsAt, startsAt, hHead.congr Char.isDigit false fun c => isDigit_of_isAlpha,
      startsWithDigit_eq hTail]
    simp only [hPoint]

theorem fraction?_eq (h : SameLetters cs ds) : fraction? cs = fraction? ds := by
  cases h with
  | nil => rfl
  | @cons c d cs ds hHead hTail =>
    by_cases hPoint : c = '.'
    · obtain rfl := hPoint
      obtain rfl := (hHead.eq_iff rfl).mp rfl
      rw [fraction?, fraction?, startsWithDigit_eq hTail, digits_eq hTail]
    · have hPoint' : d ≠ '.' := fun hd => hPoint ((hHead.eq_iff rfl).mpr hd)
      have hNone : ∀ {x : Char} {xs : List Char}, x ≠ '.' → fraction? (x :: xs) = none := by
        intro x xs hx
        unfold fraction?
        split
        · next heq => exact absurd (List.cons.inj heq).1 hx
        · rfl
      rw [hNone hPoint, hNone hPoint']

/-- Two exponents that differ in their letters only. -/
def SameExponent (x y : Exponent) : Prop := x.sign = y.sign ∧ x.digits = y.digits

theorem isExponentLetter_iff {c d : Char} (h : SameLetter c d) :
    c = 'e' ∨ c = 'E' ↔ d = 'e' ∨ d = 'E' := by
  have hLower : ∀ c : Char, c = 'e' ∨ c = 'E' ↔ c.toLower = 'e' := by
    intro c
    rw [← Char.toNat_inj, ← Char.toNat_inj, ← Char.toNat_inj, toNat_toLower]
    show c.toNat = 101 ∨ c.toNat = 69 ↔ _ = 101
    split <;> omega
  have hSame : c.toLower = d.toLower := h
  rw [hLower, hLower, hSame]

theorem exponent?_rel (h : SameLetters cs ds) :
    Option.Rel SameExponent (exponent? cs) (exponent? ds) := by
  cases h with
  | nil => exact .none
  | @cons c d cs ds hHead hTail =>
    have hSign : (cs.head?.filter fun c => c = '+' || c = '-') =
        ds.head?.filter fun c => c = '+' || c = '-' := by
      cases hTail with
      | nil => rfl
      | @cons x y xs ys hNext _ =>
        have hPlus := hNext.eq_iff (x := '+') rfl
        have hMinus := hNext.eq_iff (x := '-') rfl
        rw [List.head?_cons, List.head?_cons, Option.filter_some, Option.filter_some]
        simp only [hPlus, hMinus]
        split
        · next hEither =>
          simp only [Bool.or_eq_true, decide_eq_true_eq] at hEither
          rcases hEither with rfl | rfl
          · rw [hPlus.mpr rfl]
          · rw [hMinus.mpr rfl]
        · rfl
    have hRest : ∀ n, SameLetters (cs.drop n) (ds.drop n) := fun n => List.forall₂_drop n hTail
    rw [exponent?, exponent?]
    dsimp only
    rw [hSign]
    simp only [isExponentLetter_iff hHead]
    split
    · rw [startsWithDigit_eq (hRest _), digits_eq (hRest _)]
      split
      · exact .some ⟨rfl, rfl⟩
      · exact .none
    · exact .none

/-- The numeral at the start of a text in another letter case is the same but for the letter of its
exponent. -/
theorem ofChars_rel (h : SameLetters cs ds) :
    (ofChars cs).whole = (ofChars ds).whole ∧ (ofChars cs).fraction = (ofChars ds).fraction ∧
      Option.Rel SameExponent (ofChars cs).exponent (ofChars ds).exponent := by
  unfold ofChars
  dsimp only
  rw [digits_eq h, fraction?_eq (h.drop _)]
  exact ⟨rfl, rfl, exponent?_rel ((h.drop _).drop _)⟩

theorem value_eq {x y : Option Exponent} (h : Option.Rel SameExponent x y) :
    x.map Exponent.value = y.map Exponent.value := by
  cases h with
  | none => rfl
  | some hSame =>
    rw [Option.map_some, Option.map_some, Exponent.value, Exponent.value, hSame.1, hSame.2]

theorem length_exponent_eq {x y : Option Exponent} (h : Option.Rel SameExponent x y) :
    ((x.map Exponent.chars).getD []).length = ((y.map Exponent.chars).getD []).length := by
  cases h with
  | none => rfl
  | some hSame =>
    rw [Option.map_some, Option.map_some, Option.getD_some, Option.getD_some, Exponent.chars,
      Exponent.chars, List.length_cons, List.length_cons, hSame.1, hSame.2]

theorem kind_eq (h : SameLetters cs ds) : (ofChars cs).kind = (ofChars ds).kind := by
  obtain ⟨hWhole, hFraction, hExponent⟩ := ofChars_rel h
  unfold kind toBinary64
  rw [hWhole, hFraction, value_eq hExponent, ← Option.not_isSome, ← Option.not_isSome,
    ← Option.not_isSome, Grammar.isSome_eq_of_rel hExponent]

theorem length_chars_eq (h : SameLetters cs ds) :
    (ofChars cs).chars.length = (ofChars ds).chars.length := by
  obtain ⟨hWhole, hFraction, hExponent⟩ := ofChars_rel h
  unfold chars
  simp only [List.length_append]
  rw [hWhole, hFraction, length_exponent_eq hExponent]

end Numeral

/-! ## Quoted text -/

namespace QuoteStyle

/-- Two readings of quoted text: none, or texts of the same extent, which are equal where the
characters are. -/
def SameContent (cs ds : List Char) (x y : Option Content) : Prop :=
  (x = none ∧ y = none) ∨ ∃ u v, x = some u ∧ y = some v ∧ u.extent = v.extent ∧
    (cs.take u.extent = ds.take u.extent → u = v)

theorem SameContent.cons {front back cs ds : List Char} {x y : Option Content} {c d : Char}
    (h : SameContent cs ds x y) (hLength : front.length = back.length)
    (hChar : front = back → c = d) :
    SameContent (front ++ cs) (back ++ ds) (x.map (Content.cons c front.length))
      (y.map (Content.cons d back.length)) := by
  rcases h with ⟨rfl, rfl⟩ | ⟨u, v, rfl, rfl, hExtent, hSame⟩
  · exact Or.inl ⟨rfl, rfl⟩
  · refine Or.inr ⟨_, _, rfl, rfl, ?_, ?_⟩
    · simp only [Content.cons, hExtent, hLength]
    · intro hTake
      have hCut : front ++ cs.take u.extent = back ++ ds.take u.extent := by
        simpa [Content.cons, List.take_append, hLength, List.take_of_length_le] using hTake
      obtain ⟨hFront, hBack⟩ := List.append_inj hCut hLength
      rw [hSame hBack, hChar hFront, hLength]

/-- Quoted text ends at the same character in either letter case. -/
theorem read_recased {style : QuoteStyle} (hClosing : style.closing.isAlpha = false)
    {cs ds : List Char} (h : SameLetters cs ds) :
    SameContent cs ds (style.read cs) (style.read ds) := by
  induction cs using read.induct style generalizing ds with
  | case1 =>
    cases h
    exact Or.inl ⟨rfl, rfl⟩
  | case2 =>
    obtain _ | ⟨hHead, hTail⟩ := h
    cases hTail
    obtain rfl := (hHead.eq_iff hClosing).mp rfl
    rw [read, if_pos rfl]
    exact Or.inr ⟨_, _, rfl, rfl, rfl, fun _ => rfl⟩
  | case3 c hc =>
    obtain _ | ⟨hHead, hTail⟩ := h
    cases hTail
    have hd := mt (hHead.eq_iff hClosing).mpr hc
    rw [read, read, if_neg hc, if_neg hd]
    exact Or.inl ⟨rfl, rfl⟩
  | case4 d cs hDoubled ih =>
    obtain _ | ⟨hHead, hTail⟩ := h
    obtain _ | ⟨hNext, hTail⟩ := hTail
    obtain rfl := (hHead.eq_iff hClosing).mp rfl
    have hSecond := (hNext.eq_iff hClosing).mp hDoubled.2
    rw [read, read, if_pos rfl, if_pos rfl, if_pos hDoubled, if_pos ⟨hDoubled.1, hSecond⟩,
      hDoubled.2, hSecond]
    have hRest := ih hTail
    exact @SameContent.cons [_, _] [_, _] _ _ _ _ _ _ hRest rfl fun _ => rfl
  | case5 d cs hDoubled =>
    obtain _ | ⟨hHead, hTail⟩ := h
    obtain _ | ⟨hNext, hTail⟩ := hTail
    obtain rfl := (hHead.eq_iff hClosing).mp rfl
    have hDoubled' := mt (And.imp_right (hNext.eq_iff hClosing).mpr) hDoubled
    rw [read, read, if_pos rfl, if_pos rfl, if_neg hDoubled, if_neg hDoubled']
    exact Or.inr ⟨_, _, rfl, rfl, rfl, fun _ => rfl⟩
  | case6 c d cs hc ih =>
    obtain _ | ⟨hHead, hTail⟩ := h
    have hRest := ih hTail
    obtain _ | ⟨hNext, hTail⟩ := hTail
    have hd := mt (hHead.eq_iff hClosing).mpr hc
    rw [read, read, if_neg hc, if_neg hd]
    exact @SameContent.cons [_] [_] _ _ _ _ _ _ hRest rfl fun hEqual => (List.cons.inj hEqual).1

end QuoteStyle

/-- Whether a kind is that of a string or of a quoted name. -/
def TokenKind.isQuoted : TokenKind → Bool
  | .string _ => true
  | .identifier name => name.quoted
  | _ => false

theorem quotedLexeme_recased {style : QuoteStyle} (hClosing : style.closing.isAlpha = false)
    {kind : String → TokenKind} (hKind : ∀ s, (kind s).isQuoted = true) {cs ds : List Char}
    (h : SameLetters cs ds)
    (hQuoted : (quotedLexeme style kind cs).kind.isQuoted = true →
      cs.take (quotedLexeme style kind cs).tail = ds.take (quotedLexeme style kind cs).tail) :
    quotedLexeme style kind cs = quotedLexeme style kind ds := by
  rcases QuoteStyle.read_recased hClosing h with ⟨hNone, hNone'⟩ | ⟨u, v, hu, hv, -, hSame⟩
  · simp only [quotedLexeme, hNone, hNone', h.length_eq]
  · simp only [quotedLexeme, hu, hv] at hQuoted ⊢
    rw [hSame (hQuoted (hKind _))]

/-! ## Lexemes -/

theorem symbolLexeme_eq {c d : Char} {cs ds : List Char} (hHead : SameLetter c d)
    (hTail : SameLetters cs ds) : symbolLexeme c cs = symbolLexeme d ds := by
  have hOne : oneCharSymbol? c = oneCharSymbol? d :=
    hHead.congr oneCharSymbol? none fun c => oneCharSymbol?_of_isAlpha
  have hTwo : cs.head?.bind (twoCharSymbol? c) = ds.head?.bind (twoCharSymbol? d) := by
    cases hTail with
    | nil => rfl
    | @cons x y xs ys hNext _ =>
      rw [List.head?_cons, List.head?_cons, Option.bind_some, Option.bind_some,
        hHead.congr (fun c => twoCharSymbol? c x) none fun c hc =>
          twoCharSymbol?_of_isAlpha (Or.inl hc)]
      exact hNext.congr (twoCharSymbol? d) none fun x hx => twoCharSymbol?_of_isAlpha (Or.inr hx)
  unfold symbolLexeme
  rw [hOne, hTwo]

theorem opening_not_alpha : ∀ style ∈ QuoteStyle.names,
    style.opening.isAlpha = false ∧ style.closing.isAlpha = false := by decide

/-- **A lexeme in another letter case.** It has the same length, and the same kind but for the
spelling of a bare name, unless quoted text is changed. -/
theorem lexeme_recased {c d : Char} {cs ds : List Char} (hHead : SameLetter c d)
    (hTail : SameLetters cs ds)
    (hQuoted : (lexeme c cs).kind.isQuoted = true →
      cs.take (lexeme c cs).tail = ds.take (lexeme c cs).tail) :
    (lexeme c cs).kind.Respelled .letterCase (lexeme d ds).kind ∧
      (lexeme c cs).tail = (lexeme d ds).tail := by
  have hAll : SameLetters (c :: cs) (d :: ds) := .cons hHead hTail
  have hOpening : ∀ style ∈ QuoteStyle.names,
      decide (style.opening = c) = decide (style.opening = d) := by
    intro style hStyle
    have hEither := hHead.eq_iff (opening_not_alpha style hStyle).1
    rw [decide_eq_decide, eq_comm, hEither, eq_comm]
  have hFind : QuoteStyle.names.find? (fun style => decide (style.opening = c)) =
      QuoteStyle.names.find? fun style => decide (style.opening = d) := by
    simp only [QuoteStyle.names, List.forall_mem_cons] at hOpening
    simp only [QuoteStyle.names, List.find?_cons, List.find?_nil, hOpening.1, hOpening.2.1,
      hOpening.2.2.1]
  have hSingle := hHead.eq_iff (x := QuoteStyle.single.opening) rfl
  unfold lexeme at hQuoted ⊢
  rw [← hFind, ← Numeral.startsAt_eq hAll]
  by_cases hNumeral : Numeral.startsAt (c :: cs) = true
  · rw [if_pos hNumeral, if_pos hNumeral]
    dsimp only
    rw [Numeral.kind_eq hAll, Numeral.length_chars_eq hAll]
    exact ⟨Or.inl rfl, rfl⟩
  rw [if_neg hNumeral] at hQuoted ⊢
  rw [if_neg hNumeral]
  by_cases hString : c = QuoteStyle.single.opening
  · rw [if_pos hString] at hQuoted ⊢
    rw [if_pos (hSingle.mp hString),
      @quotedLexeme_recased .single rfl _ (fun _ => rfl) _ _ hTail hQuoted]
    exact ⟨Or.inl rfl, rfl⟩
  rw [if_neg hString] at hQuoted ⊢
  rw [if_neg (mt hSingle.mpr hString)]
  cases hStyle : QuoteStyle.names.find? fun style => decide (style.opening = c) with
  | some style =>
    rw [hStyle] at hQuoted
    dsimp only at hQuoted ⊢
    have hClosing := (opening_not_alpha style (List.mem_of_find?_eq_some hStyle)).2
    rw [quotedLexeme_recased hClosing (fun _ => rfl) hTail hQuoted]
    exact ⟨Or.inl rfl, rfl⟩
  | none =>
    dsimp only
    rw [hHead.congr isNameStart true fun c => isNameStart_of_isAlpha]
    have hWord := hTail.takeWhile (p := isNamePart) true fun c => isNamePart_of_isAlpha
    split
    · exact ⟨wordKind_respelled (.cons hHead hWord), hWord.length_eq⟩
    · rw [symbolLexeme_eq hHead hTail]
      exact ⟨Or.inl rfl, rfl⟩

/-! ## Gaps -/

theorem gapLength_recased (place : GapPlace) {cs ds : List Char} (h : SameLetters cs ds) :
    gapLength place cs = gapLength place ds := by
  induction h generalizing place with
  | nil => rfl
  | @cons c d cs ds hHead hTail ih =>
    have hNext : ∀ {x y : Char}, x.isAlpha = false → y.isAlpha = false →
        (c = x ∧ cs.head? = some y ↔ d = x ∧ ds.head? = some y) := fun hx hy =>
      and_congr (hHead.eq_iff hx) (SameLetters.head?_eq_iff hTail hy)
    cases place with
    | between =>
      have hBlank : isBlank c = isBlank d := hHead.congr isBlank false fun c => isBlank_of_isAlpha
      simp only [gapLength, hBlank, hNext (x := '-') (y := '-') rfl rfl,
        hNext (x := '/') (y := '*') rfl rfl, ih]
    | line => simp only [gapLength, hHead.eq_iff (x := '\n') rfl, ih]
    | opening => simp only [gapLength, ih]
    | block => simp only [gapLength, hNext (x := '*') (y := '/') rfl rfl, ih]
    | closing => simp only [gapLength, ih]

/-! ## Places -/

theorem Position.advance_recased (p : Position) (count : Nat) {cs ds : List Char}
    (h : SameLetters cs ds) : p.advance count cs = p.advance count ds := by
  induction h generalizing p count with
  | nil => rfl
  | @cons c d cs ds hHead hTail ih =>
    cases count with
    | zero => rfl
    | succ count =>
      have hStep : p.step c cs = p.step d ds := by
        unfold Position.step
        rw [hHead.utf8Size_eq]
        simp only [hHead.eq_iff (x := '\n') rfl, hHead.eq_iff (x := '\r') rfl,
          SameLetters.head?_eq_iff hTail (x := '\n') rfl]
      rw [Position.advance_succ, Position.advance_succ, hStep]
      exact ih _ _

/-! ## Tokens -/

namespace Cursor

/-- The same place in a text and in the text in another letter case. -/
structure Recased (c d : Cursor) : Prop where
  position : c.position = d.position
  rest : SameLetters c.rest d.rest

variable {c d : Cursor}

theorem Recased.advance (h : c.Recased d) (count : Nat) :
    (c.advance count).Recased (d.advance count) := by
  refine ⟨?_, h.rest.drop count⟩
  show c.position.advance count c.rest = d.position.advance count d.rest
  rw [h.position]
  exact Position.advance_recased _ _ h.rest

theorem Recased.skipGap (h : c.Recased d) : c.skipGap.Recased d.skipGap := by
  unfold Cursor.skipGap
  rw [gapLength_recased .between h.rest]
  exact h.advance _

theorem Recased.finish (h : c.Recased d) : c.finish = d.finish := by
  have hEnd := h.advance c.rest.length
  have hLength : c.rest.length = d.rest.length := h.rest.length_eq
  rw [Cursor.finish, Cursor.finish, ← hLength]
  exact hEnd.position

theorem Recased.token?_none (h : c.Recased d) (hNone : c.token? = none) : d.token? = none := by
  obtain ⟨p, cs⟩ := c
  obtain ⟨q, ds⟩ := d
  obtain ⟨-, hRest⟩ := h
  cases hRest with
  | nil => rfl
  | cons _ _ => cases hNone

/-- The token at the same place, if it is not changed where it is quoted. -/
theorem Recased.token?_some (h : c.Recased d) {t : Token} {after : Cursor}
    (hToken : c.token? = some (t, after))
    (hQuoted : t.kind.isQuoted = true → t.text.toList <+: d.rest) :
    ∃ u after', d.token? = some (u, after') ∧ Token.Respelled .letterCase t u ∧
      after.Recased after' := by
  obtain ⟨p, cs⟩ := c
  obtain ⟨q, ds⟩ := d
  obtain ⟨rfl, hRest⟩ := id h
  cases hRest with
  | nil => cases hToken
  | @cons x y xs ys hHead hTail =>
    obtain ⟨rfl, rfl⟩ := Prod.mk.inj (Option.some.inj hToken)
    dsimp only at hQuoted
    have hSame : (lexeme x xs).kind.isQuoted = true →
        xs.take (lexeme x xs).tail = ys.take (lexeme x xs).tail := by
      intro hKind
      have hPrefix := hQuoted hKind
      rw [String.toList_ofList, List.cons_prefix_cons] at hPrefix
      have hLength : xs.length = ys.length := hTail.length_eq
      have hTake := List.prefix_iff_eq_take.mp hPrefix.2
      rw [List.length_take, hLength, List.take_eq_take_min] at hTake
      simpa [List.take_eq_take_min] using hTake
    obtain ⟨hKind, hLength⟩ := lexeme_recased hHead hTail hSame
    have hAfter := h.advance ((lexeme x xs).tail + 1)
    refine ⟨_, _, rfl, ⟨hKind, ?_, ?_⟩, ?_⟩
    · dsimp only
      rw [← hLength]
      exact SameLetters.toLower_eq (.cons hHead (SameLetters.take hTail _))
    · dsimp only
      rw [← hLength]
      exact congrArg (Span.mk _) hAfter.position
    · rw [← hLength]
      exact hAfter

theorem At.skipGap {text : List Char} (h : c.At text) : c.skipGap.At text := h.advance _

/-- **The tokens of a text in another letter case.** They are the same up to the case of bare
names, as far as the quoted ones are not changed. -/
theorem tokens_recased {text : List Char} (h : c.Recased d) (hAt : d.At text)
    (hQuoted : ∀ t ∈ c.tokens, t.kind.isQuoted = true → t.span.slice text = t.text.toList) :
    List.Forall₂ (Token.Respelled .letterCase) c.tokens d.tokens := by
  fun_induction tokens c generalizing d with
  | case1 c hNone =>
    have hNone' : d.next? = none := h.skipGap.token?_none hNone
    rw [tokens_of_none hNone']
    exact .nil
  | case2 c t after hSome ih =>
    have hSelf := hQuoted t List.mem_cons_self
    have hPrefix : t.kind.isQuoted = true → t.text.toList <+: d.skipGap.rest := by
      intro hKind
      obtain ⟨before, hText, hBefore, -⟩ := hAt.skipGap
      have hFirst : t.span.first = c.skipGap.position := first_of_token? hSome
      rw [List.append_nil] at hText
      rw [← hSelf hKind, hText]
      exact Span.slice_isPrefix (by rw [hBefore, ← h.skipGap.position, hFirst])
    obtain ⟨u, after', hSome', hToken, hAfter⟩ := h.skipGap.token?_some hSome hPrefix
    have hAt' : after'.At text := (hAt.skipGap.placed hSome').2.2.2
    rw [tokens_of_some hSome']
    exact .cons hToken (ih hAfter hAt' fun v hv => hQuoted v (List.mem_cons_of_mem _ hv))

end Cursor

end SqlKit
