import SqlKit.Proofs.Token.Tiling
import SqlKit.Proofs.Token.Semicolon
import Mathlib.Algebra.Group.Nat.Defs

/-!
# The longest numeral

The numerals are the texts `D+ [. D+] [(e|E) [+|-] D+]` and `. D+ [(e|E) [+|-] D+]`, where `D` is an
ASCII digit (`IsNumeral`). Where one starts, the scanner takes the longest one (`longest_ofChars`),
although a point and an exponent belong to it only if digits follow. A numeral has one reading only
(`Numeral.ofChars_chars`), so the value of its token is that of its text (`tokensOf_numeral`).
-/

namespace SqlKit

/-! ## The grammar -/

/-- One ASCII digit or more. -/
def IsDigits (cs : List Char) : Prop := cs ≠ [] ∧ cs.all Char.isDigit = true

/-- `(e|E) [+|-] D+` -/
structure Exponent.WellFormed (e : Exponent) : Prop where
  letter : e.letter = 'e' ∨ e.letter = 'E'
  sign : ∀ c ∈ e.sign, c = '+' ∨ c = '-'
  digits : IsDigits e.digits

/-- `D+ [. D+] [exponent]` or `. D+ [exponent]` -/
structure Numeral.WellFormed (n : Numeral) : Prop where
  whole : n.whole.all Char.isDigit = true
  fraction : ∀ ds ∈ n.fraction, IsDigits ds
  exponent : ∀ e ∈ n.exponent, e.WellFormed
  nonempty : n.whole = [] → n.fraction.isSome = true

/-- The text of a numeral. -/
def IsNumeral (cs : List Char) : Prop := ∃ n : Numeral, n.WellFormed ∧ n.chars = cs

/-- A text that starts with a digit, or with a point and a digit. -/
def StartsNumeral (cs : List Char) : Prop :=
  ∃ d rest, d.isDigit = true ∧ (cs = d :: rest ∨ cs = '.' :: d :: rest)

/-- The longest of the numerals at the start of a text. -/
structure IsLongestNumeral (cs text : List Char) : Prop where
  isNumeral : IsNumeral cs
  isPrefix : cs <+: text
  longest : ∀ ds, IsNumeral ds → ds <+: text → ds.length ≤ cs.length

theorem startsAt_iff {cs : List Char} : Numeral.startsAt cs = true ↔ StartsNumeral cs := by
  constructor
  · intro h
    match cs, h with
    | c :: cs, h =>
      simp only [Numeral.startsAt, Bool.or_eq_true, Bool.and_eq_true, decide_eq_true_eq] at h
      rcases h with hDigit | ⟨rfl, hDigit⟩
      · exact ⟨c, cs, hDigit, Or.inl rfl⟩
      · cases cs with
        | nil => cases hDigit
        | cons d cs => exact ⟨d, cs, by simpa [Numeral.startsWithDigit] using hDigit, Or.inr rfl⟩
  · rintro ⟨d, rest, hDigit, rfl | rfl⟩
    · simp [Numeral.startsAt, hDigit]
    · simp [Numeral.startsAt, Numeral.startsWithDigit, hDigit]

/-! ## The parts of a numeral -/

namespace Numeral

theorem digits_append_of_all {ds : List Char} (h : ds.all Char.isDigit = true) (rest : List Char) :
    digits (ds ++ rest) = ds ++ digits rest :=
  List.takeWhile_append_of_pos (by simpa using h)

theorem digits_eq_nil {c : Char} (h : c.isDigit = false) (rest : List Char) :
    digits (c :: rest) = [] := by
  simp [digits, h]

theorem startsWithDigit_append {ds : List Char} (h : IsDigits ds) (rest : List Char) :
    startsWithDigit (ds ++ rest) = true := by
  obtain ⟨hNil, hAll⟩ := h
  cases ds with
  | nil => exact absurd rfl hNil
  | cons d ds =>
    rw [List.all_cons, Bool.and_eq_true] at hAll
    exact hAll.1

/-- The digits at the start of a text are digits, and there are some where one starts it. -/
theorem isDigits_digits {cs : List Char} (h : startsWithDigit cs = true) :
    IsDigits (digits cs) := by
  refine ⟨?_, List.all_takeWhile⟩
  cases cs with
  | nil => cases h
  | cons c cs =>
    have hDigit : c.isDigit = true := by simpa [startsWithDigit] using h
    simp [digits, hDigit]

theorem fraction?_append {ds : List Char} (h : IsDigits ds) (rest : List Char) :
    fraction? ('.' :: (ds ++ rest)) = some (ds ++ digits rest) := by
  rw [fraction?, if_pos (startsWithDigit_append h rest), digits_append_of_all h.2]

theorem isDigits_fraction? {cs ds : List Char} (h : fraction? cs = some ds) : IsDigits ds := by
  unfold fraction? at h
  split at h
  · split at h
    · next hDigit =>
      obtain rfl := Option.some.inj h
      exact isDigits_digits hDigit
    · cases h
  · cases h

end Numeral

namespace Exponent.WellFormed

variable {e : Exponent}

/-- The letter of an exponent belongs to no digits and to no fraction. -/
theorem letter_isDigit (h : e.WellFormed) : e.letter.isDigit = false := by
  rcases h.letter with hLetter | hLetter <;> rw [hLetter] <;> decide

theorem digits_eq_nil (h : e.WellFormed) (rest : List Char) :
    Numeral.digits (e.chars ++ rest) = [] :=
  Numeral.digits_eq_nil h.letter_isDigit _

theorem fraction?_eq_none (h : e.WellFormed) (rest : List Char) :
    Numeral.fraction? (e.chars ++ rest) = none := by
  unfold Numeral.fraction?
  split
  · next hPoint =>
    obtain ⟨hLetter, -⟩ := List.cons.inj hPoint
    have hDigit := h.letter
    rw [hLetter] at hDigit
    exact absurd hDigit (by decide)
  · rfl

/-- An exponent goes on as long as digits follow. -/
theorem exponent?_append (h : e.WellFormed) (rest : List Char) :
    Numeral.exponent? (e.chars ++ rest) =
      some { e with digits := e.digits ++ Numeral.digits rest } := by
  obtain ⟨letter, sign, ds⟩ := e
  obtain ⟨hLetter, hSign, hDigits⟩ := h
  have hStarts := Numeral.startsWithDigit_append hDigits rest
  dsimp only at hLetter hSign hDigits
  have hRead : ∀ tail, (tail : List Char) = sign.toList ++ (ds ++ rest) →
      tail.head?.filter (fun c => c = '+' || c = '-') = sign := by
    rintro tail rfl
    cases sign with
    | some c => rcases hSign c rfl with rfl | rfl <;> rfl
    | none =>
      obtain ⟨d, ds', rfl⟩ := List.exists_cons_of_ne_nil hDigits.1
      have hDigit : d.isDigit = true := hStarts
      simp only [Option.toList_none, List.nil_append, List.cons_append, List.head?_cons,
        Option.filter_some]
      rw [if_neg]
      simp only [Bool.or_eq_true, decide_eq_true_eq, not_or]
      constructor <;> rintro rfl <;> exact absurd hDigit (by decide)
  rw [Exponent.chars, List.cons_append, Numeral.exponent?, if_pos hLetter]
  dsimp only
  rw [List.append_assoc, hRead _ rfl, List.drop_left, if_pos hStarts,
    Numeral.digits_append_of_all hDigits.2]

end Exponent.WellFormed

theorem Numeral.wellFormed_exponent? {cs : List Char} {e : Exponent}
    (h : exponent? cs = some e) : e.WellFormed := by
  unfold exponent? at h
  split at h
  · cases h
  · split at h
    · next hLetter =>
      dsimp only at h
      split at h
      · next hDigit =>
        obtain rfl := Option.some.inj h
        refine ⟨hLetter, fun c hc => ?_, isDigits_digits hDigit⟩
        simpa using (Option.filter_eq_some_iff.mp hc).2
      · cases h
    · cases h

/-! ## The scanner -/

namespace Numeral

/-- What the scanner takes is a numeral. -/
theorem wellFormed_ofChars {cs : List Char} (h : StartsNumeral cs) : (ofChars cs).WellFormed where
  whole := List.all_takeWhile
  fraction _ hFraction := isDigits_fraction? hFraction
  exponent _ hExponent := wellFormed_exponent? hExponent
  nonempty hWhole := by
    obtain ⟨d, rest, hDigit, rfl | rfl⟩ := h
    · exact absurd hWhole (by simp [ofChars, digits, hDigit])
    · have hStarts : startsWithDigit (d :: rest) = true := hDigit
      simp only [ofChars, digits_eq_nil (c := '.') (by decide), List.length_nil, List.drop_zero,
        fraction?, hStarts, ↓reduceIte, Option.isSome_some]

/-- A numeral with what it takes of the text behind it: the last of its parts goes on as long as
digits follow, and what is not there may begin behind them. -/
def followed : Numeral → List Char → Numeral
  | ⟨whole, fraction, some e⟩, rest =>
    ⟨whole, fraction, some { e with digits := e.digits ++ digits rest }⟩
  | ⟨whole, some ds, none⟩, rest =>
    ⟨whole, some (ds ++ digits rest), exponent? (rest.drop (digits rest).length)⟩
  | ⟨whole, none, none⟩, rest => { ofChars rest with whole := whole ++ digits rest }

theorem length_chars_le_followed (n : Numeral) (rest : List Char) :
    n.chars.length ≤ (n.followed rest).chars.length := by
  fun_cases followed n rest with
  | case1 whole fraction e =>
    simp only [chars, Option.map_some, Option.getD_some, Exponent.chars, List.length_append,
      List.length_cons]
    omega
  | case2 whole ds =>
    simp only [chars, fractionChars, Option.map_none, Option.getD_none, List.length_append,
      List.length_cons, List.length_nil]
    omega
  | case3 whole =>
    simp only [chars, fractionChars, Option.map_none, Option.getD_none, List.length_append,
      List.length_nil]
    omega

theorem followed_nil (n : Numeral) : n.followed [] = n := by
  match n with
  | ⟨whole, fraction, some e⟩ => simp [followed, digits]
  | ⟨whole, some ds, none⟩ => simp [followed, digits, exponent?]
  | ⟨whole, none, none⟩ => simp [followed, ofChars, digits, fraction?, exponent?]

theorem chars_whole (whole : List Char) : chars ⟨whole, none, none⟩ = whole := by
  simp [chars, fractionChars]

/-- The scanner comes to the end of a numeral at least. -/
theorem WellFormed.ofChars_append {n : Numeral} (h : n.WellFormed) (rest : List Char) :
    ofChars (n.chars ++ rest) = n.followed rest := by
  obtain ⟨whole, fraction, exponent⟩ := n
  obtain ⟨hWhole, hFraction, hExponent, -⟩ := h
  have hDigits := digits_append_of_all hWhole
  cases fraction with
  | none =>
    cases exponent with
    | none =>
      simp only [chars_whole, ofChars, hDigits, List.length_append, List.drop_length_add_append,
        followed]
    | some e =>
      have hForm := hExponent e rfl
      have hChars : chars ⟨whole, none, some e⟩ ++ rest = whole ++ (e.chars ++ rest) := by
        simp [chars, fractionChars]
      simp only [hChars, ofChars, hDigits, hForm.digits_eq_nil, List.append_nil, List.drop_left,
        hForm.fraction?_eq_none, fractionChars, List.length_nil, List.drop_zero,
        hForm.exponent?_append, followed]
  | some ds =>
    have hPoint (tail : List Char) : digits (whole ++ '.' :: tail) = whole := by
      rw [hDigits, digits_eq_nil (by decide), List.append_nil]
    have hMore := fraction?_append (hFraction ds rfl)
    cases exponent with
    | none =>
      have hChars : chars ⟨whole, some ds, none⟩ ++ rest = whole ++ '.' :: (ds ++ rest) := by
        simp [chars, fractionChars]
      simp only [hChars, ofChars, hPoint, List.drop_left, hMore, fractionChars, List.length_cons,
        List.drop_succ_cons, List.length_append, ← List.drop_drop, followed]
    | some e =>
      have hForm := hExponent e rfl
      have hChars : chars ⟨whole, some ds, some e⟩ ++ rest =
          whole ++ '.' :: (ds ++ (e.chars ++ rest)) := by
        simp [chars, fractionChars]
      simp only [hChars, ofChars, hPoint, List.drop_left, hMore, hForm.digits_eq_nil,
        List.append_nil,
        fractionChars, List.length_cons, List.drop_succ_cons, hForm.exponent?_append, followed]

/-- A numeral has one reading only. -/
theorem ofChars_chars {n : Numeral} (h : n.WellFormed) : ofChars n.chars = n := by
  rw [← List.append_nil n.chars, h.ofChars_append, followed_nil]

/-- Where a numeral starts, the scanner takes the longest one. -/
theorem longest_ofChars {cs : List Char} (h : StartsNumeral cs) :
    IsLongestNumeral (ofChars cs).chars cs where
  isNumeral := ⟨_, wellFormed_ofChars h, rfl⟩
  isPrefix := chars_isPrefix cs
  longest := by
    rintro - ⟨n, hForm, rfl⟩ ⟨rest, rfl⟩
    rw [hForm.ofChars_append]
    exact n.length_chars_le_followed rest

end Numeral

/-! ## The value of a numeral -/

namespace Numeral

/-- Only the numerals without a fraction and an exponent are digits from end to end. -/
theorem WellFormed.all_chars_iff {n : Numeral} (h : n.WellFormed) :
    n.chars.all Char.isDigit = true ↔ n.fraction = none ∧ n.exponent = none := by
  have hPoint : Char.isDigit '.' = false := by decide
  obtain ⟨whole, fraction, exponent⟩ := n
  cases fraction with
  | some ds => simp [chars, fractionChars, hPoint]
  | none =>
    cases exponent with
    | some e =>
      have hLetter := (h.exponent e rfl).letter_isDigit
      simp [chars, fractionChars, Exponent.chars, hLetter]
    | none => simpa [chars, fractionChars] using h.whole

/-- A numeral is an integer if it is digits only and its value fits into 64 bits with a sign. -/
theorem WellFormed.kind_eq_integer_iff {n : Numeral} (h : n.WellFormed) (i : Int64) :
    n.kind = .integer i ↔ n.chars.all Char.isDigit = true ∧
      Nat.ofDigitChars 10 n.chars 0 ≤ 2 ^ 63 - 1 ∧ i.toInt = Nat.ofDigitChars 10 n.chars 0 := by
  rw [h.all_chars_iff]
  obtain ⟨whole, fraction, exponent⟩ := n
  by_cases hParts : fraction = none ∧ exponent = none
  · obtain ⟨rfl, rfl⟩ := hParts
    rw [chars_whole]
    simp only [kind, Option.isNone_none, Bool.and_self, Bool.true_and, maxInteger, Nat.pow_eq,
      true_and]
    split
    · next hFits =>
      replace hFits := of_decide_eq_true hFits
      rw [TokenKind.integer.injEq, ← Int64.toInt_inj, Int64.toInt_ofNat_of_lt (by omega)]
      exact ⟨fun hValue => ⟨hFits, hValue.symm⟩, fun hValue => hValue.2.symm⟩
    · next hLarge => exact ⟨nofun, fun hFits => absurd (decide_eq_true hFits.1) hLarge⟩
  · refine ⟨fun hKind => ?_, fun hBoth => absurd hBoth.1 hParts⟩
    have hSome : (fraction.isNone && exponent.isNone) = false := by
      rw [← Bool.not_eq_true, Bool.and_eq_true, Option.isNone_iff_eq_none,
        Option.isNone_iff_eq_none]
      exact hParts
    rw [kind, hSome, Bool.false_and] at hKind
    cases hKind

/-- A numeral that is no integer is a binary number. -/
theorem kind_eq_float {n : Numeral} (h : ∀ i, n.kind ≠ .integer i) :
    n.kind = .float n.toBinary64 := by
  unfold kind at h ⊢
  dsimp only at h ⊢
  split
  · next hFits => exact absurd (if_pos hFits) (h _)
  · rfl

end Numeral

/-! ## Tokens -/

theorem Numeral.WellFormed.chars_ne_nil {n : Numeral} (h : n.WellFormed) : n.chars ≠ [] := by
  intro hNil
  simp only [Numeral.chars, List.append_eq_nil_iff] at hNil
  have hSome := h.nonempty hNil.1.1
  cases hFraction : n.fraction with
  | none => simp [hFraction] at hSome
  | some ds => simp [hFraction, Numeral.fractionChars] at hNil

/-- Where a numeral starts, the lexeme is the longest one. -/
theorem lexeme_numeral {c : Char} {cs : List Char} (h : StartsNumeral (c :: cs)) :
    (lexeme c cs).kind = (Numeral.ofChars (c :: cs)).kind ∧
      c :: cs.take (lexeme c cs).tail = (Numeral.ofChars (c :: cs)).chars := by
  have hPrefix := Numeral.chars_isPrefix (c :: cs)
  have hPos := List.length_pos_iff.mpr (Numeral.wellFormed_ofChars h).chars_ne_nil
  rw [lexeme, if_pos (startsAt_iff.mpr h)]
  refine ⟨rfl, ?_⟩
  dsimp only
  rw [← List.take_succ_cons, Nat.sub_add_cancel hPos, ← List.prefix_iff_eq_take.mp hPrefix]

namespace Cursor

/-- Every token stands in the text, and it is the lexeme of what stands there from its first
character on. -/
theorem exists_stands_lexeme {text : List Char} (c : Cursor) (h : c.At text) :
    ∀ t ∈ c.tokens, ∃ head tail,
      t.kind = (lexeme head tail).kind ∧
      t.text.toList = head :: tail.take (lexeme head tail).tail ∧
      Stands text t.span.first.offset t.span.last.offset t.text.toList
        (tail.drop (lexeme head tail).tail) := by
  fun_induction Cursor.tokens c with
  | case1 => simp
  | case2 c t after hSome ih =>
    have hHere : c.skipGap.At text := h.advance _
    refine List.forall_mem_cons.mpr ⟨?_, ih (hHere.placed hSome).2.2.2⟩
    obtain ⟨head, tail, hRest, rfl, rfl⟩ := token?_eq_some_iff.mp hSome
    have hStands := hHere.stands_take ((lexeme head tail).tail + 1)
    rw [hRest, List.take_succ_cons, List.drop_succ_cons] at hStands
    exact ⟨head, tail, rfl, String.toList_ofList, by simpa using hStands⟩

end Cursor

/-- **Numerals are scanned to their greatest length.** A token stands in its text, and `after` is
what follows it there. If a digit, or a point and a digit, stand at its start, then the token is the
longest numeral that stands there. It is an integer exactly if it is digits only and its value is
not above `2 ^ 63 - 1`, and then it has that value; otherwise it is the binary number of its
text. -/
theorem tokensOf_numeral (text : String) (t : Token) (ht : t ∈ tokensOf text) :
    ∃ after, Stands text.toList t.span.first.offset t.span.last.offset t.text.toList after ∧
      (StartsNumeral (t.text.toList ++ after) →
        IsLongestNumeral t.text.toList (t.text.toList ++ after) ∧
        (∀ i, t.kind = .integer i ↔ t.text.toList.all Char.isDigit = true ∧
          Nat.ofDigitChars 10 t.text.toList 0 ≤ 2 ^ 63 - 1 ∧
          i.toInt = Nat.ofDigitChars 10 t.text.toList 0) ∧
        ((∀ i, t.kind ≠ .integer i) → ∀ n : Numeral, n.WellFormed → n.chars = t.text.toList →
          t.kind = .float n.toBinary64)) := by
  obtain ⟨head, tail, hKind, hText, hStands⟩ :=
    Cursor.exists_stands_lexeme _ (Cursor.at_ofString text) t ht
  refine ⟨_, hStands, fun hStarts => ?_⟩
  have hAll : t.text.toList ++ tail.drop (lexeme head tail).tail = head :: tail := by
    rw [hText, List.cons_append, List.take_append_drop]
  rw [hAll] at hStarts ⊢
  obtain ⟨hLexeme, hChars⟩ := lexeme_numeral hStarts
  rw [hLexeme] at hKind
  rw [hChars] at hText
  have hForm := Numeral.wellFormed_ofChars hStarts
  rw [hText, hKind]
  refine ⟨Numeral.longest_ofChars hStarts, hForm.kind_eq_integer_iff,
    fun hNone n hOther hSame => ?_⟩
  have hEq : n = Numeral.ofChars (head :: tail) := by
    rw [← Numeral.ofChars_chars hOther, hSame, Numeral.ofChars_chars hForm]
  rw [hEq]
  exact Numeral.kind_eq_float hNone

theorem tokensOf_numeral_points :
    (tokensOf "1.2.3.").map (fun t => (t.text, t.kind)) =
      [("1.2", .float (.ofDecimal false 12 (-1))), (".3", .float (.ofDecimal false 3 (-1))),
        (".", .symbol .dot)] ∧
      IsLongestNumeral "1.2".toList "1.2.3.".toList := by
  have hFirst : (tokensOf "1.2.3.").head? = some ⟨.float (.ofDecimal false 12 (-1)),
      ⟨.start, ⟨3, 1, 4⟩⟩, "1.2"⟩ := by decide +kernel
  refine ⟨by decide +kernel, ?_⟩
  obtain ⟨after, ⟨before, hText, hBefore, -⟩, hNumeral⟩ :=
    tokensOf_numeral _ _ (List.mem_of_head? hFirst)
  obtain rfl : before = [] :=
    Decidable.byContradiction fun hNil => Nat.ne_of_gt (byteCount_pos hNil) hBefore
  rw [List.nil_append] at hText
  rw [← hText] at hNumeral
  exact (hNumeral ⟨'1', ".2.3.".toList, by decide, Or.inl (by decide +kernel)⟩).1

example : (tokensOf "9223372036854775807 9223372036854775808 1e+").map (·.kind) =
    [.integer 9223372036854775807, .float (.ofDecimal false 9223372036854775808 0), .integer 1,
      .identifier (.bare "e"), .symbol .plus] := by
  decide +kernel

end SqlKit
