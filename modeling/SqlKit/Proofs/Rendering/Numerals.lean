import SqlKit.Proofs.Number.Shortest
import SqlKit.Proofs.Rendering.Layout

/-!
# The numerals of binary numbers

What a token is read from the digits of a number: the number itself (`kind_numeral_of_not`), unless
the number is whole and below `2 ^ 63`. Such a number is written like an integer and read as one
(`kind_numeral_of_disguised`).
-/

namespace SqlKit

/-! ## Digits in positional notation -/

namespace Decimal

/-- The digits behind the point are as many as there are places. -/
theorem length_fraction {digits places : Nat} (h : 0 < places) :
    (List.replicate (places - (Nat.toDigits 10 (digits % 10 ^ places)).length) '0' ++
      Nat.toDigits 10 (digits % 10 ^ places)).length = places := by
  have hLess : (Nat.toDigits 10 (digits % 10 ^ places)).length ≤ places :=
    (Nat.length_toDigits_le_iff (by decide) h).mpr (Nat.mod_lt _ (Nat.pow_pos (by decide)))
  rw [List.length_append, List.length_replicate]
  omega

/-- The digits in front of the point and behind it are those of the fraction. -/
theorem ofDigitChars_parts {digits places : Nat} (h : 0 < places) :
    Nat.ofDigitChars 10 (Nat.toDigits 10 (digits / 10 ^ places) ++
      (List.replicate (places - (Nat.toDigits 10 (digits % 10 ^ places)).length) '0' ++
        Nat.toDigits 10 (digits % 10 ^ places))) 0 = digits := by
  have hLess : (Nat.toDigits 10 (digits % 10 ^ places)).length ≤ places :=
    (Nat.length_toDigits_le_iff (by decide) h).mpr (Nat.mod_lt _ (Nat.pow_pos (by decide)))
  rw [Nat.ofDigitChars_append, Nat.ofDigitChars_append, Nat.ofDigitChars_ten_toDigits,
    Nat.ofDigitChars_replicate_zero, Nat.ofDigitChars_eq_ofDigitChars_zero,
    Nat.ofDigitChars_ten_toDigits, ← Nat.mul_assoc, ← Nat.pow_add, Nat.add_sub_cancel' hLess]
  exact Nat.div_add_mod digits (10 ^ places)

/-- A fraction is read as a binary number, from the digits and the exponent that it has. -/
theorem kind_numeral_of_neg {d : Decimal} (h : d.exponent < 0) :
    d.numeral.kind = .float (.ofDecimal false d.digits d.exponent) := by
  have hPlaces : 0 < (-d.exponent).toNat := by omega
  have hExponent : -((-d.exponent).toNat : Int) = d.exponent := by omega
  simp only [numeral, Nat.pow_eq, if_neg hPlaces.ne']
  simp only [Numeral.kind, Numeral.toBinary64, Option.isNone_some, Bool.false_and,
    Bool.false_eq_true, ↓reduceIte, Option.getD_some, ofDigitChars_parts hPlaces,
    length_fraction hPlaces, Option.map_none, Option.getD_none, Int.zero_sub, hExponent]

/-- Digits without a fraction are read as an integer if they fit. -/
theorem kind_numeral_of_nonneg {d : Decimal} (h : 0 ≤ d.exponent) :
    d.numeral.kind = if d.digits * 10 ^ d.exponent.toNat ≤ Numeral.maxInteger then
      .integer (Int64.ofNat (d.digits * 10 ^ d.exponent.toNat))
    else .float (.ofDecimal false (d.digits * 10 ^ d.exponent.toNat) 0) := by
  have hPlaces : (-d.exponent).toNat = 0 := by omega
  simp only [numeral, Nat.pow_eq, if_pos hPlaces]
  simp [Numeral.kind, Numeral.toBinary64, Nat.ofDigitChars_ten_toDigits]

end Decimal

/-! ## Numbers that are written like others -/

/-- The numbers whose text is not that of a binary number: a whole number below `2 ^ 63` is written
like an integer, and so is zero; what is not finite is written like a name. -/
def Binary64.Disguised : Binary64 → Prop
  | .finite _ significand scale => unitsPerOne ∣ significand * 2 ^ scale ∧
      significand * 2 ^ scale < 2 ^ 63 * unitsPerOne
  | .infinite _ | .notANumber => True

namespace Binary64

variable {negative : Bool} {s e : Nat}

theorem disguised_iff (hForm : InForm s e) (hs : 0 < s) : (finite negative s e).Disguised ↔
    0 ≤ (shortest s e).exponent ∧ wholeDigits s e ≤ Numeral.maxInteger := by
  have hMax : wholeDigits s e ≤ Numeral.maxInteger ↔ wholeDigits s e < 2 ^ 63 := by
    simp only [Numeral.maxInteger, Nat.pow_eq]
    omega
  rw [Disguised, ← exponent_shortest_iff hs, hMax]
  exact and_congr_right fun hWhole => (wholeDigits_lt_iff hForm hs hWhole).symm

/-- The digits of a number that is not written like an integer are read as the number. -/
theorem kind_numeral_of_not (hForm : InForm s e) (h : ¬ (finite negative s e).Disguised) :
    (numeral s e).kind = .float (finite false s e) := by
  have hs : 0 < s := Nat.pos_of_ne_zero fun h0 => h <| by
    rw [h0, Disguised, Nat.zero_mul]
    exact ⟨Nat.dvd_zero _, Nat.mul_pos (by decide) unitsPerOne_pos⟩
  rw [disguised_iff hForm hs] at h
  rw [numeral, if_neg hs.ne']
  rcases Int.lt_or_le (shortest s e).exponent 0 with hFraction | hWhole
  · rw [Decimal.kind_numeral_of_neg hFraction, ofDecimal_shortest hForm hs]
  · rw [Decimal.kind_numeral_of_nonneg hWhole]
    exact (if_neg fun hFits => h ⟨hWhole, hFits⟩).trans
      (congrArg _ (ofDecimal_wholeDigits hForm hs hWhole))

/-- A whole number below `2 ^ 63` has the digits of an integer. -/
theorem numeral_of_disguised (hForm : InForm s e) (h : (finite negative s e).Disguised) :
    ∃ n ≤ Numeral.maxInteger, numeral s e = ⟨Nat.toDigits 10 n, none, none⟩ := by
  rcases Nat.eq_zero_or_pos s with rfl | hs
  · exact ⟨0, by decide, rfl⟩
  · obtain ⟨hWhole, hFits⟩ := (disguised_iff hForm hs).mp h
    refine ⟨wholeDigits s e, hFits, ?_⟩
    have hPlaces : (-(shortest s e).exponent).toNat = 0 := by omega
    rw [numeral, if_neg hs.ne', Decimal.numeral]
    simp only [if_pos hPlaces]
    rfl

end Binary64

end SqlKit
