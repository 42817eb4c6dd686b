import SqlKit.Number.Shortest
import Mathlib.Data.Nat.Log
import Mathlib.Tactic.Common
import Mathlib.Tactic.Ring

/-!
# Rounding to the binary format

A number of the format has a normal form: fewer than 53 binary digits only at the least scale.
`nearest` comes to numbers in normal form (`isNormal_nearest`), and to a given one from every
fraction between the boundaries to its neighbours (`nearest_of_roundsTo`).

Below a power of two the boundary is half as near as above it. What is rounded up from there has a
significand of 54 binary digits at the scale below, which is why `nearest` may have to step up one
scale once more.
-/

namespace SqlKit.Binary64

/-- A significand and a scale of the format. -/
structure InForm (significand scale : Nat) : Prop where
  bound : significand < 2 ^ 53
  full : scale = 0 ∨ 2 ^ 52 ≤ significand
  top : scale ≤ maxScale

/-- A number in normal form. -/
def IsNormal : Binary64 → Prop
  | finite _ significand scale => InForm significand scale
  | infinite _ => True
  | notANumber => False

theorem IsNormal.neg {x : Binary64} (h : x.IsNormal) : x.neg.IsNormal := by
  cases x <;> exact h

/-! ## Quotients -/

section Quotient

variable {num den s : Nat}

theorem le_roundHalfEven (hDen : 0 < den) (h : s * den ≤ num) : s ≤ roundHalfEven num den := by
  have hBelow : s ≤ num / den := (Nat.le_div_iff_mul_le hDen).mpr h
  unfold roundHalfEven
  dsimp only
  split <;> try split
  all_goals omega

theorem roundHalfEven_le (hDen : 0 < den) (h : num < s * den) : roundHalfEven num den ≤ s := by
  have hBelow : num / den < s := (Nat.div_lt_iff_lt_mul hDen).mpr h
  unfold roundHalfEven
  dsimp only
  split <;> try split
  all_goals omega

/-- A quotient is rounded to a number if it is not further than one half from it, and nearer than
that from an odd number. -/
theorem roundHalfEven_eq (hLow : 2 * (s * den) ≤ 2 * num + den)
    (hHigh : 2 * num ≤ 2 * (s * den) + den)
    (hOdd : s % 2 = 1 → 2 * (s * den) < 2 * num + den ∧ 2 * num < 2 * (s * den) + den)
    (hDen : 0 < den) : roundHalfEven num den = s := by
  have hSplit := Nat.div_add_mod num den
  have hRest := Nat.mod_lt num hDen
  obtain hEq | hEq : num / den = s ∨ num / den + 1 = s := by
    have hUpper : num / den < s + 1 := by
      rw [Nat.div_lt_iff_lt_mul hDen, Nat.add_mul]
      omega
    have hLower : s ≤ num / den + 1 := by
      by_contra hFar
      have hMul := Nat.mul_le_mul_right den (show num / den + 2 ≤ s by omega)
      rw [Nat.add_mul, Nat.mul_comm (num / den)] at hMul
      omega
    omega
  all_goals
    have hMul := congrArg (· * den) hEq
    simp only [Nat.add_mul, Nat.mul_comm (num / den)] at hMul
    unfold roundHalfEven
    dsimp only
    split <;> try split
    all_goals omega

end Quotient

/-! ## Scales -/

theorem scaleOf_of_lt {q : Nat} (h : q < 2 ^ 53) : scaleOf q = 0 := by
  have hLog : q.log2 < 53 := by
    rcases Nat.eq_zero_or_pos q with rfl | hPos
    · decide
    · exact (Nat.log2_lt hPos.ne').mpr h
  rw [scaleOf]
  omega

theorem scaleOf_eq {q e : Nat} (hLow : 2 ^ (52 + e) ≤ q) (hHigh : q < 2 ^ (53 + e)) :
    scaleOf q = e := by
  have hPos : q ≠ 0 := (Nat.lt_of_lt_of_le (Nat.two_pow_pos _) hLow).ne'
  have hBelow : 52 + e ≤ q.log2 := (Nat.le_log2 hPos).mpr hLow
  have hAbove : q.log2 < 53 + e := (Nat.log2_lt hPos).mpr hHigh
  rw [scaleOf]
  omega

theorem lt_two_pow_scaleOf (q : Nat) : q < 2 ^ (53 + scaleOf q) := by
  rcases Nat.eq_zero_or_pos q with rfl | hPos
  · exact Nat.two_pow_pos _
  · refine (Nat.log2_lt hPos.ne').mp ?_
    rw [scaleOf]
    omega

theorem two_pow_scaleOf_le {q : Nat} (h : scaleOf q ≠ 0) : 2 ^ (52 + scaleOf q) ≤ q := by
  have hPos : q ≠ 0 := by
    rintro rfl
    exact h rfl
  refine (Nat.le_log2 hPos).mp ?_
  rw [scaleOf] at h ⊢
  omega

/-! ## Fractions -/

section Nearest

variable {negative : Bool} {num den s e : Nat}

theorem isNormal_ofScale (hBound : s < 2 ^ 53) (hFull : e = 0 ∨ 2 ^ 52 ≤ s) :
    (ofScale negative s e).IsNormal := by
  unfold ofScale
  split
  · trivial
  · exact ⟨hBound, hFull, by omega⟩

theorem ofScale_eq (h : InForm s e) : ofScale negative s e = finite negative s e :=
  if_neg (Nat.not_lt.mpr h.top)

/-- What a fraction is rounded to is in normal form. -/
theorem isNormal_nearest (hDen : 0 < den) : (nearest negative num den).IsNormal := by
  unfold nearest
  dsimp only
  rw [Nat.pow_eq]
  generalize num * unitsPerOne = units
  generalize hScale : scaleOf (units / den) = e
  have hPos : 0 < den * 2 ^ e := Nat.mul_pos hDen (Nat.two_pow_pos e)
  split
  · exact isNormal_ofScale (by decide) (Or.inr (by decide))
  · next hOver =>
    refine isNormal_ofScale (lt_of_le_of_ne (roundHalfEven_le hPos ?_) hOver) ?_
    · have hBelow := lt_two_pow_scaleOf (units / den)
      rw [hScale, Nat.div_lt_iff_lt_mul hDen, Nat.pow_add] at hBelow
      calc units < 2 ^ 53 * 2 ^ e * den := hBelow
        _ = 2 ^ 53 * (den * 2 ^ e) := by rw [Nat.mul_assoc, Nat.mul_comm den]
    · refine or_iff_not_imp_left.mpr fun hNonzero => le_roundHalfEven hPos ?_
      have hAbove := two_pow_scaleOf_le (q := units / den) (by rwa [hScale])
      rw [hScale, Nat.le_div_iff_mul_le hDen, Nat.pow_add] at hAbove
      calc 2 ^ 52 * (den * 2 ^ e) = 2 ^ 52 * 2 ^ e * den := by
            rw [Nat.mul_assoc, Nat.mul_comm den]
        _ ≤ units := hAbove

/-! ## The boundaries between neighbours -/

/-- A point lies between the boundaries of a number: `gap` is the distance between neighbours, of
which the lower boundary is one quarter or two away, and the upper one two quarters. -/
theorem roundsTo_iff {grain point gap : Nat} (hs : 0 < s) (hGap : 2 ^ e * grain = gap) :
    roundsTo s e grain point = true ↔
      4 * (s * gap) ≤ point + quartersBelow s e * gap ∧ point ≤ 4 * (s * gap) + 2 * gap ∧
        (s % 2 = 1 → 4 * (s * gap) < point + quartersBelow s e * gap ∧
          point < 4 * (s * gap) + 2 * gap) := by
  have hBelow : quartersBelow s e = 1 ∨ quartersBelow s e = 2 := by
    unfold quartersBelow
    split
    · exact Or.inl rfl
    · exact Or.inr rfl
  have hLow : (4 * s - quartersBelow s e) * gap + quartersBelow s e * gap = 4 * (s * gap) := by
    rw [← Nat.add_mul, Nat.sub_add_cancel (by omega), Nat.mul_assoc]
  have hHigh : (4 * s + 2) * gap = 4 * (s * gap) + 2 * gap := by
    rw [Nat.add_mul, Nat.mul_assoc]
  simp only [roundsTo, Nat.pow_eq, Nat.mul_assoc, hGap]
  rw [hHigh]
  generalize (4 * s - quartersBelow s e) * gap = low at hLow ⊢
  split
  · next hEven => simp only [Bool.and_eq_true, decide_eq_true_eq]; omega
  · simp only [Bool.and_eq_true, decide_eq_true_eq]; omega

theorem quartersBelow_of_odd (h : s % 2 = 1) : quartersBelow s e = 2 := by
  unfold quartersBelow
  rw [if_neg]
  rintro ⟨rfl, -⟩
  exact absurd h (by decide)

/-- Above the power of two that the numbers of a scale start at, a fraction is rounded at this
scale. -/
theorem round_at_scale {units gap : Nat} (hDen : 0 < den) (hGap : 2 ^ e * den = gap)
    (hScale : e = 0 ∨ 2 ^ 52 * gap ≤ units) (hs : s < 2 ^ 53)
    (hLow : 2 * (s * gap) ≤ 2 * units + gap) (hHigh : 2 * units ≤ 2 * (s * gap) + gap)
    (hOdd : s % 2 = 1 → 2 * (s * gap) < 2 * units + gap ∧ 2 * units < 2 * (s * gap) + gap) :
    scaleOf (units / den) = e ∧ roundHalfEven units (den * 2 ^ e) = s := by
  have hPos : 0 < gap := hGap ▸ Nat.mul_pos (Nat.two_pow_pos e) hDen
  have hBelow : units < 2 ^ 53 * gap := by
    have hMul := Nat.mul_le_mul_right gap (show s + 1 ≤ 2 ^ 53 from hs)
    rw [Nat.add_mul] at hMul
    omega
  constructor
  · rcases hScale with rfl | hAbove
    · refine scaleOf_of_lt ((Nat.div_lt_iff_lt_mul hDen).mpr ?_)
      rwa [← hGap, Nat.pow_zero, Nat.one_mul] at hBelow
    · refine scaleOf_eq ((Nat.le_div_iff_mul_le hDen).mpr ?_) ((Nat.div_lt_iff_lt_mul hDen).mpr ?_)
      · rwa [Nat.pow_add, Nat.mul_assoc, hGap]
      · rwa [Nat.pow_add, Nat.mul_assoc, hGap]
  · rw [Nat.mul_comm den, hGap]
    exact roundHalfEven_eq hLow hHigh hOdd hPos

/-- Just below the power of two that the numbers of a scale start at, a fraction is rounded up to it
from the scale below. -/
theorem round_below_scale {units gap : Nat} (hDen : 0 < den) (hGap : 2 ^ e * den = gap)
    (hBelow : units < 2 ^ 53 * gap) (hLow : 2 * 2 ^ 53 * gap ≤ 2 * units + gap) :
    scaleOf (units / den) = e ∧ roundHalfEven units (den * 2 ^ e) = 2 ^ 53 := by
  have hPos : 0 < gap := hGap ▸ Nat.mul_pos (Nat.two_pow_pos e) hDen
  constructor
  · refine scaleOf_eq ((Nat.le_div_iff_mul_le hDen).mpr ?_) ((Nat.div_lt_iff_lt_mul hDen).mpr ?_)
    · rw [Nat.pow_add, Nat.mul_assoc, hGap]
      omega
    · rwa [Nat.pow_add, Nat.mul_assoc, hGap]
  · rw [Nat.mul_comm den, hGap]
    refine roundHalfEven_eq ?_ ?_ (fun hOdd => absurd hOdd (by decide)) hPos
    · omega
    · omega

/-- A fraction between the boundaries of a number is rounded to it. -/
theorem nearest_of_roundsTo (hForm : InForm s e) (hs : 0 < s) (hDen : 0 < den)
    (h : roundsTo s e den (4 * (num * unitsPerOne)) = true) :
    nearest negative num den = finite negative s e := by
  unfold nearest
  dsimp only
  rw [Nat.pow_eq]
  generalize num * unitsPerOne = units at h ⊢
  generalize hGap : 2 ^ e * den = gap
  obtain ⟨hLow, hHigh, hOdd⟩ := (roundsTo_iff hs hGap).mp h
  have hBound := hForm.bound
  by_cases hScale : e = 0 ∨ 2 ^ 52 * gap ≤ units
  · -- a boundary one quarter away is that of a power of two, and lies below this power
    have hLower : 2 * (s * gap) ≤ 2 * units + gap := by
      unfold quartersBelow at hLow
      split at hLow <;> omega
    have hStrict : s % 2 = 1 →
        2 * (s * gap) < 2 * units + gap ∧ 2 * units < 2 * (s * gap) + gap := by
      intro hs'
      have hBoth := hOdd hs'
      rw [quartersBelow_of_odd hs'] at hBoth
      omega
    obtain ⟨hAt, hRound⟩ := round_at_scale hDen hGap hScale hBound hLower (by omega) hStrict
    rw [hAt, hRound, if_neg (show s ≠ significandBound from hBound.ne), ofScale_eq hForm]
  · obtain ⟨e, rfl⟩ : ∃ e', e = e' + 1 := Nat.exists_eq_succ_of_ne_zero fun h0 => hScale (Or.inl h0)
    have hHalf : 2 * (2 ^ e * den) = gap := by rw [← hGap, Nat.pow_succ]; ring
    have hPower : s = 2 ^ 52 := by
      have hFull := hForm.full.resolve_left (Nat.succ_ne_zero e)
      by_contra hNe
      have hMul := Nat.mul_le_mul_right gap (show 2 ^ 52 + 1 ≤ s by omega)
      unfold quartersBelow at hLow
      split at hLow <;> omega
    subst hPower
    rw [show quartersBelow (2 ^ 52) (e + 1) = 1 from if_pos ⟨rfl, Nat.succ_pos e⟩] at hLow
    obtain ⟨hAt, hRound⟩ := round_below_scale (e := e) hDen rfl
      (show units < 2 ^ 53 * _ by omega) (by omega)
    rw [hAt, hRound, if_pos (show 2 ^ 53 = significandBound by decide),
      show significandBound / 2 = 2 ^ 52 by decide, ofScale_eq hForm]

end Nearest

end SqlKit.Binary64
