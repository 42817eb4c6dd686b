import SqlKit.Proofs.Number.Rounding

/-!
# Shortest digits

The digits that `shortest` finds lie between the boundaries of the number, so that they are read
back as the number (`ofDecimal_shortest`). They are those of a whole number exactly if the number is
whole (`exponent_shortest_iff`), and then they are below a power of two exactly if the number is
(`wholeDigits_lt_iff`).
-/

namespace SqlKit.Binary64

variable {negative : Bool} {s e digits : Nat} {exponent : Int}

/-! ## Reading decimal digits -/

theorem lt_ten_pow_digitCount (n : Nat) : n < 10 ^ digitCount n :=
  (Nat.length_toDigits_le_iff (by decide) Nat.length_toDigits_pos).mp le_rfl

theorem ten_pow_digitCount_le {n : Nat} (h : 0 < n) : 10 ^ (digitCount n - 1) ≤ n := by
  by_contra hLess
  have hMore : digitCount n ≠ 1 := by
    intro hOne
    rw [hOne] at hLess
    omega
  have hPos : 0 < digitCount n := Nat.length_toDigits_pos
  have hCount : digitCount n ≤ digitCount n - 1 :=
    (Nat.length_toDigits_le_iff (by decide) (by omega)).mpr (Nat.not_le.mp hLess)
  omega

theorem isNormal_ofDecimal : (ofDecimal negative digits exponent).IsNormal := by
  have hZero : (finite negative 0 0).IsNormal := ⟨by decide, Or.inl rfl, by decide⟩
  unfold ofDecimal
  dsimp only
  split
  · exact hZero
  · split
    · trivial
    · split
      · exact hZero
      · exact isNormal_nearest (Nat.pow_pos (by decide))

/-- Decimal digits between the boundaries of a number are read as this number: they are not of an
order of magnitude that the format does not reach. -/
theorem ofDecimal_of_roundsTo (hForm : InForm s e) (hs : 0 < s)
    (h : roundsTo s e (10 ^ (-exponent).toNat)
      (4 * (digits * 10 ^ exponent.toNat * unitsPerOne)) = true) :
    ofDecimal negative digits exponent = finite negative s e := by
  generalize hDen : 10 ^ (-exponent).toNat = den at h
  generalize hNum : digits * 10 ^ exponent.toNat = num at h
  generalize hGap : 2 ^ e * den = gap
  obtain ⟨hLow, hHigh, -⟩ := (roundsTo_iff hs hGap).mp h
  have hDenPos : 0 < den := hDen ▸ Nat.pow_pos (by decide)
  have hGapPos : den ≤ gap := by
    rw [← hGap]
    exact Nat.le_mul_of_pos_left den (Nat.two_pow_pos e)
  have hOne := Nat.mul_le_mul_right gap (show 1 ≤ s from hs)
  have hLower : den ≤ 2 * (num * unitsPerOne) := by
    unfold quartersBelow at hLow
    split at hLow <;> omega
  have hUpper : num * unitsPerOne ≤ 2 ^ 53 * gap := by
    have hMul := Nat.mul_le_mul_right gap (show s + 1 ≤ 2 ^ 53 from hForm.bound)
    rw [Nat.add_mul] at hMul
    omega
  have hNumPos : 0 < num := Nat.pos_of_ne_zero fun h0 => by
    rw [h0, Nat.zero_mul] at hLower
    omega
  have hDigits : 0 < digits := Nat.pos_of_ne_zero fun h0 => by
    rw [h0, Nat.zero_mul] at hNum
    omega
  have hCount := lt_ten_pow_digitCount digits
  have hCount' := ten_pow_digitCount_le hDigits
  unfold ofDecimal
  dsimp only
  generalize digitCount digits = count at hCount hCount' ⊢
  rw [if_neg hDigits.ne', if_neg, if_neg, Nat.pow_eq, Nat.pow_eq, hNum, hDen,
    nearest_of_roundsTo hForm hs hDenPos h]
  · -- what is below half a unit is not above the lower boundary
    intro hSmall
    have hExponents : 10 ^ count * 10 ^ exponent.toNat * 10 ^ 331 ≤ den := by
      rw [← hDen, ← Nat.pow_add, ← Nat.pow_add]
      exact Nat.pow_le_pow_right (by decide) (by omega)
    have hNumLess : num * 10 ^ 331 ≤ den := by
      rw [← hNum]
      refine le_trans (Nat.mul_le_mul_right _ (Nat.mul_le_mul_right _ hCount.le)) hExponents
    have hPowers : num * 10 ^ 331 ≤ num * (2 * unitsPerOne) := by
      calc num * 10 ^ 331 ≤ 2 * (num * unitsPerOne) := hNumLess.trans hLower
        _ = num * (2 * unitsPerOne) := Nat.mul_left_comm _ _ _
    exact absurd (Nat.le_of_mul_le_mul_left hPowers hNumPos) (by decide +kernel)
  · -- what is above the greatest scale is not below the upper boundary
    intro hLarge
    have hExponents : 10 ^ 310 * den ≤ 10 ^ (count - 1) * 10 ^ exponent.toNat := by
      rw [← hDen, ← Nat.pow_add, ← Nat.pow_add]
      exact Nat.pow_le_pow_right (by decide) (by omega)
    have hNumMore : 10 ^ 310 * den ≤ num := by
      rw [← hNum]
      exact hExponents.trans (Nat.mul_le_mul_right _ hCount')
    have hGapLess : gap ≤ 2 ^ maxScale * den := by
      rw [← hGap]
      exact Nat.mul_le_mul_right den (Nat.pow_le_pow_right (by decide) hForm.top)
    have hPowers : 10 ^ 310 * unitsPerOne * den ≤ 2 ^ 53 * 2 ^ maxScale * den := by
      calc 10 ^ 310 * unitsPerOne * den = 10 ^ 310 * den * unitsPerOne := Nat.mul_right_comm _ _ _
        _ ≤ num * unitsPerOne := Nat.mul_le_mul_right _ hNumMore
        _ ≤ 2 ^ 53 * (2 ^ maxScale * den) := hUpper.trans (Nat.mul_le_mul_left _ hGapLess)
        _ = 2 ^ 53 * 2 ^ maxScale * den := (Nat.mul_assoc _ _ _).symm
    exact absurd (Nat.le_of_mul_le_mul_right hPowers hDenPos) (by decide +kernel)

/-! ## Units -/

theorem unitsPerOne_pos : 0 < unitsPerOne := by
  unfold unitsPerOne
  generalize 1074 = n
  exact Nat.pow_pos (by decide)

theorem unitsPerOne_eq_mul {a b : Nat} (h : 1074 = a + b) : unitsPerOne = 2 ^ a * 2 ^ b := by
  unfold unitsPerOne
  rw [h, Nat.pow_eq, Nat.pow_add]

theorem exists_two_pow_mul_unitsPerOne (a : Nat) :
    ∃ m, m = a + 1074 ∧ 2 ^ a * unitsPerOne = 2 ^ m := by
  unfold unitsPerOne
  generalize 1074 = n
  exact ⟨a + n, rfl, (Nat.pow_add 2 a n).symm⟩

theorem unitsPerOne_dvd_two_pow (h : 1074 ≤ e) : unitsPerOne ∣ 2 ^ e := by
  unfold unitsPerOne
  generalize 1074 = n at h
  exact Nat.pow_dvd_pow 2 h

theorem unitsPerOne_dvd_ten_pow {n : Nat} (h : 1074 ≤ n) : unitsPerOne ∣ 10 ^ n :=
  (unitsPerOne_dvd_two_pow h).trans (pow_dvd_pow_of_dvd (by decide) n)

/-! ## Looking for digits -/

/-- A point that is found on a grid lies between the boundaries of the number. -/
theorem roundsTo_of_onGrid {d : Decimal} (h : onGrid s e exponent = some d) :
    d.exponent = exponent ∧ roundsTo s e (10 ^ (-exponent).toNat)
      (4 * (d.digits * 10 ^ exponent.toNat * unitsPerOne)) = true := by
  have hPoint : ∀ n, n * (4 * unitsPerOne * 10 ^ exponent.toNat) =
      4 * (n * 10 ^ exponent.toNat * unitsPerOne) := fun n => by ring
  simp only [onGrid, Nat.pow_eq, hPoint] at h
  split at h
  · next hLower =>
    obtain rfl := Option.some.inj h
    exact ⟨rfl, (Bool.and_eq_true_iff.mp hLower).1⟩
  · split at h
    · next hUpper =>
      obtain rfl := Option.some.inj h
      exact ⟨rfl, hUpper⟩
    · cases h

/-- A number that is itself a point of a grid is found there. -/
theorem isSome_onGrid (hs : 0 < s) (h : unitsPerOne * 10 ^ exponent.toNat ∣
      s * 2 ^ e * 10 ^ (-exponent).toNat) : (onGrid s e exponent).isSome = true := by
  have hStep : 4 * unitsPerOne * 10 ^ exponent.toNat ∣ 4 * s * 2 ^ e * 10 ^ (-exponent).toNat := by
    simpa only [Nat.mul_assoc] using Nat.mul_dvd_mul_left 4 h
  have hPos : 0 < 4 * unitsPerOne * 10 ^ exponent.toNat :=
    Nat.mul_pos (Nat.mul_pos (by decide) unitsPerOne_pos) (Nat.pow_pos (by decide))
  have hSelf : roundsTo s e (10 ^ (-exponent).toNat) (4 * s * 2 ^ e * 10 ^ (-exponent).toNat) =
      true := by
    generalize hGap : 2 ^ e * 10 ^ (-exponent).toNat = gap
    have hGapPos : 0 < gap := hGap ▸ Nat.mul_pos (Nat.two_pow_pos e) (Nat.pow_pos (by decide))
    have hBelow : gap ≤ quartersBelow s e * gap := by
      unfold quartersBelow
      split <;> omega
    rw [Nat.mul_assoc, Nat.mul_assoc, hGap, roundsTo_iff hs hGap]
    omega
  simp only [onGrid, Nat.pow_eq, Nat.div_mul_cancel hStep, Nat.mod_eq_zero_of_dvd hStep, hSelf]
  simp [hPos]

/-- Where there is a hit on some grid, the digits come from this grid or from a coarser one. -/
theorem shortest_of_hit {i : Nat} (hi : i < 1384)
    (hHit : (onGrid s e (309 - (i : Int))).isSome = true) :
    309 - (i : Int) ≤ (shortest s e).exponent ∧
      onGrid s e (shortest s e).exponent = some (shortest s e) := by
  obtain ⟨k, hk⟩ : ∃ k, 1384 = (i + 1) + k := ⟨1384 - (i + 1), by omega⟩
  have hFirst :
    ((List.range (i + 1)).findSome? fun i : Nat => onGrid s e (309 - (i : Int))).isSome =
      true :=
    List.findSome?_isSome_iff.mpr ⟨i, List.mem_range.mpr (Nat.lt_succ_self i), hHit⟩
  obtain ⟨d, hd⟩ := Option.isSome_iff_exists.mp hFirst
  have hShortest : shortest s e = d := by
    rw [shortest, hk, List.range_add, List.findSome?_append, hd]
    rfl
  obtain ⟨j, hj, hGrid⟩ := List.exists_of_findSome?_eq_some hd
  have hLess := List.mem_range.mp hj
  rw [hShortest, (roundsTo_of_onGrid hGrid).1]
  exact ⟨by omega, hGrid⟩

/-- The digits of a number were found on the grid of their exponent: at the latest on that of
`10 ^ -1074`, of which every number is a multiple. -/
theorem onGrid_shortest (hs : 0 < s) :
    onGrid s e (shortest s e).exponent = some (shortest s e) := by
  obtain ⟨i, hi, hLast⟩ : ∃ i : Nat, i < 1384 ∧ 309 - (i : Int) = -1074 := ⟨1383, by decide, rfl⟩
  refine (shortest_of_hit hi (isSome_onGrid hs ?_)).2
  have hPowers : unitsPerOne ∣ 10 ^ (-(309 - (i : Int))).toNat :=
    unitsPerOne_dvd_ten_pow (by omega)
  rw [show (309 - (i : Int)).toNat = 0 by omega, Nat.pow_zero, Nat.mul_one]
  exact Dvd.dvd.mul_left hPowers (s * 2 ^ e)

/-- **The shortest digits of a number are read back as the number.** -/
theorem ofDecimal_shortest (hForm : InForm s e) (hs : 0 < s) :
    ofDecimal negative (shortest s e).digits (shortest s e).exponent = finite negative s e :=
  ofDecimal_of_roundsTo hForm hs (roundsTo_of_onGrid (onGrid_shortest hs)).2

/-! ## Whole numbers -/

/-- The whole number that the digits of a number stand for if they have no fraction. -/
def wholeDigits (significand scale : Nat) : Nat :=
  (shortest significand scale).digits * 10 ^ (shortest significand scale).exponent.toNat

section Whole

theorem roundsTo_wholeDigits (hs : 0 < s) (hWhole : 0 ≤ (shortest s e).exponent) :
    roundsTo s e 1 (4 * (wholeDigits s e * unitsPerOne)) = true := by
  have hRounds := (roundsTo_of_onGrid (onGrid_shortest (e := e) hs)).2
  rwa [show (-(shortest s e).exponent).toNat = 0 by omega, Nat.pow_zero] at hRounds

/-- The digits of a number without a fraction are read back also when they are written out. -/
theorem ofDecimal_wholeDigits (hForm : InForm s e) (hs : 0 < s)
    (hWhole : 0 ≤ (shortest s e).exponent) :
    ofDecimal negative (wholeDigits s e) 0 = finite negative s e := by
  refine ofDecimal_of_roundsTo hForm hs ?_
  simpa using roundsTo_wholeDigits hs hWhole

/-- A number is whole exactly if its shortest digits have no fraction: between two neighbours that
are not whole there is no whole number but the number itself. -/
theorem exponent_shortest_iff (hs : 0 < s) :
    0 ≤ (shortest s e).exponent ↔ unitsPerOne ∣ s * 2 ^ e := by
  constructor
  · intro hWhole
    obtain ⟨hLow, hHigh, -⟩ := (roundsTo_iff hs rfl).mp (roundsTo_wholeDigits (e := e) hs hWhole)
    rw [Nat.mul_one] at hLow hHigh
    rcases Nat.le_total 1074 e with hLarge | hSmall
    · exact Dvd.dvd.mul_left (unitsPerOne_dvd_two_pow hLarge) s
    · obtain ⟨k, hk⟩ := Nat.exists_eq_add_of_le hSmall
      have hUnits : wholeDigits s e * unitsPerOne = wholeDigits s e * 2 ^ k * 2 ^ e := by
        rw [unitsPerOne_eq_mul hk]
        ring
      refine ⟨wholeDigits s e, ?_⟩
      rw [Nat.mul_comm unitsPerOne, hUnits]
      rw [hUnits] at hLow hHigh
      refine congrArg (· * 2 ^ e) ?_
      -- both are multiples of the distance between neighbours, and less than one such apart
      have hGapPos := Nat.two_pow_pos e
      generalize wholeDigits s e * 2 ^ k = n at hLow hHigh ⊢
      rcases Nat.lt_trichotomy s n with hLess | hSame | hMore
      · have hMul := Nat.mul_le_mul_right (2 ^ e) hLess
        rw [Nat.succ_mul] at hMul
        omega
      · exact hSame
      · have hMul := Nat.mul_le_mul_right (2 ^ e) hMore
        rw [Nat.succ_mul] at hMul
        unfold quartersBelow at hLow
        split at hLow <;> omega
  · intro hDvd
    have hHit : (onGrid s e (309 - ((309 : Nat) : Int))).isSome = true :=
      isSome_onGrid hs (by simpa using hDvd)
    have hCoarse := (shortest_of_hit (by decide) hHit).1
    simpa using hCoarse

/-- A multiple of a power of two that is below a greater power keeps a whole step off it. -/
theorem succ_mul_two_pow_le {a m : Nat} (ha : 0 < a) (h : a * 2 ^ e < 2 ^ m) :
    (a + 1) * 2 ^ e ≤ 2 ^ m := by
  have hLess : 2 ^ e < 2 ^ m := (Nat.le_mul_of_pos_left (2 ^ e) ha).trans_lt h
  obtain ⟨k, rfl⟩ := Nat.exists_eq_add_of_lt ((Nat.pow_lt_pow_iff_right (by decide)).mp hLess)
  rw [Nat.add_assoc, Nat.pow_add, Nat.mul_comm (2 ^ e)] at h ⊢
  exact Nat.mul_le_mul_right _ (Nat.lt_of_mul_lt_mul_right h)

/-- The scale of a number that is not below a great power of two, and a significand that fills
it. -/
theorem full_of_two_pow_le {m : Nat} (hForm : InForm s e) (hm : 53 ≤ m) (h : 2 ^ m ≤ s * 2 ^ e) :
    m < 53 + e ∧ 2 ^ 52 ≤ s := by
  have hScale : m < 53 + e := by
    refine (Nat.pow_lt_pow_iff_right (a := 2) (by decide)).mp (h.trans_lt ?_)
    rw [Nat.pow_add]
    exact Nat.mul_lt_mul_of_pos_right hForm.bound (Nat.two_pow_pos e)
  exact ⟨hScale, hForm.full.resolve_left (by omega)⟩

/-- The lower boundary of a number above a great power of two is not below this power. -/
theorem boundary_of_two_pow_lt {m : Nat} (hForm : InForm s e) (hm : 53 ≤ m)
    (h : 2 ^ m < s * 2 ^ e) : 4 * 2 ^ m + quartersBelow s e * 2 ^ e ≤ 4 * (s * 2 ^ e) := by
  obtain ⟨hScale, hFull⟩ := full_of_two_pow_le hForm hm h.le
  have hQuarters : quartersBelow s e * 2 ^ e ≤ 2 * 2 ^ e := by
    refine Nat.mul_le_mul_right _ ?_
    unfold quartersBelow
    split <;> decide
  obtain hSame | hBelow : m = 52 + e ∨ m ≤ 51 + e := by omega
  · rw [hSame, Nat.pow_add] at h ⊢
    have hMul := Nat.mul_le_mul_right (2 ^ e) (Nat.lt_of_mul_lt_mul_right h)
    rw [Nat.succ_mul] at hMul
    omega
  · have hPower := Nat.pow_le_pow_right (show 0 < 2 by decide) hBelow
    have hMul := Nat.mul_le_mul_right (2 ^ e) hFull
    rw [Nat.pow_add] at hPower
    omega

/-- The only number of the value `2 ^ 1137`. -/
theorem eq_of_mul_two_pow_eq {m : Nat} (hForm : InForm s e) (hm : 53 ≤ m) (h : s * 2 ^ e = 2 ^ m) :
    s = 2 ^ 52 ∧ m = 52 + e := by
  obtain ⟨hScale, hFull⟩ := full_of_two_pow_le hForm hm h.ge
  have hAbove : 52 + e ≤ m := by
    refine (Nat.pow_le_pow_iff_right (a := 2) (by decide)).mp ?_
    rw [← h, Nat.pow_add]
    exact Nat.mul_le_mul_right _ hFull
  have hSame : m = 52 + e := by omega
  rw [hSame, Nat.pow_add] at h
  exact ⟨Nat.eq_of_mul_eq_mul_right (Nat.two_pow_pos e) h, hSame⟩

/-- A whole number is below `2 ^ 63` exactly if the number that its digits stand for is. The digits
may stand for another number, but this one lies between the boundaries, and on the same side of
`2 ^ 63`. -/
theorem wholeDigits_lt_iff (hForm : InForm s e) (hs : 0 < s)
    (hWhole : 0 ≤ (shortest s e).exponent) :
    wholeDigits s e < 2 ^ 63 ↔ s * 2 ^ e < 2 ^ 63 * unitsPerOne := by
  obtain ⟨hLow, hHigh, -⟩ := (roundsTo_iff hs rfl).mp (roundsTo_wholeDigits (e := e) hs hWhole)
  rw [Nat.mul_one] at hLow hHigh
  have hUnits := unitsPerOne_pos
  obtain ⟨m, hm, hPower⟩ := exists_two_pow_mul_unitsPerOne 63
  constructor
  · intro hLess
    have hMul := Nat.mul_le_mul_right unitsPerOne (Nat.succ_le_of_lt hLess)
    rw [Nat.succ_mul, hPower] at hMul
    rw [hPower]
    rcases Nat.lt_trichotomy (s * 2 ^ e) (2 ^ m) with hBelow | hSame | hAbove
    · exact hBelow
    · -- the digits of this power of two stand for a number above it
      obtain ⟨rfl, hScale⟩ := eq_of_mul_two_pow_eq hForm (by omega) hSame
      obtain rfl : e = 1085 := by omega
      exact absurd hLess (by decide +kernel)
    · have hAway := boundary_of_two_pow_lt hForm (by omega) hAbove
      omega
  · intro hLess
    by_contra hMore
    have hMul := Nat.mul_le_mul_right unitsPerOne (Nat.not_lt.mp hMore)
    rw [hPower] at hLess hMul
    have hStep := succ_mul_two_pow_le hs hLess
    rw [Nat.succ_mul] at hStep
    omega

end Whole

end SqlKit.Binary64
