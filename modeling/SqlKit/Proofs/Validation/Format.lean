import SqlKit.Proofs.Pattern.Anchoring
import SqlKit.Validation.Format

/-!
# Formats

A format is made of bounds on a length and an expression, either of which may be missing. It cannot
be made from bounds that enclose nothing, nor from an expression that the engine does not know, and
the bounds are looked at first (`Format.ofPartsBy_eq_error_iff`). **A format that was made accepts
just the texts whose length is within the bounds and whose whole passes the test of the engine**
(`Format.complaint?_eq_none_iff`). All of this holds of any engine. With the engine of patterns, the
test is that the pattern matches the whole text (`Format.complaint?_ofParts_eq_none_iff`).
-/

namespace SqlKit

/-! ## Bounds -/

/-- Bounds that enclose some length: a least one that is not negative, and a greatest one that is
not less, or `-1` for an open end. -/
def Enclose (bounds : Int × Int) : Prop := 0 ≤ bounds.1 ∧ (bounds.2 = -1 ∨ bounds.1 ≤ bounds.2)

/-- Whether a length is within bounds. -/
def IsWithin (bounds : Int × Int) (length : Nat) : Prop :=
  bounds.1 ≤ length ∧ (bounds.2 = -1 ∨ length ≤ bounds.2)

theorem LengthRange.ofBounds_eq_error_iff {least most : Int} {e : InvalidLengthRange} :
    ofBounds least most = .error e ↔ ¬Enclose (least, most) ∧ e = ⟨least, most⟩ := by
  unfold ofBounds Enclose
  split
  · simp only [Except.error.injEq, eq_comm, iff_and_self]
    omega
  split
  · simp only [reduceCtorEq, false_iff, not_and]
    omega
  split
  · simp only [Except.error.injEq, eq_comm, iff_and_self]
    omega
  · simp only [reduceCtorEq, false_iff, not_and]
    omega

namespace Format

variable {engine : Engine} {bounds : Option (Int × Int)} {expression message : Option String}
  {f : Format} {e : ConfigurationError}

/-! ## Making formats -/

theorem rangeOf_eq_error_iff :
    rangeOf bounds = .error e ↔ ∃ b ∈ bounds, ¬Enclose b ∧ e = .invalidLengthRange ⟨b.1, b.2⟩ := by
  rcases bounds with _ | ⟨least, most⟩
  · simp [rangeOf]
  cases hRange : LengthRange.ofBounds least most with
  | ok range =>
    have hEnclose : Enclose (least, most) := by
      by_contra hNot
      rw [LengthRange.ofBounds_eq_error_iff.mpr ⟨hNot, rfl⟩] at hRange
      cases hRange
    simp [rangeOf, hRange, hEnclose]
  | error e' =>
    obtain ⟨hNot, rfl⟩ := LengthRange.ofBounds_eq_error_iff.mp hRange
    simp [rangeOf, hRange, hNot, eq_comm]

theorem testOf_eq_error_iff :
    testOf engine expression = .error e ↔
      (∃ text ∈ expression, engine (anchored text) = none) ∧ e = .invalidPattern := by
  cases expression with
  | none => simp [testOf]
  | some text => cases h : engine (anchored text) <;> simp [testOf, h, eq_comm]

/-- **A format is not made from bounds that enclose nothing, nor from an expression that is none.**
The error tells which, and of both it tells of the bounds. -/
theorem ofPartsBy_eq_error_iff :
    ofPartsBy engine bounds expression message = .error e ↔
      (∃ b ∈ bounds, ¬Enclose b ∧ e = .invalidLengthRange ⟨b.1, b.2⟩) ∨
        (∀ b ∈ bounds, Enclose b) ∧
          (∃ text ∈ expression, engine (anchored text) = none) ∧ e = .invalidPattern := by
  rw [← rangeOf_eq_error_iff, ← testOf_eq_error_iff]
  cases hRange : rangeOf bounds with
  | error e' =>
    obtain ⟨b, hb, hNot, -⟩ := rangeOf_eq_error_iff.mp hRange
    rw [or_iff_left fun h => hNot (h.1 b hb)]
    simp [ofPartsBy, hRange, bind, Except.bind]
  | ok range =>
    have hAll : ∀ b ∈ bounds, Enclose b := fun b hb => by
      by_contra hNot
      rw [rangeOf_eq_error_iff.mpr ⟨b, hb, hNot, rfl⟩] at hRange
      cases hRange
    rw [and_iff_right hAll]
    cases hTest : testOf engine expression <;>
      simp [ofPartsBy, hRange, hTest, bind, Except.bind, pure, Except.pure]

theorem parts_of_ofPartsBy (h : ofPartsBy engine bounds expression message = .ok f) :
    ∃ range test, rangeOf bounds = .ok range ∧ testOf engine expression = .ok test ∧
      f = ⟨range, test, message⟩ := by
  cases hRange : rangeOf bounds with
  | error e => simp [ofPartsBy, hRange, bind, Except.bind] at h
  | ok range =>
    cases hTest : testOf engine expression with
    | error e => simp [ofPartsBy, hRange, hTest, bind, Except.bind] at h
    | ok test =>
      refine ⟨range, test, rfl, rfl, ?_⟩
      simpa [ofPartsBy, hRange, hTest, bind, Except.bind, pure, Except.pure, eq_comm] using h

/-! ## Accepting texts -/

theorem contains_rangeOf {range : Option LengthRange} (h : rangeOf bounds = .ok range)
    (length : Nat) : range.all (·.contains length) = true ↔ ∀ b ∈ bounds, IsWithin b length := by
  rcases bounds with _ | ⟨least, most⟩
  · cases h
    simp
  cases hRange : LengthRange.ofBounds least most with
  | error e => simp [rangeOf, hRange] at h
  | ok r =>
    obtain rfl : some r = range := by simpa [rangeOf, hRange] using h
    simpa [IsWithin] using LengthRange.contains_of_ofBounds hRange length

theorem passes_testOf {test : Option (String → Bool)} (h : testOf engine expression = .ok test)
    (text : String) : test.all (· text) = true ↔
      ∀ e ∈ expression, ∃ t ∈ engine (anchored e), t text = true := by
  cases expression with
  | none =>
    cases h
    simp
  | some e =>
    cases hTest : engine (anchored e) with
    | none => simp [testOf, hTest] at h
    | some t =>
      obtain rfl : some t = test := by simpa [testOf, hTest] using h
      simp [hTest]

theorem complaint?_eq_none (f : Format) (text : String) :
    f.complaint? text = none ↔
      f.length.all (·.contains text.length) = true ∧ f.test.all (· text) = true := by
  unfold complaint?
  rcases f.length with _ | range
  · cases f.test.all (· text) <;> simp
  · cases h : range.contains text.length <;> cases f.test.all (· text) <;> simp [Option.filter, h]

/-- **A format accepts the texts of a length within its bounds whose whole passes the test.** -/
theorem complaint?_eq_none_iff (h : ofPartsBy engine bounds expression message = .ok f)
    (text : String) :
    f.complaint? text = none ↔
      (∀ b ∈ bounds, IsWithin b text.length) ∧
        ∀ e ∈ expression, ∃ test ∈ engine (anchored e), test text = true := by
  obtain ⟨range, test, hRange, hTest, rfl⟩ := parts_of_ofPartsBy h
  rw [complaint?_eq_none, contains_rangeOf hRange, passes_testOf hTest]

/-- **With the engine of patterns, the pattern has to match the whole text.** -/
theorem complaint?_ofParts_eq_none_iff {pattern : String} {p : Pattern}
    (hp : Pattern.read pattern = some p) (h : ofParts bounds (some pattern) message = .ok f)
    (text : String) :
    f.complaint? text = none ↔
      (∀ b ∈ bounds, IsWithin b text.length) ∧ p.Matches text.toList.toArray 0 text.length := by
  rw [complaint?_eq_none_iff h]
  refine and_congr_right fun _ => ?_
  obtain ⟨-, test, -, hTest, -⟩ := parts_of_ofPartsBy h
  cases hEngine : Pattern.engine (anchored pattern) with
  | none => simp [testOf, hEngine] at hTest
  | some t =>
    rw [← Pattern.engine_anchored_iff hp hEngine text]
    simp [hEngine]

end Format

end SqlKit
