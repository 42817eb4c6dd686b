import SqlKit.Proofs.Token.Tiling

/-!
# A text behind another one

A text that stands behind another one is cut into the same tokens. Their places are those in the
text alone, shifted by the place where it starts (`Cursor.tokens_shift`): offsets and lines are
added, columns only on the first line.
-/

namespace SqlKit

namespace Position

/-- A place in a text that starts at the place `base`. -/
def shift (base p : Position) : Position where
  offset := base.offset + p.offset
  line := base.line + (p.line - 1)
  column := if p.line = 1 then base.column + (p.column - 1) else p.column

/-- Lines and columns are counted from one. -/
def FromOne (p : Position) : Prop := 1 ≤ p.line ∧ 1 ≤ p.column

theorem advance_add (p : Position) (m n : Nat) (cs : List Char) :
    p.advance (m + n) cs = (p.advance m cs).advance n (cs.drop m) := by
  induction m generalizing p cs with
  | zero => rw [Nat.zero_add, advance_zero, List.drop_zero]
  | succ m ih =>
    cases cs with
    | nil => rw [advance_nil, advance_nil, List.drop_nil, advance_nil]
    | cons c cs => rw [Nat.succ_add, advance_succ, advance_succ, List.drop_succ_cons, ih]

theorem fromOne_start : start.FromOne := ⟨Nat.le_refl _, Nat.le_refl _⟩

theorem FromOne.step {p : Position} (h : p.FromOne) (c : Char) (cs : List Char) :
    (p.step c cs).FromOne := by
  obtain ⟨hLine, hColumn⟩ := h
  unfold Position.step
  dsimp only
  split
  · exact ⟨Nat.le_succ_of_le hLine, Nat.le_refl _⟩
  · split
    · exact ⟨hLine, hColumn⟩
    · exact ⟨hLine, Nat.le_succ_of_le hColumn⟩

theorem FromOne.advance {p : Position} (h : p.FromOne) (count : Nat) (cs : List Char) :
    (p.advance count cs).FromOne := by
  induction count generalizing p cs with
  | zero => rwa [advance_zero]
  | succ count ih =>
    cases cs with
    | nil => rwa [advance_nil]
    | cons c cs => exact ih (h.step c cs) cs

theorem shift_start (base : Position) : base.shift start = base := by
  simp [shift, start]

theorem shift_step {p : Position} (h : p.FromOne) (base : Position) (c : Char) (cs : List Char) :
    base.shift (p.step c cs) = (base.shift p).step c cs := by
  obtain ⟨hLine, hColumn⟩ := h
  unfold Position.step
  dsimp only
  split
  · simp only [shift, mk.injEq]
    refine ⟨by omega, by omega, ?_⟩
    rw [if_neg (by omega)]
  · split
    · simp only [shift, mk.injEq, and_true]
      omega
    · simp only [shift, mk.injEq, true_and]
      refine ⟨by omega, ?_⟩
      split <;> omega

theorem shift_advance {p : Position} (h : p.FromOne) (base : Position) (count : Nat)
    (cs : List Char) : base.shift (p.advance count cs) = (base.shift p).advance count cs := by
  induction count generalizing p cs with
  | zero => rw [advance_zero, advance_zero]
  | succ count ih =>
    cases cs with
    | nil => rw [advance_nil, advance_nil]
    | cons c cs => rw [advance_succ, advance_succ, ih (h.step c cs) cs, shift_step h]

end Position

/-- A span in a text that starts at `base`. -/
def Span.shift (base : Position) (s : Span) : Span := ⟨base.shift s.first, base.shift s.last⟩

/-- A token of a text that starts at `base`. -/
def Token.shift (base : Position) (t : Token) : Token := { t with span := t.span.shift base }

namespace Cursor

/-- A place in a text that starts at `base`. -/
def shift (base : Position) (c : Cursor) : Cursor := { c with position := base.shift c.position }

theorem advance_shift {c : Cursor} (h : c.position.FromOne) (base : Position) (count : Nat) :
    (c.shift base).advance count = (c.advance count).shift base := by
  simp only [shift, advance, Position.shift_advance h]

theorem token?_shift {c : Cursor} (h : c.position.FromOne) (base : Position) :
    (c.shift base).token? = c.token?.map fun found => (found.1.shift base, found.2.shift base) := by
  have hRest : (c.shift base).rest = c.rest := rfl
  unfold token?
  rw [hRest]
  split
  · rfl
  · simp only [advance_shift h]
    rfl

theorem next?_shift {c : Cursor} (h : c.position.FromOne) (base : Position) :
    (c.shift base).next? = c.next?.map fun found => (found.1.shift base, found.2.shift base) := by
  have hGap : (c.shift base).skipGap = c.skipGap.shift base := advance_shift h base _
  rw [next?, hGap, token?_shift (h.advance _ _)]
  rfl

theorem fromOne_of_next? {c after : Cursor} {t : Token} (h : c.position.FromOne)
    (hNext : c.next? = some (t, after)) : after.position.FromOne := by
  obtain ⟨_, _, -, rfl, -⟩ := token?_eq_some_iff.mp hNext
  exact (h.advance _ _).advance _ _

theorem tokens_of_none {c : Cursor} (h : c.next? = none) : c.tokens = [] := by
  rw [tokens]
  split
  · rfl
  · next hSome => cases h.symm.trans hSome

/-- There are no tokens where nothing is left of the text. -/
@[simp] theorem tokens_nil (p : Position) : tokens ⟨p, []⟩ = [] := by
  refine tokens_of_none (token?_eq_none_iff.mpr ?_)
  simp [skipGap]

theorem tokens_of_some {c after : Cursor} {t : Token} (h : c.next? = some (t, after)) :
    c.tokens = t :: after.tokens := by
  rw [tokens]
  split
  · next hNone => cases h.symm.trans hNone
  · next hSome =>
    obtain ⟨rfl, rfl⟩ := Prod.mk.inj (Option.some.inj (h.symm.trans hSome))
    rfl

/-- The tokens of a text that starts at another place are the same tokens, shifted. -/
theorem tokens_shift (c : Cursor) (h : c.position.FromOne) (base : Position) :
    (c.shift base).tokens = c.tokens.map (Token.shift base) := by
  fun_induction tokens c with
  | case1 c hNone =>
    exact tokens_of_none (by rw [next?_shift h, hNone, Option.map_none])
  | case2 c t after hSome ih =>
    have hNext : (c.shift base).next? = some (t.shift base, after.shift base) := by
      rw [next?_shift h, hSome, Option.map_some]
    rw [tokens_of_some hNext, ih (fromOne_of_next? h hSome), List.map_cons]

/-! ### The end of the text -/

/-- Wherever a cursor goes on, the text ends at the same place. -/
theorem finish_advance (c : Cursor) (count : Nat) : (c.advance count).finish = c.finish := by
  unfold finish
  rw [rest_advance, advance, List.length_drop]
  rcases Nat.le_total count c.rest.length with h | h
  · rw [← Position.advance_add, Nat.add_sub_cancel' h]
  · rw [List.drop_eq_nil_of_le h, Position.advance_nil, ← Nat.add_sub_cancel' h,
      Position.advance_add, List.drop_length, Position.advance_nil]

theorem finish_skipGap (c : Cursor) : c.skipGap.finish = c.finish := finish_advance _ _

theorem finish_of_next? {c after : Cursor} {t : Token} (h : c.next? = some (t, after)) :
    after.finish = c.finish := by
  obtain ⟨_, _, -, rfl, -⟩ := token?_eq_some_iff.mp h
  rw [finish_advance, finish_skipGap]

end Cursor

/-- The tokens of a text that stands behind the place `base`. -/
theorem tokens_behind (base : Position) (text : String) :
    Cursor.tokens ⟨base, text.toList⟩ = (tokensOf text).map (Token.shift base) := by
  rw [tokensOf, ← Cursor.tokens_shift (Cursor.ofString text) Position.fromOne_start base]
  simp only [Cursor.shift, Cursor.ofString, Position.shift_start]

/-- The end of a text that stands behind the place `base`. -/
theorem finish_behind (base : Position) (text : String) :
    Cursor.finish ⟨base, text.toList⟩ = base.shift (endOf text) := by
  simp only [endOf, Cursor.finish, Cursor.ofString,
    Position.shift_advance Position.fromOne_start, Position.shift_start]

end SqlKit
