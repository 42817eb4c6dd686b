import Mathlib.Logic.Function.Iterate
import Mathlib.Order.Lattice
import Mathlib.Order.Nat
import SqlKit.Pattern.Basic

/-!
# What patterns match

`Pattern.Matches` says, by recursion on a pattern, from where to where in a text it matches. A
search does not follow single matches but keeps all places where one may have arrived, stops
repeating once nothing new is reached, and never repeats more often than there are characters. **It
finds the places that matches reach, and no others** (`Pattern.mem_reach_iff`), so a pattern occurs
in a text exactly if it matches some part of it (`Pattern.occursIn_iff`), and a pattern between the
two ends of the text exactly if it matches the whole (`Pattern.occursIn_ends_iff`).

A match never goes back, and a round of a repetition that stays where it is can be left out. So the
rounds that count are no more than the characters passed, which is what bounds a search.
-/

namespace SqlKit

/-! ## Rounds -/

/-- The places that so many steps lead to. -/
def Rounds (step : Nat → Nat → Prop) : Nat → Nat → Nat → Prop
  | 0, i, j => i = j
  | n + 1, i, j => ∃ k, step i k ∧ Rounds step n k j

namespace Rounds

variable {step : Nat → Nat → Prop} {m n i j k : Nat}

theorem trans (h : Rounds step m i j) (h' : Rounds step n j k) : Rounds step (m + n) i k := by
  induction m generalizing i with
  | zero =>
    obtain rfl : i = j := h
    simpa using h'
  | succ m ih =>
    obtain ⟨l, hStep, hRest⟩ := h
    rw [Nat.add_right_comm]
    exact ⟨l, hStep, ih hRest⟩

theorem split (h : Rounds step (m + n) i k) : ∃ j, Rounds step m i j ∧ Rounds step n j k := by
  induction m generalizing i with
  | zero => exact ⟨i, rfl, by simpa using h⟩
  | succ m ih =>
    rw [Nat.add_right_comm] at h
    obtain ⟨l, hStep, hRest⟩ := h
    obtain ⟨j, hBefore, hBehind⟩ := ih hRest
    exact ⟨j, ⟨l, hStep, hBefore⟩, hBehind⟩

/-- Rounds that stay where they are can be left out, so there are no more than places passed. -/
theorem shortened (hStep : ∀ i j, step i j → i ≤ j) (h : Rounds step n i j) :
    i ≤ j ∧ ∃ m ≤ n, m ≤ j - i ∧ Rounds step m i j := by
  induction n generalizing i with
  | zero =>
    obtain rfl : i = j := h
    exact ⟨le_rfl, 0, le_rfl, Nat.zero_le _, rfl⟩
  | succ n ih =>
    obtain ⟨k, hFirst, hRest⟩ := h
    obtain ⟨hLe, m, hm, hPassed, hRounds⟩ := ih hRest
    have hForward := hStep i k hFirst
    refine ⟨hForward.trans hLe, ?_⟩
    rcases hForward.eq_or_lt with rfl | hAway
    · exact ⟨m, by omega, hPassed, hRounds⟩
    · exact ⟨m + 1, by omega, by omega, k, hFirst, hRounds⟩

end Rounds

/-! ## Matches -/

/-- Whether a pattern matches from one place of a text to another. A repetition is its least number
of rounds and as many more as it may have. -/
def Pattern.Matches (text : Array Char) : Pattern → Nat → Nat → Prop
  | .empty, i, j => i = j
  | .one part, i, j => ∃ c, text[i]? = some c ∧ part.contains c = true ∧ j = i + 1
  | .oneOf set, i, j => ∃ c, text[i]? = some c ∧ set.contains c = true ∧ j = i + 1
  | .atStart, i, j => i = j ∧ j = 0
  | .atEnd, i, j => i = j ∧ j = text.size
  | .group _ body, i, j => body.Matches text i j
  | .sequence first rest, i, j => ∃ k, first.Matches text i k ∧ rest.Matches text k j
  | .either earlier last, i, j => earlier.Matches text i j ∨ last.Matches text i j
  | .repetition body least most _, i, j =>
    ∃ n, (∀ m ∈ most, n ≤ m - least) ∧ Rounds (body.Matches text) (least + n) i j

/-- A step never goes back, and passes a place only by staying behind it. -/
structure Advances (size : Nat) (step : Nat → Nat → Prop) : Prop where
  le : ∀ i j, step i j → i ≤ j
  le_max : ∀ i j, step i j → j ≤ max i size

theorem Advances.rounds {size : Nat} {step : Nat → Nat → Prop} (h : Advances size step) (n : Nat) :
    Advances size (Rounds step n) := by
  refine ⟨fun i j hRounds => (hRounds.shortened h.le).1, fun i j hRounds => ?_⟩
  induction n generalizing i with
  | zero => exact (show i = j from hRounds) ▸ le_max_left ..
  | succ n ih =>
    obtain ⟨k, hFirst, hRest⟩ := hRounds
    have hEnd := ih k hRest
    have hFirst := h.le_max i k hFirst
    omega

theorem advances_one {text : Array Char} {isSuitable : Char → Bool} :
    Advances text.size fun i j => ∃ c, text[i]? = some c ∧ isSuitable c = true ∧ j = i + 1 := by
  refine ⟨fun i j => ?_, fun i j => ?_⟩
  · rintro ⟨_, -, -, rfl⟩
    exact Nat.le_succ i
  · rintro ⟨_, hChar, -, rfl⟩
    have hPlace := (Array.getElem?_eq_some_iff.mp hChar).1
    omega

theorem Pattern.advances (text : Array Char) (p : Pattern) :
    Advances text.size (p.Matches text) := by
  have hStay {i j : Nat} (h : i = j) : i ≤ j ∧ j ≤ max i text.size := by omega
  induction p with
  | empty => exact ⟨fun _ _ h => (hStay h).1, fun _ _ h => (hStay h).2⟩
  | one part => exact advances_one
  | oneOf set => exact advances_one
  | atStart => exact ⟨fun _ _ h => (hStay h.1).1, fun _ _ h => (hStay h.1).2⟩
  | atEnd => exact ⟨fun _ _ h => (hStay h.1).1, fun _ _ h => (hStay h.1).2⟩
  | group keeps body ih => exact ih
  | sequence first rest ihFirst ihRest =>
    refine ⟨fun i j => ?_, fun i j => ?_⟩ <;> rintro ⟨k, hFirst, hRest⟩
    · exact (ihFirst.le _ _ hFirst).trans (ihRest.le _ _ hRest)
    · have hMiddle := ihFirst.le_max _ _ hFirst
      have hEnd := ihRest.le_max _ _ hRest
      omega
  | either earlier last ihEarlier ihLast =>
    exact ⟨fun i j h => h.elim (ihEarlier.le i j) (ihLast.le i j),
      fun i j h => h.elim (ihEarlier.le_max i j) (ihLast.le_max i j)⟩
  | repetition body least most lazy ih =>
    exact ⟨fun i j ⟨n, _, h⟩ => (ih.rounds _).le i j h,
      fun i j ⟨n, _, h⟩ => (ih.rounds _).le_max i j h⟩

/-! ## Sets of places -/

namespace Places

variable {places : Places} {i j : Nat}

theorem mem_of_has (h : has i places = true) : i ∈ places := by
  induction places with
  | nil => cases h
  | cons k rest ih =>
    unfold has at h
    split at h
    · exact List.mem_cons_of_mem _ (ih h)
    · exact List.mem_cons.mpr (.inl (beq_iff_eq.mp h))

@[simp] theorem mem_insert : j ∈ insert i places ↔ j = i ∨ j ∈ places := by
  induction places with
  | nil => simp [insert]
  | cons k rest ih =>
    unfold insert
    split
    · simp only [List.mem_cons, ih]
      exact or_left_comm
    split
    · subst k
      simp
    · simp

@[simp] theorem mem_union {a b : Places} : j ∈ union a b ↔ j ∈ a ∨ j ∈ b := by
  induction a with
  | nil => simp [union]
  | cons k rest ih =>
    rw [union, List.foldr_cons, mem_insert, List.mem_cons, or_assoc]
    exact or_congr_right ih

@[simp] theorem mem_all {length : Nat} : i ∈ all length ↔ i ≤ length := by
  rw [all, List.mem_reverse, List.mem_range, Nat.lt_succ_iff]

/-- The places that a step leads to from some places are those that a relation leads to. -/
def Follows (step : Places → Places) (relation : Nat → Nat → Prop) : Prop :=
  ∀ places j, j ∈ step places ↔ ∃ i ∈ places, relation i j

variable {step : Places → Places} {relation : Nat → Nat → Prop}

theorem Follows.iterate (h : Follows step relation) (n : Nat) :
    Follows step^[n] (Rounds relation n) := by
  induction n with
  | zero => exact fun places j => ⟨fun hj => ⟨j, hj, rfl⟩, fun ⟨i, hi, hij⟩ => (hij : i = j) ▸ hi⟩
  | succ n ih =>
    intro places j
    rw [Function.iterate_succ_apply, ih (step places) j]
    constructor
    · rintro ⟨k, hk, hRest⟩
      obtain ⟨i, hi, hFirst⟩ := (h places k).mp hk
      exact ⟨i, hi, k, hFirst, hRest⟩
    · rintro ⟨i, hi, k, hFirst, hRest⟩
      exact ⟨k, (h places k).mpr ⟨i, hi, hFirst⟩, hRest⟩

/-- Stopping early, where a step leads nowhere else, changes nothing. -/
theorem afterSteps_eq_iterate (step : Places → Places) (n : Nat) (places : Places) :
    afterSteps step n places = step^[n] places := by
  induction n generalizing places with
  | zero => rfl
  | succ n ih =>
    rw [Function.iterate_succ_apply, afterSteps]
    split
    next hStays =>
      rw [hStays]
      exact (Function.iterate_fixed hStays n).symm
    next => exact ih _

/-- The places seen are closed under steps, except for those from the newest. This is what the
search of `withinSteps` keeps. -/
def Explored (relation : Nat → Nat → Prop) (seen newest : Places) : Prop :=
  newest ⊆ seen ∧ ∀ i ∈ seen, i ∉ newest → ∀ j, relation i j → j ∈ seen

/-- One round of the search: what it adds is new, and the places seen are explored again. -/
theorem Explored.round {seen newest new : Places} (hStep : Follows step relation)
    (h : Explored relation seen newest) (hNew : new = (step newest).filter fun i => !has i seen) :
    Explored relation (union new seen) new ∧
      ∀ j, j ∈ union new seen ↔ j ∈ seen ∨ ∃ i ∈ seen, relation i j := by
  have hReached (i : Nat) (hi : i ∈ seen) (j : Nat) (hij : relation i j) : j ∈ union new seen := by
    by_cases hNewest : i ∈ newest
    · by_cases hSeen : has j seen = true
      · exact mem_union.mpr (.inr (mem_of_has hSeen))
      · refine mem_union.mpr (.inl (hNew ▸ List.mem_filter.mpr ⟨?_, by simpa using hSeen⟩))
        exact (hStep newest j).mpr ⟨i, hNewest, hij⟩
    · exact mem_union.mpr (.inr (h.2 i hi hNewest j hij))
  refine ⟨⟨fun j hj => mem_union.mpr (.inl hj), fun i hi hOld => ?_⟩, fun j => ⟨fun hj => ?_, ?_⟩⟩
  · exact hReached i ((mem_union.mp hi).resolve_left hOld)
  · rcases mem_union.mp hj with hj | hj
    · obtain ⟨i, hi, hij⟩ := (hStep newest j).mp (List.mem_filter.mp (hNew ▸ hj)).1
      exact .inr ⟨i, h.1 hi, hij⟩
    · exact .inl hj
  · rintro (hj | ⟨i, hi, hij⟩)
    · exact mem_union.mpr (.inr hj)
    · exact hReached i hi j hij

/-- **The search finds what at most so many steps lead to.** By induction on the number of rounds
left; a round that adds nothing shows that the places seen are closed. -/
theorem mem_withinSteps_iff (hStep : Follows step relation) (n : Nat) {seen newest : Places}
    (h : Explored relation seen newest) :
    j ∈ withinSteps step n seen newest ↔ ∃ i ∈ seen, ∃ m ≤ n, Rounds relation m i j := by
  induction n generalizing seen newest with
  | zero =>
    refine ⟨fun hj => ⟨j, hj, 0, le_rfl, rfl⟩, ?_⟩
    rintro ⟨i, hi, m, hm, hRounds⟩
    obtain rfl := Nat.le_zero.mp hm
    exact (show i = j from hRounds) ▸ hi
  | succ n ih =>
    obtain ⟨hExplored, hUnion⟩ := h.round hStep rfl
    rw [withinSteps]
    split
    next hNothing =>
      have hClosed : ∀ i ∈ seen, ∀ j, relation i j → j ∈ seen := fun i hi j hij => by
        have hj := (hUnion j).mpr (.inr ⟨i, hi, hij⟩)
        simpa [List.isEmpty_iff.mp hNothing] using hj
      refine ⟨fun hj => ⟨j, hj, 0, Nat.zero_le _, rfl⟩, ?_⟩
      rintro ⟨i, hi, m, -, hRounds⟩
      induction m generalizing i with
      | zero => exact (show i = j from hRounds) ▸ hi
      | succ m ihRounds =>
        obtain ⟨k, hFirst, hRest⟩ := hRounds
        exact ihRounds k (hClosed i hi k hFirst) hRest
    next =>
      rw [ih hExplored]
      constructor
      · rintro ⟨i, hi, m, hm, hRounds⟩
        rcases (hUnion i).mp hi with hi | ⟨k, hk, hFirst⟩
        · exact ⟨i, hi, m, hm.trans (Nat.le_succ n), hRounds⟩
        · exact ⟨k, hk, m + 1, Nat.succ_le_succ hm, i, hFirst, hRounds⟩
      · rintro ⟨i, hi, m, hm, hRounds⟩
        cases m with
        | zero => exact ⟨i, (hUnion i).mpr (.inl hi), 0, Nat.zero_le n, hRounds⟩
        | succ m =>
          obtain ⟨k, hFirst, hRest⟩ := hRounds
          exact ⟨k, (hUnion k).mpr (.inr ⟨i, hi, hFirst⟩), m, Nat.le_of_succ_le_succ hm, hRest⟩

end Places

/-! ## Searching -/

namespace Pattern

open Places

theorem behindOne_eq_some_iff {text : Array Char} {isSuitable : Char → Bool} {i j : Nat} :
    behindOne text isSuitable i = some j ↔
      ∃ c, text[i]? = some c ∧ isSuitable c = true ∧ j = i + 1 := by
  grind [behindOne]

/-- Of the rounds that a repetition may add, no more than the characters of the text are needed. -/
theorem exists_rounds_iff {size least : Nat} {most : Option Nat} {step : Nat → Nat → Prop}
    (h : Advances size step) {rounds : Nat}
    (hRounds : rounds = match most with
      | some most => min (most - least) size
      | none => size) {i j : Nat} :
    (∃ m ≤ rounds, Rounds step m i j) ↔
      ∃ n, (∀ m ∈ most, n ≤ m - least) ∧ Rounds step n i j := by
  constructor
  · rintro ⟨m, hm, hReached⟩
    refine ⟨m, fun bound hBound => ?_, hReached⟩
    obtain rfl : most = some bound := hBound
    exact hm.trans (hRounds ▸ Nat.min_le_left ..)
  · rintro ⟨n, hn, hReached⟩
    obtain ⟨-, m, hm, hPassed, hShort⟩ := hReached.shortened h.le
    have hEnd := (h.rounds n).le_max i j hReached
    refine ⟨m, ?_, hShort⟩
    cases most with
    | none => simp only [hRounds]; omega
    | some bound =>
      have := hn bound rfl
      simp only [hRounds]
      omega

/-- **A search arrives at a place exactly if a match does.** -/
theorem mem_reach_iff (text : Array Char) (p : Pattern) (places : Places) (j : Nat) :
    j ∈ p.reach text places ↔ ∃ i ∈ places, p.Matches text i j := by
  induction p generalizing places j with
  | empty => simp [reach, Matches]
  | one part => simp [reach, Matches, behindOne_eq_some_iff]
  | oneOf set => simp [reach, Matches, behindOne_eq_some_iff]
  | atStart => grind [reach, Matches]
  | atEnd => grind [reach, Matches]
  | group keeps body ih => exact ih places j
  | sequence first rest ihFirst ihRest =>
    simp only [reach, Matches, ihRest, ihFirst]
    grind
  | either earlier last ihEarlier ihLast =>
    simp only [reach, Matches, mem_union, ihEarlier, ihLast]
    grind
  | repetition body least most lazy ih =>
    have hStart : Explored (body.Matches text) (afterSteps (body.reach text) least places)
        (afterSteps (body.reach text) least places) :=
      ⟨fun _ hi => hi, fun i hi hNot => absurd hi hNot⟩
    simp only [reach]
    rw [mem_withinSteps_iff ih _ hStart, afterSteps_eq_iterate]
    constructor
    · rintro ⟨k, hk, hMore⟩
      obtain ⟨i, hi, hLeast⟩ := (Follows.iterate ih least places k).mp hk
      obtain ⟨n, hn, hMore⟩ := (exists_rounds_iff (body.advances text) rfl).mp hMore
      exact ⟨i, hi, n, hn, hLeast.trans hMore⟩
    · rintro ⟨i, hi, n, hn, hRounds⟩
      obtain ⟨k, hLeast, hMore⟩ := hRounds.split
      exact ⟨k, (Follows.iterate ih least places k).mpr ⟨i, hi, hLeast⟩,
        (exists_rounds_iff (body.advances text) rfl).mpr ⟨n, hn, hMore⟩⟩

/-- **A pattern occurs in a text exactly if it matches some part of it.** -/
theorem occursIn_iff (p : Pattern) (text : String) :
    p.occursIn text = true ↔
      ∃ i ≤ text.length, ∃ j ≤ text.length, p.Matches text.toList.toArray i j := by
  have hSize : text.toList.toArray.size = text.length := by
    rw [List.size_toArray, String.length_toList]
  simp only [occursIn, Bool.not_eq_true', ← Bool.not_eq_true, List.isEmpty_iff,
    List.eq_nil_iff_forall_not_mem, mem_reach_iff, mem_all, hSize, not_forall, not_not]
  constructor
  · rintro ⟨j, i, hi, hMatch⟩
    have hEnd := (p.advances _).le_max i j hMatch
    exact ⟨i, hi, j, by omega, hMatch⟩
  · rintro ⟨i, hi, j, -, hMatch⟩
    exact ⟨j, i, hi, hMatch⟩

/-- **Between the two ends of the text, a pattern has to match the whole.** -/
theorem occursIn_ends_iff (p : Pattern) (keeps : Bool) (text : String) :
    (sequence atStart (sequence (group keeps p) atEnd)).occursIn text = true ↔
      p.Matches text.toList.toArray 0 text.length := by
  simp only [occursIn_iff, Matches, List.size_toArray, String.length_toList]
  constructor
  · rintro ⟨i, -, j, -, k, ⟨rfl, rfl⟩, l, hMatch, rfl, rfl⟩
    exact hMatch
  · exact fun h => ⟨0, Nat.zero_le _, _, le_rfl, 0, ⟨rfl, rfl⟩, _, h, rfl, rfl⟩

end Pattern

end SqlKit
