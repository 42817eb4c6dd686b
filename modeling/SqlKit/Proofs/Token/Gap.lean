import SqlKit.Token.Lexer

/-!
# What stands between two tokens

`Gap` says which texts may stand between two tokens, without reference to how they are measured:
blanks, comments that end with their line, and comments that are closed by the first `*/` behind
their opening. Only at the end of a text may a comment stay open.

`gap_take` shows that `gapLength` measures such a gap. The measure goes through places inside a
comment as well, so the induction is over all places at once, each with its own account of what was
measured from there (`GapFrom`).
-/

namespace SqlKit

/-- A text that may stand in front of `after` and belongs to no token. -/
inductive Gap : List Char → List Char → Prop where
  | nil (after : List Char) : Gap [] after
  | blank {c : Char} {gap after : List Char} (hBlank : Text.isBlank c = true)
    (h : Gap gap after) : Gap (c :: gap) after
  /-- A comment from `--` up to a line feed or the end of the text. -/
  | line {body gap after : List Char} (hBody : '\n' ∉ body)
    (hEnd : (gap ++ after).head? = none ∨ (gap ++ after).head? = some '\n') (h : Gap gap after) :
    Gap ('-' :: '-' :: (body ++ gap)) after
  /-- A comment that the first `*/` behind its opening closes. -/
  | block {body gap after : List Char} (hFirst : ¬ ['*', '/'] <:+: body ++ ['*'])
    (h : Gap gap after) : Gap ('/' :: '*' :: (body ++ '*' :: '/' :: gap)) after
  /-- A comment that is never closed. -/
  | unclosed {body : List Char} (hOpen : ¬ ['*', '/'] <:+: body) : Gap ('/' :: '*' :: body) []

/-- The rest of a comment behind `/*`, and the gap behind the comment. -/
def BlockFrom (part after : List Char) : Prop :=
  (∃ body gap, part = body ++ '*' :: '/' :: gap ∧ ¬ ['*', '/'] <:+: body ++ ['*'] ∧ Gap gap after) ∨
    (after = [] ∧ ¬ ['*', '/'] <:+: part)

/-- What may be measured from a place inside a gap. -/
def GapFrom : GapPlace → List Char → List Char → Prop
  | .between, part, after => Gap part after
  | .line, part, after => ∃ body gap, part = body ++ gap ∧ '\n' ∉ body ∧
      ((gap ++ after).head? = none ∨ (gap ++ after).head? = some '\n') ∧ Gap gap after
  | .opening, part, after => (part = [] ∧ after = []) ∨ ∃ c p, part = c :: p ∧ BlockFrom p after
  | .block, part, after => BlockFrom part after
  | .closing, part, after => (part = [] ∧ after = []) ∨ ∃ c p, part = c :: p ∧ Gap p after

theorem closing_not_isPrefix {c : Char} {cs : List Char} (h : ¬ (c = '*' ∧ cs.head? = some '/')) :
    ¬ ['*', '/'] <+: c :: cs := by
  rintro ⟨rest, hRest⟩
  obtain ⟨rfl, rfl⟩ := List.cons.inj hRest
  exact h ⟨rfl, rfl⟩

/-- A character that does not begin the closing of a comment belongs to the comment. -/
theorem BlockFrom.cons {c : Char} {part after : List Char}
    (hNot : ¬ (c = '*' ∧ (part ++ after).head? = some '/')) (h : BlockFrom part after) :
    BlockFrom (c :: part) after := by
  rcases h with ⟨body, gap, rfl, hFirst, hGap⟩ | ⟨rfl, hOpen⟩
  · refine Or.inl ⟨c :: body, gap, rfl, ?_, hGap⟩
    rw [List.cons_append, List.infix_cons_iff]
    refine not_or.mpr ⟨closing_not_isPrefix ?_, hFirst⟩
    rintro ⟨rfl, hHead⟩
    refine hNot ⟨rfl, ?_⟩
    cases body with
    | nil => simp at hHead
    | cons d body => simpa using hHead
  · refine Or.inr ⟨rfl, ?_⟩
    rw [List.infix_cons_iff]
    exact not_or.mpr ⟨closing_not_isPrefix (by simpa using hNot), hOpen⟩

/-- Behind the first dash of `--` the second one belongs to the comment as well. -/
theorem Gap.of_dash {part after : List Char} (h : GapFrom .line ('-' :: part) after) :
    Gap ('-' :: '-' :: part) after := by
  obtain ⟨body, gap, hPart, hBody, hEnd, hGap⟩ := h
  cases body with
  | nil =>
    rw [List.nil_append] at hPart
    simp [← hPart] at hEnd
  | cons c body =>
    obtain ⟨rfl, rfl⟩ := List.cons.inj hPart
    exact .line (fun h => hBody (List.mem_cons_of_mem _ h)) hEnd hGap

/-- Behind the slash of `/*` the star belongs to the opening. -/
theorem Gap.of_star {part after : List Char} (h : GapFrom .opening ('*' :: part) after) :
    Gap ('/' :: '*' :: part) after := by
  rcases h with ⟨hPart, -⟩ | ⟨c, p, hPart, hBlock⟩
  · cases hPart
  · obtain ⟨-, rfl⟩ := List.cons.inj hPart
    rcases hBlock with ⟨body, gap, rfl, hFirst, hGap⟩ | ⟨rfl, hOpen⟩
    · exact .block hFirst hGap
    · exact .unclosed hOpen

/-- Behind the star of `*/` the slash closes the comment. -/
theorem BlockFrom.of_slash {part after : List Char} (h : GapFrom .closing ('/' :: part) after) :
    BlockFrom ('*' :: '/' :: part) after := by
  rcases h with ⟨hPart, -⟩ | ⟨c, p, hPart, hGap⟩
  · cases hPart
  · obtain ⟨-, rfl⟩ := List.cons.inj hPart
    exact Or.inl ⟨[], part, rfl, by decide, hGap⟩

/-- What is measured from any place is a gap from that place on. -/
theorem gapFrom_take (place : GapPlace) (cs : List Char) :
    GapFrom place (cs.take (gapLength place cs)) (cs.drop (gapLength place cs)) := by
  fun_induction gapLength place cs with
  | case1 place =>
    cases place with
    | between => exact .nil _
    | line => exact ⟨[], [], rfl, by simp, Or.inl rfl, .nil _⟩
    | opening => exact Or.inl ⟨rfl, rfl⟩
    | block => exact Or.inr ⟨rfl, by simp⟩
    | closing => exact Or.inl ⟨rfl, rfl⟩
  | case2 c cs hBlank ih => exact .blank hBlank ih
  | case3 c cs _ hDash ih =>
    obtain ⟨rfl, hNext⟩ := hDash
    obtain ⟨cs, rfl⟩ := List.head?_eq_some_iff.mp hNext
    have hLength : gapLength .line ('-' :: cs) = gapLength .line cs + 1 := by simp [gapLength]
    rw [hLength] at ih ⊢
    exact .of_dash ih
  | case4 c cs _ _ hStar ih =>
    obtain ⟨rfl, hNext⟩ := hStar
    obtain ⟨cs, rfl⟩ := List.head?_eq_some_iff.mp hNext
    have hLength : gapLength .opening ('*' :: cs) = gapLength .block cs + 1 := by simp [gapLength]
    rw [hLength] at ih ⊢
    exact .of_star ih
  | case5 c cs => exact .nil _
  | case6 c cs ih =>
    by_cases hLine : c = '\n'
    · simp only [hLine, ↓reduceIte] at ih ⊢
      exact ⟨[], _, rfl, by simp, Or.inr rfl, .blank (by decide) ih⟩
    · simp only [hLine, ↓reduceIte] at ih ⊢
      obtain ⟨body, gap, hPart, hBody, hEnd, hGap⟩ := ih
      refine ⟨c :: body, gap, by rw [List.take_succ_cons, hPart, List.cons_append], ?_, hEnd, hGap⟩
      exact fun h => (List.mem_cons.mp h).elim (fun h => hLine h.symm) hBody
  | case7 head cs ih => exact Or.inr ⟨_, _, rfl, ih⟩
  | case8 c cs ih =>
    by_cases hClose : c = '*' ∧ cs.head? = some '/'
    · simp only [if_pos hClose] at ih ⊢
      obtain ⟨rfl, hNext⟩ := hClose
      obtain ⟨cs, rfl⟩ := List.head?_eq_some_iff.mp hNext
      have hLength : gapLength .closing ('/' :: cs) = gapLength .between cs + 1 := by
        simp [gapLength]
      rw [hLength] at ih ⊢
      exact .of_slash ih
    · simp only [if_neg hClose] at ih ⊢
      exact BlockFrom.cons (by simpa using hClose) ih
  | case9 head cs ih => exact Or.inr ⟨_, _, rfl, ih⟩

/-- What `gapLength` measures at the start of a text is a gap. -/
theorem gap_take (cs : List Char) :
    Gap (cs.take (gapLength .between cs)) (cs.drop (gapLength .between cs)) :=
  gapFrom_take .between cs

end SqlKit
