import SqlKit.Proofs.Rendering.RoundTrip
import SqlKit.Proofs.Rendering.Yielding

/-!
# Gaps in the text of a query

A row of glyphs has blanks between its tokens and nothing else, unless two minus signs are
neighbours: they start a comment, and what follows them is in no token (`Script.Sound.spaced_iff`).
The row of a query is sound if no name of the query was quoted (`Select.sound_row`), so that the
tree tells whether a part of the text is commented out.
-/

namespace SqlKit

/-! ## Blank gaps -/

/-- From a place on, there are only blanks in front of each of the tokens. -/
def Spaced (text : List Char) : Position → List Token → Prop
  | _, [] => True
  | place, t :: rest =>
    (∀ c ∈ Span.slice text ⟨place, t.span.first⟩, Text.isBlank c = true) ∧
      Spaced text t.span.last rest

instance Spaced.decidable (text : List Char) : ∀ place ts, Decidable (Spaced text place ts)
  | _, [] => .isTrue trivial
  | place, t :: rest =>
    -- Over characters there is an instance that tries all of them, and no evaluation ends.
    have : Decidable (∀ c ∈ Span.slice text ⟨place, t.span.first⟩, Text.isBlank c = true) :=
      List.decidableBAll _ _
    have := decidable text t.span.last rest
    inferInstanceAs (Decidable (_ ∧ _))

theorem Span.slice_self (text : List Char) (p : Position) : Span.slice text ⟨p, p⟩ = [] := by
  simp [Span.slice]

/-- There is no gap in front of tokens that touch each other. -/
theorem Touching.spaced_iff {text : List Char} {p q : Position} {ts us : List Token}
    (h : Touching p ts q) : Spaced text p (ts ++ us) ↔ Spaced text q us := by
  induction ts generalizing p with
  | nil => rw [Touching] at h; rw [h, List.nil_append]
  | cons t ts ih =>
    obtain ⟨rfl, hRest⟩ := h
    simp only [List.cons_append, Spaced, Span.slice_self, ih hRest]
    simp

/-- In front of the first of the tokens from a place on, or of the end, stands the gap there. -/
theorem Cursor.At.slice_gap {text : List Char} {finish : Token} {c : Cursor} (h : c.At text)
    (hFinish : finish.span.first.offset = byteCount text) :
    ∃ t rest, c.tokens ++ [finish] = t :: rest ∧
      Span.slice text ⟨c.position, t.span.first⟩ = c.rest.take (gapLength .between c.rest) := by
  have hStands := h.stands_take (gapLength .between c.rest)
  cases hNext : c.next? with
  | none =>
    refine ⟨finish, [], by rw [tokens_of_none hNext]; rfl, ?_⟩
    have hSkip := (h.advance (gapLength .between c.rest)).last_eq
    have hRest : (c.advance (gapLength .between c.rest)).rest = [] :=
      rest_skipGap_of_next?_none hNext
    rw [hRest, byteCount_nil, Nat.add_zero] at hSkip
    rw [← hSkip, ← hFinish] at hStands
    exact hStands.slice_eq
  | some result =>
    obtain ⟨t, after⟩ := result
    obtain ⟨-, hFirst, -, -⟩ := (h.advance _).placed hNext
    refine ⟨t, after.tokens ++ [finish], by rw [tokens_of_some hNext]; rfl, ?_⟩
    rw [← hFirst] at hStands
    exact hStands.slice_eq

namespace Script

variable {text : List Char} {finish : Token} {p : Position}

/-- A blank in front belongs to the gap. -/
theorem spaced_blank {cs : List Char} (hAt : (Cursor.mk p (' ' :: cs)).At text)
    (hFinish : finish.span.first.offset = byteCount text) :
    Spaced text p ((Cursor.mk p (' ' :: cs)).tokens ++ [finish]) ↔
      Spaced text (p.step ' ' cs) ((Cursor.mk (p.step ' ' cs) cs).tokens ++ [finish]) := by
  have hBlank : Text.isBlank ' ' = true := by decide
  have hBehind : (Cursor.mk (p.step ' ' cs) cs).At text := hAt.advance 1
  obtain ⟨t, rest, hTokens, hGap⟩ := hAt.slice_gap hFinish
  obtain ⟨u, rest', hTokens', hGap'⟩ := hBehind.slice_gap hFinish
  rw [tokens_blank] at hTokens ⊢
  obtain ⟨rfl, rfl⟩ := List.cons.inj (hTokens.symm.trans hTokens')
  have hLength : gapLength .between (' ' :: cs) = gapLength .between cs + 1 := by
    simp [gapLength, hBlank]
  rw [hTokens, Spaced, Spaced, hGap, hGap', hLength, List.take_succ_cons, List.forall_mem_cons]
  simp [hBlank]

/-- Two minus signs start a comment. -/
theorem not_spaced_minus {cs : List Char} (hAt : (Cursor.mk p ('-' :: '-' :: cs)).At text)
    (hFinish : finish.span.first.offset = byteCount text) :
    ¬ Spaced text p ((Cursor.mk p ('-' :: '-' :: cs)).tokens ++ [finish]) := by
  obtain ⟨t, rest, hTokens, hGap⟩ := hAt.slice_gap hFinish
  have hLength : gapLength .between ('-' :: '-' :: cs) = gapLength .line ('-' :: cs) + 1 := by
    simp [gapLength, show Text.isBlank '-' = false from by decide]
  rw [hTokens, Spaced, hGap, hLength, List.take_succ_cons, List.forall_mem_cons]
  rintro ⟨⟨hBlank, -⟩, -⟩
  exact absurd hBlank (by decide)

/-- From any place on, a sound row is read with blanks between its tokens as far as its minus signs
are apart. -/
theorem Sound.spaced_iff_of_at {gs : Script} (h : Sound gs)
    (hFinish : finish.span.first.offset = byteCount text)
    (hAt : (Cursor.mk p (chars gs)).At text) :
    Spaced text p ((Cursor.mk p (chars gs)).tokens ++ [finish]) ↔ Apart gs := by
  induction gs generalizing p with
  | nil =>
    obtain ⟨t, rest, hTokens, hGap⟩ := hAt.slice_gap hFinish
    rw [chars_nil, Cursor.tokens_nil, List.nil_append] at hTokens ⊢
    obtain ⟨rfl, rfl⟩ := List.cons.inj hTokens
    refine iff_of_true ⟨?_, trivial⟩ apart_nil
    rw [hGap]
    simp
  | cons g gs ih =>
    obtain ⟨hFits, hMeets, hSound⟩ := legal_cons.mp h
    rw [chars_cons] at hAt ⊢
    by_cases hBlank : g = .blank
    · rw [hBlank] at hAt ⊢
      rw [apart_cons (by simp), ← ih hSound (hAt.advance 1)]
      exact spaced_blank hAt hFinish
    by_cases hDouble : g = .symbol .minus ∧ gs.head? = some (.symbol .minus)
    · obtain ⟨rfl, hHead⟩ := hDouble
      obtain ⟨rest, rfl⟩ := List.head?_eq_some_iff.mp hHead
      refine iff_of_false (not_spaced_minus hAt hFinish) fun hApart => ?_
      exact ((apart_minus _).mp hApart).1 rfl
    · have hClears : ∀ d ∈ (chars gs).head?, g.clears d = true := by
        refine clears_chars (Sound.fits hSound) fun k hk => ?_
        have hMeets' := hMeets k.plussed (by rw [List.head?_map, hk]; rfl)
        refine (meets_of_plussed hMeets').mpr ?_
        rintro ⟨hg, rfl⟩
        exact hDouble ⟨hg, hk⟩
      obtain ⟨ts, q, hTokens, rfl, hTouching, -⟩ :=
        exists_tokens (g.fits_plussed.mp hFits) hBlank hClears p
      have hBehind :
        (Cursor.mk (p.advance g.chars.length (g.chars ++ chars gs)) (chars gs)).At text := by
        have hAdvance := hAt.advance g.chars.length
        rwa [Cursor.advance, List.drop_left] at hAdvance
      have hApart : Apart (g :: gs) ↔ Apart gs := by
        by_cases hg : g = .symbol .minus
        · subst hg
          rw [apart_minus]
          exact and_iff_right fun hHead => hDouble ⟨rfl, hHead⟩
        · exact apart_cons hg
      rw [hTokens, List.append_assoc, hTouching.spaced_iff, hApart]
      exact ih hSound hBehind

/-- The text of a sound row has only blanks between its tokens exactly when its minus signs are
apart. -/
theorem Sound.spaced_iff {gs : Script} {text : String} (h : Sound gs)
    (hText : chars gs = text.toList) :
    Spaced text.toList .start (tokensOf text ++ [.endOfInput (endOf text)]) ↔ Apart gs := by
  have hAt : (Cursor.mk .start (chars gs)).At text.toList := by
    rw [hText]
    exact Cursor.at_ofString text
  have hFinish : (Token.endOfInput (endOf text)).span.first.offset = byteCount text.toList :=
    (Cursor.at_ofString text).offset_finish
  have hSpaced := h.spaced_iff_of_at hFinish hAt
  rwa [hText] at hSpaced

end Script

/-! ## Queries -/

open Grammar

/-- No name of a query was quoted in the text that the query was read from. -/
def Select.UnquotedIn (s : Select) (text : String) : Prop :=
  ∀ t ∈ tokensOf text, s.span.first.offset ≤ t.span.first.offset →
    t.span.last.offset ≤ s.span.last.offset → t.isQuotedName = false

instance (s : Select) (text : String) : Decidable (s.UnquotedIn text) :=
  inferInstanceAs (Decidable (∀ t ∈ tokensOf text, _))

/-- The row of a query is sound, if no name of it was quoted. -/
theorem Select.sound_row {options : ParseOptions} {text : String} {s : Select}
    (h : .select s ∈ (parse options text).statements) (hNames : s.UnquotedIn text) :
    Script.Sound s.row := by
  obtain ⟨seg, hSegment, b, hStatement, hError⟩ := mem_statements h
  obtain ⟨-, s₁, hRun, -, -, hNone⟩ :=
    Segment.read_select (segments_whole hSegment) hStatement hError
  have hEnd := segments_isEnd hSegment
  obtain ⟨rules, hYields, hSame⟩ := exists_yieldSound (Nat.le_succ seg.tokens.length)
  have hBare : ∀ t ∈ seg.tokens, t.Bare := by
    intro t ht
    have hText := segments_mem hSegment ht
    obtain ⟨hFirst, hLast⟩ := Segment.covers_select hSegment hStatement hError ht
    exact bare_tokensOf hText (hNames t hText hFirst hLast)
  have hSelect : (select rules).run (seg.start b) = (s, s₁) :=
    (hSame.next.select _ hEnd (Nat.lt_succ_self _)).trans hRun
  have hYielded : After (select rules) (seg.start b) fun x _ => Script.Sound x.row :=
    yields_select hYields _ hBare
  exact hYielded.result hSelect hNone

/-- **What is commented out.** Let no name of a query be quoted. Then the gaps in the text of the
query, in front of its tokens and behind the last one, are blank if no minus sign of the query
stands in front of a number or a sign that is written with one. With such a minus sign a comment
starts, and the rest of the text is in no token. -/
theorem spaced_sql_iff {options : ParseOptions} {text : String} {s : Select}
    (h : .select s ∈ (parse options text).statements) (hNames : s.UnquotedIn text) :
    Spaced s.sql.toList .start (tokensOf s.sql ++ [.endOfInput (endOf s.sql)]) ↔
      NoneDoubled s.nodes :=
  ((Select.sound_row h hNames).spaced_iff s.chars_row).trans s.apart_row

instance : DecidablePred Term.IsNegative := fun x => by
  unfold Term.IsNegative
  split <;> infer_instance

instance : DecidablePred Node.Doubled := fun n => by
  unfold Node.Doubled
  split <;> infer_instance

instance (ns : List Node) : Decidable (NoneDoubled ns) :=
  inferInstanceAs (Decidable (∀ n ∈ ns, ¬ n.Doubled))

theorem spaced_sql_iff_signs : ∃ s,
    .select s ∈ (parse .standard "SELECT - +1 - -f(?2) FROM t").statements ∧
      s.UnquotedIn "SELECT - +1 - -f(?2) FROM t" ∧
      (Spaced s.sql.toList .start (tokensOf s.sql ++ [.endOfInput (endOf s.sql)]) ↔
        NoneDoubled s.nodes) := by
  obtain ⟨s, hs, hNames⟩ : ∃ s,
      .select s ∈ (parse .standard "SELECT - +1 - -f(?2) FROM t").statements ∧
        s.UnquotedIn "SELECT - +1 - -f(?2) FROM t" := exists_select (by decide +kernel)
  exact ⟨s, hs, hNames, spaced_sql_iff hs hNames⟩

/-- A second minus sign comments out the name behind it: what is left is one word. -/
theorem comment_of_double_minus : ∃ s, .select s ∈ (parse .standard "SELECT - -a").statements ∧
    s.UnquotedIn "SELECT - -a" ∧
    ¬ Spaced s.sql.toList .start (tokensOf s.sql ++ [.endOfInput (endOf s.sql)]) ∧
    (tokensOf s.sql).map Token.kind = [.keyword .SELECT] := exists_select (by decide +kernel)

end SqlKit
