import SqlKit.Proofs.Grammar.Placeholders

/-!
# Limits with a comma

A limit with a comma is the only part of a statement whose placeholders stand in the tree in another
order than in the source. Such limits are found among the tokens of a statement without reading
anything else of it (`hasCommaLimit`): behind their `LIMIT` a comma comes before the parentheses
around it are closed. Where there are none, the placeholders of a statement stand in the order of
the source (`after_statement_inOrder`).
-/

namespace SqlKit.Grammar

/-- Whether a comma comes outside of parentheses, of which so many are open, and before the ones
around them are closed. -/
def commaBehind (depth : Nat) : List Token → Bool
  | [] => false
  | t :: ts =>
    if t.kind = .symbol .leftParen then commaBehind (depth + 1) ts
    else if t.kind = .symbol .rightParen then depth != 0 && commaBehind (depth - 1) ts
    else (depth == 0 && t.kind == .symbol .comma) || commaBehind depth ts

/-- Whether there is a limit in the form `LIMIT offset, count` among some tokens. -/
def hasCommaLimit : List Token → Bool
  | [] => false
  | t :: ts => (t.kind == .keyword .LIMIT && commaBehind 0 ts) || hasCommaLimit ts

theorem commaBehind_cons {depth : Nat} {t : Token} {ts : List Token}
    (hLeft : t.kind ≠ .symbol .leftParen) (hRight : t.kind ≠ .symbol .rightParen)
    (h : commaBehind depth ts = true) : commaBehind depth (t :: ts) = true := by
  rw [commaBehind, if_neg hLeft, if_neg hRight, h, Bool.or_true]

theorem commaBehind_append {depth : Nat} {ts : List Token} (h : commaBehind depth ts = true)
    (us : List Token) : commaBehind depth (ts ++ us) = true := by
  induction ts generalizing depth with
  | nil => cases h
  | cons t ts ih =>
    rw [List.cons_append]
    rw [commaBehind] at h ⊢
    split
    · next hLeft => exact ih ((if_pos hLeft).symm.trans h)
    · next hLeft =>
      rw [if_neg hLeft] at h
      split
      · next hRight =>
        rw [if_pos hRight, Bool.and_eq_true] at h
        rw [h.1, ih h.2, Bool.and_true]
      · next hRight =>
        rw [if_neg hRight, Bool.or_eq_true] at h
        exact Bool.or_eq_true _ _ |>.mpr (h.imp_right ih)

/-- A comma behind a phrase stands in as many parentheses less as the phrase closes. -/
theorem commaBehind_phrase {k depth : Nat} {free : Bool} {ts rest : List Token}
    (h : Phrase k free ts)
    (hRest : commaBehind depth rest = true) : commaBehind (depth + k) (ts ++ rest) = true := by
  induction h with
  | nil => exact hRest
  | neutral hKind _ ih =>
    refine commaBehind_cons ?_ ?_ ih <;> exact fun h => by rw [h] at hKind; cases hKind
  | integer hKind _ ih => exact commaBehind_cons (by simp [hKind]) (by simp [hKind]) ih
  | question hKind _ ih => exact commaBehind_cons (by simp [hKind]) (by simp [hKind]) ih
  | numbered hKind hNumber _ ih =>
    obtain ⟨n, hInteger⟩ := exists_integer_of_numberBehind? hNumber
    exact commaBehind_cons (by simp [hKind]) (by simp [hKind])
      (commaBehind_cons (by simp [hInteger]) (by simp [hInteger]) ih)
  | left hKind _ ih =>
    rw [List.cons_append, commaBehind, if_pos hKind]
    exact ih
  | right hKind _ ih =>
    rw [List.cons_append, commaBehind, if_neg (by simp [hKind]), if_pos hKind]
    exact Bool.and_eq_true _ _ |>.mpr ⟨bne_iff_ne.mpr (Nat.succ_ne_zero _), ih⟩

theorem hasCommaLimit_append {ts us : List Token} (h : hasCommaLimit (ts ++ us) = false) :
    hasCommaLimit ts = false ∧ hasCommaLimit us = false := by
  induction ts with
  | nil => exact ⟨rfl, h⟩
  | cons t ts ih =>
    rw [List.cons_append, hasCommaLimit, Bool.or_eq_false_iff] at h
    obtain ⟨hRest, hBehind⟩ := ih h.2
    refine ⟨?_, hBehind⟩
    rw [hasCommaLimit, hRest, Bool.or_false]
    have hHead := h.1
    cases hComma : commaBehind 0 ts with
    | false => rw [Bool.and_false]
    | true => rwa [commaBehind_append hComma] at hHead

theorem hasCommaLimit_of_commaLimit {s s' : State} (h : CommaLimit s s') {ts : List Token}
    (hTokens : s.tokens = ts ++ s'.tokens) : hasCommaLimit ts = true := by
  obtain ⟨t, us, u, hSplit, hLimit, hPhrase, hComma⟩ := h
  obtain rfl : ts = t :: (us ++ [u]) := by
    refine List.append_cancel_right (hTokens.symm.trans (hSplit.trans ?_))
    rw [List.cons_append, List.append_assoc, List.singleton_append]
  have hBehind : commaBehind 0 (us ++ [u]) = true :=
    commaBehind_phrase hPhrase (by simp [commaBehind, hComma])
  rw [hasCommaLimit, hBehind, hLimit]
  rfl

/-! ## The order of placeholders -/

theorem inOrder_singleton {n : Node} (h : ∀ l, n ≠ .limit l) : InOrder [n] := fun _ _ hMem =>
  absurd (List.mem_singleton.mp hMem).symm (h _)

/-- The placeholders, in the order of the source where no limit has a comma. -/
def Account.orderly : Account where
  Explains s ns s' := Account.placeholders.Explains s ns s' ∧ ∃ ts, s.tokens = ts ++ s'.tokens ∧
    (s.terminator.kind ≠ .symbol .question → hasCommaLimit ts = false → InOrder ns)
  skip h := by
    obtain ⟨skipped, hTokens, -⟩ := h.tokens
    exact ⟨Account.placeholders.skip h, skipped, hTokens, fun _ _ => inOrder_nil⟩
  trans := by
    rintro s s' s'' ns ms ⟨h, ts, hTokens, hOrder⟩ ⟨h', us, hTokens', hOrder'⟩
    refine ⟨Account.placeholders.trans h h', ts ++ us, ?_, fun hEnd hNone => ?_⟩
    · rw [hTokens, hTokens', List.append_assoc]
    · obtain ⟨hFirst, hSecond⟩ := hasCommaLimit_append hNone
      exact (inOrder_append ns ms).mpr ⟨hOrder hEnd hFirst, hOrder' (h.1 ▸ hEnd) hSecond⟩
  congr := by
    rintro s s' ns ms hNoted ⟨h, ts, hTokens, hOrder⟩
    refine ⟨Account.placeholders.congr hNoted h, ts, hTokens, fun hEnd hNone => ?_⟩
    rw [← inOrder_noted, hNoted, inOrder_noted]
    exact hOrder hEnd hNone
  placeholder := by
    intro s s' p h
    obtain ⟨ts, hTokens, -⟩ := h.signs
    exact ⟨Account.placeholders.placeholder h, ts, hTokens, fun _ _ => inOrder_singleton (by simp)⟩
  parameter := by
    intro s s' p h
    obtain ⟨t, u, rest, name, hTokens, -, -, -, -, skipped, hSkipped, -⟩ := h.read
    refine ⟨Account.placeholders.parameter h, t :: u :: skipped, ?_,
      fun _ _ => inOrder_singleton (by simp)⟩
    rw [hTokens, hSkipped]
    rfl
  window := by
    rintro s s' s'' count offset ⟨h, ts, hTokens, hOrder⟩ ⟨h', us, hTokens', hOrder'⟩
    refine ⟨Account.placeholders.window h h', ts ++ us, ?_, fun hEnd hNone => ?_⟩
    · rw [hTokens, hTokens', List.append_assoc]
    · obtain ⟨hFirst, hSecond⟩ := hasCommaLimit_append hNone
      have hCount := hOrder hEnd hFirst
      have hOffset := hOrder' (h.1 ▸ hEnd) hSecond
      obtain ⟨ps, hHolds, hCounted⟩ := h.2 hEnd
      obtain ⟨qs, hHolds', hCounted'⟩ := h'.2 (h.1 ▸ hEnd)
      refine (inOrder_window count offset).mpr ⟨?_, hCount, hOffset⟩
      rw [placeholdersOf_append, hHolds.order.mpr hCount, hHolds'.order.mpr hOffset]
      exact (hCounted.trans hCounted').numbered.ascending
  comma := by
    rintro s s' s'' count offset hComma ⟨h, ts, hTokens, -⟩ ⟨h', us, hTokens', -⟩
    refine ⟨Account.placeholders.comma hComma h h', ts ++ us, ?_, fun _ hNone => ?_⟩
    · rw [hTokens, hTokens', List.append_assoc]
    · have hSome := hasCommaLimit_of_commaLimit hComma hTokens
      cases hSome.symm.trans (hasCommaLimit_append hNone).1

/-- Without a comma in a limit, the placeholders of no limit count down. -/
theorem after_statement_inOrder {rules : Rules} (h : rules.Collects .orderly) {s : State}
    (hEnd : s.terminator.kind.IsEnd) (hInside : ∀ t ∈ s.tokens, endsStatement t = false) :
    After (statement rules) s fun x _ =>
      hasCommaLimit s.tokens = false → InOrder x.nodes := by
  refine After.imp (after_statement .orderly h hInside) ?_
  rintro x s' ⟨⟨-, ts, hSplit, hOrder⟩, hTokens⟩ hNone
  rw [hTokens, List.append_nil] at hSplit
  exact hOrder (ne_question_of_isEnd hEnd) (hSplit ▸ hNone)

end SqlKit.Grammar
