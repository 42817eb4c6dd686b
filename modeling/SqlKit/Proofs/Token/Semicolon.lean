import SqlKit.Proofs.Token.Shift

/-!
# Tokens in front of a semicolon

No token goes on over a semicolon behind it, apart from comments and quotes that are still open. So
where the tokens of a text are followed by nothing but the semicolon, what stands behind the
semicolon makes no difference to them (`Cursor.tokens_append_semicolon`). Behind it the tokens are
those of the rest, shifted (`tokensOf_append_semicolon`).
-/

namespace SqlKit

theorem head?_append_semicolon {c : Char} (hc : c ≠ ';') (cs rest : List Char) :
    (cs ++ ';' :: rest).head? = some c ↔ cs.head? = some c := by
  cases cs with
  | nil => simpa using hc.symm
  | cons d cs => simp

/-! ## Gaps -/

theorem gapLength_le (place : GapPlace) (cs : List Char) : gapLength place cs ≤ cs.length := by
  fun_induction gapLength place cs <;> simp_all

/-- In front of a semicolon a gap ends where it ends without it, whatever follows, unless the
semicolon belongs to a comment. -/
theorem gapLength_append_semicolon (place : GapPlace) (cs : List Char) :
    (∀ rest, gapLength place (cs ++ ';' :: rest) = gapLength place cs) ∨
      gapLength place (cs ++ [';']) = cs.length + 1 := by
  have hDash := fun cs rest => head?_append_semicolon (c := '-') (by decide) cs rest
  have hStar := fun cs rest => head?_append_semicolon (c := '*') (by decide) cs rest
  have hSlash := fun cs rest => head?_append_semicolon (c := '/') (by decide) cs rest
  fun_induction gapLength place cs with
  | case1 place =>
    cases place with
    | between =>
      refine Or.inl fun rest => ?_
      have hBlank : Text.isBlank ';' = false := by decide
      simp [gapLength, hBlank]
    | line | opening | block | closing => exact Or.inr (by simp [gapLength])
  | case2 c cs hBlank ih =>
    simp only [List.cons_append, gapLength, if_pos hBlank, List.length_cons]
    exact ih.imp (fun h rest => by rw [h]) fun h => by rw [h]
  | case3 c cs hBlank hComment ih =>
    simp only [List.cons_append, gapLength, if_neg hBlank, hDash, if_pos hComment,
      List.length_cons]
    exact ih.imp (fun h rest => by rw [h]) fun h => by rw [h]
  | case4 c cs hBlank hComment hBlock ih =>
    simp only [List.cons_append, gapLength, if_neg hBlank, hDash, if_neg hComment, hStar,
      if_pos hBlock, List.length_cons]
    exact ih.imp (fun h rest => by rw [h]) fun h => by rw [h]
  | case5 c cs hBlank hComment hBlock =>
    simp only [List.cons_append, gapLength, if_neg hBlank, hDash, if_neg hComment, hStar,
      if_neg hBlock]
    exact Or.inl fun _ => trivial
  | case6 c cs ih =>
    simp only [List.cons_append, gapLength, List.length_cons]
    exact ih.imp (fun h rest => by rw [h]) fun h => by rw [h]
  | case7 head cs ih =>
    simp only [List.cons_append, gapLength, List.length_cons]
    exact ih.imp (fun h rest => by rw [h]) fun h => by rw [h]
  | case8 c cs ih =>
    simp only [List.cons_append, gapLength, hSlash, List.length_cons]
    exact ih.imp (fun h rest => by rw [h]) fun h => by rw [h]
  | case9 head cs ih =>
    simp only [List.cons_append, gapLength, List.length_cons]
    exact ih.imp (fun h rest => by rw [h]) fun h => by rw [h]

/-! ## Numerals -/

namespace Numeral

theorem digits_append_semicolon (cs rest : List Char) : digits (cs ++ ';' :: rest) = digits cs := by
  unfold digits
  induction cs with
  | nil => rfl
  | cons c cs ih => simp only [List.cons_append, List.takeWhile_cons, ih]

theorem startsWithDigit_append_semicolon (cs rest : List Char) :
    startsWithDigit (cs ++ ';' :: rest) = startsWithDigit cs := by
  cases cs <;> rfl

theorem startsAt_append_semicolon (c : Char) (cs rest : List Char) :
    startsAt (c :: (cs ++ ';' :: rest)) = startsAt (c :: cs) := by
  simp only [startsAt, startsWithDigit_append_semicolon]

theorem fraction?_append_semicolon (cs rest : List Char) :
    fraction? (cs ++ ';' :: rest) = fraction? cs := by
  cases cs with
  | nil => rfl
  | cons c cs =>
    unfold fraction?
    by_cases hPoint : c = '.'
    · subst hPoint
      simp only [List.cons_append, startsWithDigit_append_semicolon, digits_append_semicolon]
    · simp [hPoint]

/-- The sign in front of the digits of an exponent stands at the start of the text. -/
theorem sign_isPrefix (p : Char → Bool) (cs : List Char) : (cs.head?.filter p).toList <+: cs := by
  cases cs with
  | nil => exact List.nil_prefix
  | cons c cs =>
    rw [List.head?_cons, Option.filter_some]
    split
    · exact List.cons_prefix_cons.mpr ⟨rfl, List.nil_prefix⟩
    · exact List.nil_prefix

theorem exponent?_append_semicolon (cs rest : List Char) :
    exponent? (cs ++ ';' :: rest) = exponent? cs := by
  cases cs with
  | nil => rfl
  | cons letter cs =>
    have hSign : (cs ++ ';' :: rest).head?.filter (fun c => c = '+' || c = '-') =
        cs.head?.filter fun c => c = '+' || c = '-' := by
      cases cs with
      | nil => rfl
      | cons c cs => rfl
    have hLength := (sign_isPrefix (fun c => c = '+' || c = '-') cs).length_le
    simp only [List.cons_append, exponent?, hSign, List.drop_append_of_le_length hLength,
      startsWithDigit_append_semicolon, digits_append_semicolon]

theorem fractionChars_isPrefix (cs : List Char) : fractionChars (fraction? cs) <+: cs := by
  unfold fraction?
  split
  · next cs =>
    split
    · exact List.cons_prefix_cons.mpr ⟨rfl, List.takeWhile_prefix _⟩
    · exact List.nil_prefix
  · exact List.nil_prefix

/-- What is cut off a text behind its first characters stands behind them. -/
theorem append_prefix_of_drop {xs ys cs : List Char} (h : xs <+: cs)
    (h' : ys <+: cs.drop xs.length) : xs ++ ys <+: cs := by
  obtain ⟨rest, rfl⟩ := h
  rw [List.drop_left] at h'
  exact (List.prefix_append_right_inj xs).mpr h'

theorem exponentChars_isPrefix (cs : List Char) :
    ((exponent? cs).map Exponent.chars).getD [] <+: cs := by
  unfold exponent?
  split
  · exact List.nil_prefix
  · split
    · dsimp only
      split
      · exact List.cons_prefix_cons.mpr
          ⟨rfl, append_prefix_of_drop (sign_isPrefix _ _) (List.takeWhile_prefix _)⟩
      · exact List.nil_prefix
    · exact List.nil_prefix

/-- A numeral stands at the start of the text that it is read from. -/
theorem chars_isPrefix (cs : List Char) : (ofChars cs).chars <+: cs := by
  refine append_prefix_of_drop (append_prefix_of_drop (List.takeWhile_prefix _)
    (fractionChars_isPrefix _)) ?_
  rw [List.length_append, ← List.drop_drop]
  exact exponentChars_isPrefix _

theorem ofChars_append_semicolon (cs rest : List Char) :
    ofChars (cs ++ ';' :: rest) = ofChars cs := by
  have hWhole : (digits cs).length ≤ cs.length := (List.takeWhile_prefix _).length_le
  have hFraction := (fractionChars_isPrefix (cs.drop (digits cs).length)).length_le
  unfold ofChars
  simp only [digits_append_semicolon]
  rw [List.drop_append_of_le_length hWhole, fraction?_append_semicolon,
    List.drop_append_of_le_length hFraction, exponent?_append_semicolon]

end Numeral

/-! ## Lexemes -/

/-- Quoted text that is closed is read in front of a semicolon as well, and quoted text that is not
closed is not closed by a semicolon. -/
theorem QuoteStyle.read_append_semicolon {style : QuoteStyle} (hClosing : style.closing ≠ ';')
    (cs : List Char) :
    (∀ content, style.read cs = some content → content.extent ≤ cs.length ∧
      ∀ rest, style.read (cs ++ ';' :: rest) = some content) ∧
    (style.read cs = none → style.read (cs ++ [';']) = none) := by
  have hSemicolon : ¬ ';' = style.closing := hClosing.symm
  fun_induction style.read cs with
  | case1 => simp [read, hSemicolon]
  | case2 => simp [read, hSemicolon]
  | case3 c hClose => simp [read, hClose, hSemicolon]
  | case4 d cs hDouble ih =>
    obtain ⟨hSome, hNone⟩ := ih
    simp only [List.cons_append, read, ↓reduceIte, hDouble, and_self, List.length_cons]
    refine ⟨fun content hContent => ?_, fun hRead => ?_⟩
    · obtain ⟨inner, hInner, rfl⟩ := Option.map_eq_some_iff.mp hContent
      obtain ⟨hLength, hRest⟩ := hSome inner hInner
      refine ⟨?_, fun rest => by rw [hRest rest, Option.map_some]⟩
      dsimp only [Content.cons]
      omega
    · rw [hNone (Option.map_eq_none_iff.mp hRead), Option.map_none]
  | case5 d cs hDouble =>
    simp only [List.cons_append, read, ↓reduceIte, if_neg hDouble, List.length_cons]
    refine ⟨fun content hContent => ?_, nofun⟩
    obtain rfl := Option.some.inj hContent
    exact ⟨by simp, fun _ => rfl⟩
  | case6 c d cs hClose ih =>
    obtain ⟨hSome, hNone⟩ := ih
    simp only [List.cons_append, read, if_neg hClose, List.length_cons] at hSome hNone ⊢
    refine ⟨fun content hContent => ?_, fun hRead => ?_⟩
    · obtain ⟨inner, hInner, rfl⟩ := Option.map_eq_some_iff.mp hContent
      obtain ⟨hLength, hRest⟩ := hSome inner hInner
      refine ⟨?_, fun rest => by rw [hRest rest, Option.map_some]⟩
      dsimp only [Content.cons]
      omega
    · rw [hNone (Option.map_eq_none_iff.mp hRead), Option.map_none]

theorem quotedLexeme_append_semicolon {style : QuoteStyle} (hClosing : style.closing ≠ ';')
    (kind : String → TokenKind) (cs : List Char) :
    (∀ rest, quotedLexeme style kind (cs ++ ';' :: rest) = quotedLexeme style kind cs) ∨
      (quotedLexeme style kind (cs ++ [';'])).tail = cs.length + 1 := by
  obtain ⟨hSome, hNone⟩ := QuoteStyle.read_append_semicolon hClosing cs
  unfold quotedLexeme
  cases hRead : style.read cs with
  | some content => exact Or.inl fun rest => by rw [(hSome content hRead).2 rest]
  | none => exact Or.inr (by simp [hNone hRead])

theorem twoCharSymbol?_semicolon (c : Char) : twoCharSymbol? c ';' = none := by
  unfold twoCharSymbol?
  split <;> simp_all

theorem symbolLexeme_append_semicolon (c : Char) (cs rest : List Char) :
    symbolLexeme c (cs ++ ';' :: rest) = symbolLexeme c cs := by
  cases cs with
  | nil => simp [symbolLexeme, twoCharSymbol?_semicolon]
  | cons d cs => simp [symbolLexeme]

theorem takeWhile_append_semicolon (cs rest : List Char) :
    (cs ++ ';' :: rest).takeWhile isNamePart = cs.takeWhile isNamePart := by
  induction cs with
  | nil =>
    have hPart : isNamePart ';' = false := by decide
    simp [hPart]
  | cons c cs ih => simp only [List.cons_append, List.takeWhile_cons, ih]

theorem closing_ne_semicolon : ∀ style ∈ QuoteStyle.names, style.closing ≠ ';' := by decide

/-- In front of a semicolon a lexeme is the same as without it, whatever follows, unless the
semicolon stands in quotes that are still open. -/
theorem lexeme_append_semicolon (c : Char) (cs : List Char) :
    (∀ rest, lexeme c (cs ++ ';' :: rest) = lexeme c cs) ∨
      (lexeme c (cs ++ [';'])).tail = cs.length + 1 := by
  have hNumeral : ∀ rest, Numeral.ofChars (c :: (cs ++ ';' :: rest)) = Numeral.ofChars (c :: cs) :=
    Numeral.ofChars_append_semicolon (c :: cs)
  unfold lexeme
  simp only [Numeral.startsAt_append_semicolon, hNumeral, takeWhile_append_semicolon,
    symbolLexeme_append_semicolon]
  split
  · exact Or.inl fun _ => rfl
  · split
    · exact quotedLexeme_append_semicolon (by decide) _ cs
    · split
      · next hStyle =>
        exact quotedLexeme_append_semicolon
          (closing_ne_semicolon _ (List.mem_of_find?_eq_some hStyle)) _ cs
      · exact Or.inl fun _ => rfl

theorem quotedLexeme_tail_le {style : QuoteStyle} (hClosing : style.closing ≠ ';')
    (kind : String → TokenKind) (cs : List Char) :
    (quotedLexeme style kind cs).tail ≤ cs.length := by
  unfold quotedLexeme
  split
  · next content hRead => exact ((QuoteStyle.read_append_semicolon hClosing cs).1 content hRead).1
  · exact Nat.le_refl _

/-- A lexeme ends within the text. -/
theorem lexeme_tail_le (c : Char) (cs : List Char) : (lexeme c cs).tail ≤ cs.length := by
  unfold lexeme
  split
  · have hLength := (Numeral.chars_isPrefix (c :: cs)).length_le
    rw [List.length_cons] at hLength
    dsimp only
    omega
  · split
    · exact quotedLexeme_tail_le (by decide) _ cs
    · split
      · next style hStyle =>
        exact quotedLexeme_tail_le
          (closing_ne_semicolon style (List.mem_of_find?_eq_some hStyle)) _ cs
      · split
        · exact (List.takeWhile_prefix _).length_le
        · unfold symbolLexeme
          split
          · next hSymbol =>
            cases cs with
            | nil => cases hSymbol
            | cons d cs => simp
          · exact Nat.zero_le _

/-! ## Tokens -/

theorem Position.step_append_semicolon (p : Position) (c : Char) (cs rest : List Char) :
    p.step c (cs ++ ';' :: rest) = p.step c cs := by
  unfold step
  simp only [head?_append_semicolon (c := '\n') (by decide)]

theorem Position.advance_append_semicolon (p : Position) {count : Nat} {cs : List Char}
    (h : count ≤ cs.length) (rest : List Char) :
    p.advance count (cs ++ ';' :: rest) = p.advance count cs := by
  induction count generalizing p cs with
  | zero => rw [advance_zero, advance_zero]
  | succ count ih =>
    cases cs with
    | nil => cases h
    | cons c cs =>
      rw [List.cons_append, advance_succ, advance_succ, step_append_semicolon]
      exact ih _ (Nat.le_of_succ_le_succ h)

/-- A semicolon as a token. -/
def Token.semicolonAt (p : Position) : Token :=
  ⟨.symbol .semicolon, ⟨p, ⟨p.offset + 1, p.line, p.column + 1⟩⟩, ";"⟩

namespace Cursor

/-- The same place in the text that goes on with a semicolon and more behind it. -/
def closed (c : Cursor) (rest : List Char) : Cursor := ⟨c.position, c.rest ++ ';' :: rest⟩

theorem advance_closed (c : Cursor) {count : Nat} (h : count ≤ c.rest.length) (rest : List Char) :
    (c.closed rest).advance count = (c.advance count).closed rest := by
  simp only [closed, advance, Position.advance_append_semicolon _ h,
    List.drop_append_of_le_length h]

/-- In front of a semicolon the same gap is skipped, unless all is skipped. -/
theorem skipGap_closed (c : Cursor) :
    (∀ rest, (c.closed rest).skipGap = c.skipGap.closed rest) ∨ (c.closed []).next? = none := by
  rcases gapLength_append_semicolon .between c.rest with hGap | hGap
  · refine Or.inl fun rest => ?_
    rw [skipGap, skipGap, ← advance_closed c (gapLength_le .between c.rest) rest]
    exact congrArg _ (hGap rest)
  · refine Or.inr ?_
    have hRest : (c.closed []).skipGap.rest = [] := by
      rw [skipGap, rest_advance, closed, hGap]
      exact List.drop_eq_nil_iff.mpr (by simp)
    exact token?_eq_none_iff.mpr hRest

/-- In front of a semicolon the same token is found, unless the semicolon belongs to it. -/
theorem token?_closed {c after : Cursor} {t : Token} (h : c.token? = some (t, after)) :
    (∀ rest, (c.closed rest).token? = some (t, after.closed rest)) ∨
      ∃ u last, (c.closed []).token? = some (u, last) ∧ last.rest = [] := by
  obtain ⟨head, tail, hRest, rfl, rfl⟩ := token?_eq_some_iff.mp h
  have hTail := lexeme_tail_le head tail
  have hOver : ∀ rest, (c.closed rest).rest = head :: (tail ++ ';' :: rest) := by
    intro rest
    rw [closed, hRest, List.cons_append]
  rcases lexeme_append_semicolon head tail with hLexeme | hLexeme
  · refine Or.inl fun rest => ?_
    have hCount : (lexeme head tail).tail + 1 ≤ c.rest.length := by
      rw [hRest, List.length_cons]
      omega
    have hAfter : (c.closed rest).advance ((lexeme head (tail ++ ';' :: rest)).tail + 1) =
        (c.advance ((lexeme head tail).tail + 1)).closed rest := by
      rw [hLexeme rest, advance_closed c hCount rest]
    refine token?_eq_some_iff.mpr ⟨head, _, hOver rest, hAfter.symm, ?_⟩
    rw [hLexeme rest, List.take_append_of_le_length hTail]
    rfl
  · refine Or.inr ⟨_, _, token?_eq_some_iff.mpr ⟨head, _, hOver [], rfl, rfl⟩, ?_⟩
    rw [rest_advance, hOver, hLexeme]
    exact List.drop_eq_nil_iff.mpr (by simp)

theorem token?_closed_nil {c : Cursor} (h : c.rest = []) (rest : List Char) :
    (c.closed rest).token? =
      some (.semicolonAt c.position, ⟨(Token.semicolonAt c.position).span.last, rest⟩) := by
  have hOver : (c.closed rest).rest = ';' :: rest := by rw [closed, h, List.nil_append]
  have hSymbol : symbolLexeme ';' rest = ⟨.symbol .semicolon, 0⟩ := by
    cases rest <;> rfl
  have hLexeme : lexeme ';' rest = ⟨.symbol .semicolon, 0⟩ := by
    have hStart : isNameStart ';' = false := by decide
    simp [lexeme, Numeral.startsAt, QuoteStyle.single, QuoteStyle.names, hStart, hSymbol]
  refine token?_eq_some_iff.mpr ⟨';', rest, hOver, ?_, ?_⟩
  · simp only [hLexeme, advance, hOver]
    rfl
  · rw [hLexeme]
    rfl

theorem finish_closed (c : Cursor) (rest : List Char) :
    (c.closed rest).finish = finish ⟨(Token.semicolonAt c.finish).span.last, rest⟩ := by
  have hEnd : (c.closed rest).advance c.rest.length = closed ⟨c.finish, []⟩ rest := by
    rw [advance_closed c (Nat.le_refl _)]
    simp [advance, finish]
  rw [← finish_advance _ c.rest.length, hEnd]
  exact (finish_advance (closed ⟨c.finish, []⟩ rest) 1).symm

/-- Where a text is followed by a semicolon and nothing else is, the semicolon stands at the end of
it, and the text may go on behind the semicolon. -/
theorem tokens_append_semicolon (c : Cursor) {t : Token}
    (h : (c.closed []).tokens = c.tokens ++ [t]) :
    t = .semicolonAt c.finish ∧
      ∀ rest, (c.closed rest).tokens = c.tokens ++ t :: tokens ⟨t.span.last, rest⟩ := by
  fun_induction tokens c with
  | case1 c hNone =>
    rcases c.skipGap_closed with hGap | hAll
    · have hRest := rest_skipGap_of_next?_none hNone
      have hFinish : c.skipGap.position = c.finish := by
        rw [← finish_skipGap, finish, hRest, Position.advance_nil]
      have hNext : ∀ rest, (c.closed rest).next? = some (.semicolonAt c.finish,
          ⟨(Token.semicolonAt c.finish).span.last, rest⟩) := by
        intro rest
        rw [next?, hGap rest, token?_closed_nil hRest rest, hFinish]
      rw [tokens_of_some (hNext []), List.nil_append] at h
      obtain ⟨rfl, -⟩ := List.cons.inj h
      exact ⟨rfl, fun rest => tokens_of_some (hNext rest)⟩
    · rw [tokens_of_none hAll] at h
      cases h
  | case2 c u after hSome ih =>
    rcases c.skipGap_closed with hGap | hAll
    · rcases token?_closed hSome with hToken | ⟨v, last, hToken, hLast⟩
      · have hNext : ∀ rest, (c.closed rest).next? = some (u, after.closed rest) := by
          intro rest
          rw [next?, hGap rest]
          exact hToken rest
        rw [tokens_of_some (hNext []), List.cons_append] at h
        obtain ⟨rfl, hAfter⟩ := ih (List.cons.inj h).2
        refine ⟨by rw [finish_of_next? hSome], fun rest => ?_⟩
        rw [tokens_of_some (hNext rest), hAfter rest, List.cons_append]
      · have hNext : (c.closed []).next? = some (v, last) := by
          rw [next?, hGap []]
          exact hToken
        have hNone : last.next? = none := token?_eq_none_iff.mpr (by simp [skipGap, hLast])
        rw [tokens_of_some hNext, tokens_of_none hNone] at h
        simp at h
    · rw [tokens_of_none hAll] at h
      simp at h

end Cursor

/-- The tokens and the end of a text behind a semicolon that stands behind another text. -/
theorem tokensOf_append_semicolon {a : String} {t : Token}
    (h : tokensOf (a ++ ";") = tokensOf a ++ [t]) (b : String) :
    tokensOf (a ++ ";" ++ b) = tokensOf a ++ t :: (tokensOf b).map (Token.shift t.span.last) ∧
      endOf (a ++ ";" ++ b) = t.span.last.shift (endOf b) := by
  have hOver : ∀ b : String,
      Cursor.ofString (a ++ ";" ++ b) = (Cursor.ofString a).closed b.toList := by
    intro b
    simp [Cursor.ofString, Cursor.closed]
  have hTokens : ((Cursor.ofString a).closed []).tokens = (Cursor.ofString a).tokens ++ [t] := by
    have hEmpty := hOver ""
    rw [String.append_empty] at hEmpty
    rw [tokensOf, tokensOf, hEmpty] at h
    exact h
  obtain ⟨rfl, hRest⟩ := Cursor.tokens_append_semicolon _ hTokens
  constructor
  · rw [← tokens_behind, tokensOf, hOver b]
    exact hRest b.toList
  · rw [← finish_behind, endOf, hOver b]
    exact Cursor.finish_closed _ _

end SqlKit
