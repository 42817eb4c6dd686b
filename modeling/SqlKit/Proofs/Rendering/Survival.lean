import SqlKit.Proofs.Rendering.Gaps

/-!
# Names that are read again

A name that is put into a text without quotes is read again as the same name if it is a word of its
own (`survives_iff`), and this is what every name is that was read without quotes. `Yields Bare` of
the readers of a query gives it for the names of the query, `Legal.spells` for the text as a whole.
-/

namespace SqlKit

open Grammar

/-! ## Words -/

/-- Wherever a name stands in front of what does not go on a word, it is read as one token, which
stands for the name. -/
def Survives (n : String) : Prop :=
  ∀ p rest, (∀ d ∈ rest.head?, isNamePart d = false) →
    ∃ t q, (Cursor.mk p (n.toList ++ rest)).tokens = t :: (Cursor.mk q rest).tokens ∧
      t.span = ⟨p, q⟩ ∧ nameOf? t = some n

theorem IsName.survives {n : String} (h : IsName n) : Survives n := by
  intro p rest hRest
  obtain ⟨t, q, hTokens, hKind, hText, hSpan, -⟩ := (isLexeme_word h.word hRest).tokens p
  rw [String.ofList_toList] at hText
  exact ⟨t, q, hTokens, hSpan, nameOf?_of_isName h hKind hText⟩

/-- Quoted text is longer than what it stands for. -/
theorem QuoteStyle.length_lt_of_read {style : QuoteStyle} {cs : List Char} {content : Content}
    (h : style.read cs = some content) : content.value.length < content.extent := by
  fun_induction QuoteStyle.read style cs generalizing content with
  | case1 => cases h
  | case2 => obtain rfl := Option.some.inj h; decide
  | case3 => cases h
  | case4 d cs hDouble ih =>
    obtain ⟨inner, hInner, rfl⟩ := Option.map_eq_some_iff.mp h
    have hLength := ih hInner
    simp only [Content.cons, List.length_cons]
    omega
  | case5 => obtain rfl := Option.some.inj h; decide
  | case6 c d cs hc ih =>
    obtain ⟨inner, hInner, rfl⟩ := Option.map_eq_some_iff.mp h
    have hLength := ih hInner
    simp only [Content.cons, List.length_cons]
    omega

theorem length_lt_of_quoted {c : Char} {cs : List Char} {name : Identifier}
    (h : (lexeme c cs).kind = .identifier name) (hQuoted : name.quoted = true) :
    name.text.toList.length < (lexeme c cs).tail := by
  unfold lexeme at h ⊢
  split at h
  · rcases Numeral.kind_cases (Numeral.ofChars (c :: cs)) with ⟨m, -, hKind⟩ | hKind <;>
      cases hKind.symm.trans h
  split at h
  · rcases quotedLexeme_kind .single .string cs with ⟨value, hKind⟩ | hKind <;>
      cases hKind.symm.trans h
  split at h
  · next hNumeral hString _ style hStyle =>
    rw [if_neg hNumeral, if_neg hString]
    unfold quotedLexeme at h ⊢
    cases hRead : style.read cs with
    | none => simp [hRead] at h
    | some content =>
      simp only [hRead, TokenKind.identifier.injEq] at h
      rw [← h]
      simpa [Identifier.ofQuoted] using QuoteStyle.length_lt_of_read hRead
  split at h
  · simp only [wordKind] at h
    split at h
    · cases h
    · obtain rfl := TokenKind.identifier.inj h
      cases hQuoted
  · have hPlain := isPlain_symbolLexeme c cs
    rw [h] at hPlain
    cases hPlain

/-- A text that is one token and stands for itself has no quotes. -/
theorem Survives.isName {n : String} (h : Survives n) : IsName n := by
  obtain ⟨t, q, hTokens, -, hName⟩ := h .start [] (by simp)
  rw [List.append_nil] at hTokens
  have hMem : t ∈ tokensOf n := by
    rw [show tokensOf n = (Cursor.mk .start n.toList).tokens from rfl, hTokens]
    exact List.mem_cons_self
  cases hQuoted : t.isQuotedName with
  | false => exact (isName_of_nameOf? (bare_tokensOf hMem hQuoted) hName).1
  | true =>
    obtain ⟨c, cs, -, hKind, hText⟩ := exists_lexeme _ t hMem
    obtain ⟨after, before, hStands, -, -⟩ := (placed_tokensOf n t hMem).stands
    unfold Token.isQuotedName at hQuoted
    split at hQuoted
    · next name hIdentifier =>
      simp only [nameOf?, hIdentifier, Option.some.injEq] at hName
      have hLonger := length_lt_of_quoted (hKind.symm.trans hIdentifier) hQuoted
      have hWithin := lexeme_tail_le c cs
      have hLength := congrArg List.length hStands
      rw [hText, hName] at *
      simp only [String.toList_ofList, List.length_append, List.length_cons, List.length_take]
        at hLength
      omega
    · cases hQuoted

/-- The names that survive are the words that are not reserved. -/
theorem survives_iff {n : String} : Survives n ↔ IsName n := ⟨Survives.isName, IsName.survives⟩

/-! ## Queries -/

/-- The names of a query survive, if none of them was quoted, and unless two minus signs come
together the text of the query has its tokens. -/
theorem Select.names_survive {s : Select} (h : Script.Sound s.row) :
    (∀ n, .name n ∈ s.row → Survives n) ∧
    (NoneDoubled s.nodes → Spells s.row (tokensOf s.sql)) := by
  refine ⟨fun n hn => IsName.survives (h.fits _ hn), fun hNodes => ?_⟩
  have hSpells := (h.legal_iff.mpr (s.apart_row.mpr hNodes)).spells .start
  rwa [s.chars_row] at hSpells

end SqlKit
