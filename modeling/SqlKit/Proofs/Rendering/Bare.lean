import SqlKit.Proofs.Rendering.After
import SqlKit.Proofs.Token.Boundary

/-!
# Tokens that are written as they are

A token of a text is a lexeme of it (`exists_lexeme`). Unless it is a name between quotes, a word is
therefore its own text, and a number has no sign (`bare_of_mem`).
-/

namespace SqlKit

/-- Whether a token is a name between quotes. -/
def Token.isQuotedName (t : Token) : Bool :=
  match t.kind with
  | .identifier name => name.quoted
  | _ => false

/-- A lexeme and the characters that it covers, as a token shows them. -/
structure Token.IsLexemeAt (t : Token) (c : Char) (cs : List Char) : Prop where
  head : Text.isBlank c = false
  kind : t.kind = (lexeme c cs).kind
  text : t.text = String.ofList (c :: cs.take (lexeme c cs).tail)

/-- Every token of a text is a lexeme that does not start with a blank. -/
theorem exists_lexeme (c : Cursor) : ∀ t ∈ c.tokens, ∃ d ds, t.IsLexemeAt d ds := by
  fun_induction Cursor.tokens c with
  | case1 => simp
  | case2 c t after hSome ih =>
    refine List.forall_mem_cons.mpr ⟨?_, ih⟩
    obtain ⟨head, tail, hRest, -, rfl⟩ := Cursor.token?_eq_some_iff.mp hSome
    exact ⟨head, tail, c.head?_skipGap head (by rw [hRest]; rfl), rfl, rfl⟩

theorem ofList_take_takeWhile (c : Char) (p : Char → Bool) (cs : List Char) :
    c :: cs.take (cs.takeWhile p).length = c :: cs.takeWhile p := by
  rw [← List.prefix_iff_eq_take.mp (List.takeWhile_prefix p)]

/-- A numeral stands for no negative number. -/
theorem Numeral.kind_cases (n : Numeral) :
    (∃ m, m ≤ maxInteger ∧ n.kind = .integer (Int64.ofNat m)) ∨ n.kind = .float n.toBinary64 := by
  unfold Numeral.kind
  dsimp only
  split
  · next hFits =>
    simp only [Bool.and_eq_true, decide_eq_true_eq] at hFits
    exact Or.inl ⟨_, hFits.2, rfl⟩
  · exact Or.inr rfl

/-- Kinds of tokens that are neither words nor numbers. -/
def TokenKind.isPlain : TokenKind → Bool
  | .keyword _ | .identifier _ | .integer _ | .float _ => false
  | _ => true

theorem Token.bare_of_isPlain {t : Token} (h : t.kind.isPlain = true) : t.Bare where
  keyword _ hKind := by rw [hKind] at h; cases h
  identifier _ hKind := by rw [hKind] at h; cases h
  integer _ hKind := by rw [hKind] at h; cases h

theorem Token.bare_numeral {t : Token} {n : Numeral} (h : t.kind = n.kind) : t.Bare := by
  rcases n.kind_cases with ⟨m, hm, hKind⟩ | hKind
  · rw [hKind] at h
    refine ⟨fun _ h' => ?_, fun _ h' => ?_, fun value h' => ?_⟩
    · cases h.symm.trans h'
    · cases h.symm.trans h'
    · obtain rfl := TokenKind.integer.inj (h.symm.trans h')
      refine (Int64.toInt_ofNat_of_lt ?_).symm ▸ Int.natCast_nonneg m
      simp only [Numeral.maxInteger, Nat.pow_eq] at hm
      omega
  · refine ⟨fun _ h' => ?_, fun _ h' => ?_, fun _ h' => ?_⟩
    all_goals cases (h.trans hKind).symm.trans h'

theorem Token.bare_word {t : Token} (hKind : t.kind = wordKind t.text)
    (hWord : isWord t.text.toList = true) : t.Bare where
  keyword _ _ := ⟨hKind, hWord⟩
  identifier name h := by
    refine ⟨?_, hKind, hWord⟩
    rw [hKind] at h
    unfold wordKind at h
    split at h
    · cases h
    · exact congrArg Identifier.text (TokenKind.identifier.inj h).symm
  integer _ h := by
    rw [hKind] at h
    unfold wordKind at h
    split at h <;> cases h

theorem isPlain_symbolLexeme (c : Char) (cs : List Char) :
    (symbolLexeme c cs).kind.isPlain = true := by
  unfold symbolLexeme
  split
  · rfl
  · cases oneCharSymbol? c <;> rfl

theorem quotedLexeme_kind (style : QuoteStyle) (kind : String → TokenKind) (cs : List Char) :
    (∃ name, (quotedLexeme style kind cs).kind = kind name) ∨
      (quotedLexeme style kind cs).kind = .unknown := by
  unfold quotedLexeme
  split
  · exact Or.inl ⟨_, rfl⟩
  · exact Or.inr rfl

/-- What lexemes there are: numerals, names between quotes, words, and what is none of these. -/
theorem lexeme_cases (c : Char) (cs : List Char) :
    (∃ n : Numeral, (lexeme c cs).kind = n.kind) ∨ (lexeme c cs).kind.isPlain = true ∨
      (∃ name, (lexeme c cs).kind = .identifier (.ofQuoted name)) ∨
      isNameStart c = true ∧ lexeme c cs = ⟨wordKind (String.ofList (c :: cs.takeWhile isNamePart)),
        (cs.takeWhile isNamePart).length⟩ := by
  unfold lexeme
  split
  · exact Or.inl ⟨_, rfl⟩
  refine Or.inr ?_
  split
  · rcases quotedLexeme_kind .single .string cs with ⟨value, hSame⟩ | hSame <;>
      exact Or.inl (hSame ▸ rfl)
  split
  · next style _ =>
    rcases quotedLexeme_kind style (fun name => .identifier (.ofQuoted name)) cs with h | hSame
    · exact Or.inr (Or.inl h)
    · exact Or.inl (hSame ▸ rfl)
  split
  · next hStart => exact Or.inr (Or.inr ⟨hStart, rfl⟩)
  · exact Or.inl (isPlain_symbolLexeme c cs)

/-- A lexeme is written as it is, unless it is a name between quotes. -/
theorem Token.IsLexemeAt.bare {t : Token} {c : Char} {cs : List Char} (h : t.IsLexemeAt c cs)
    (hQuoted : t.isQuotedName = false) : t.Bare := by
  obtain ⟨hHead, hKind, hText⟩ := h
  rcases lexeme_cases c cs with ⟨n, hCase⟩ | hCase | ⟨name, hCase⟩ | ⟨hStart, hCase⟩
  · exact bare_numeral (hKind.trans hCase)
  · exact bare_of_isPlain (hKind ▸ hCase)
  · rw [Token.isQuotedName, hKind, hCase] at hQuoted
    cases hQuoted
  · rw [hCase] at hKind hText
    rw [ofList_take_takeWhile] at hText
    have hWord : isWord (c :: cs.takeWhile isNamePart) = true := by
      simp only [isWord, hStart, hHead, List.all_takeWhile]
      rfl
    refine bare_word (hText ▸ hKind) ?_
    rw [hText, String.toList_ofList]
    exact hWord

/-- The tokens of a text are written as they are, apart from names between quotes. -/
theorem bare_tokensOf {text : String} {t : Token} (h : t ∈ tokensOf text)
    (hQuoted : t.isQuotedName = false) : t.Bare := by
  obtain ⟨c, cs, hLexeme⟩ := exists_lexeme _ t h
  exact hLexeme.bare hQuoted

end SqlKit
