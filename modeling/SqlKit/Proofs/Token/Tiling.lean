import SqlKit.Proofs.Token.Gap

/-!
# Tokens tile the text

Reading a text into tokens loses nothing: every token stands in the text where its span says, the
spans follow each other, and between them there are only gaps. Offsets count bytes, so a part of a
text is located by the bytes in front of it (`Stands`).

* `Cursor.gapped_tokens`: from any place of a text on, the tokens and the gaps in front of them
  cover what is left.
* `Lexer.tokenize_tiles`: the whole list of tokens of a text.
* `tokensOf_pairwise`: the spans of the tokens are in increasing order.
-/

namespace SqlKit

/-! ## Bytes and places -/

/-- The number of bytes of some characters. -/
def byteCount : List Char → Nat
  | [] => 0
  | c :: cs => c.utf8Size + byteCount cs

@[simp] theorem byteCount_nil : byteCount [] = 0 := rfl

@[simp] theorem byteCount_cons (c : Char) (cs : List Char) :
    byteCount (c :: cs) = c.utf8Size + byteCount cs := rfl

@[simp] theorem byteCount_append (cs ds : List Char) :
    byteCount (cs ++ ds) = byteCount cs + byteCount ds := by
  induction cs with
  | nil => simp
  | cons c cs ih =>
    rw [List.cons_append, byteCount_cons, byteCount_cons, ih]
    omega

theorem utf8ByteSize_eq_byteCount (text : String) : text.utf8ByteSize = byteCount text.toList := by
  rw [← String.ofList_toList (s := text), String.toList_ofList]
  generalize text.toList = cs
  induction cs with
  | nil => rfl
  | cons c cs ih =>
    rw [← List.singleton_append, String.ofList_append, String.utf8ByteSize_append, ih]
    simp

theorem byteCount_pos {cs : List Char} (h : cs ≠ []) : 0 < byteCount cs := by
  cases cs with
  | nil => exact absurd rfl h
  | cons c cs =>
    have := c.utf8Size_pos
    rw [byteCount_cons]
    omega

namespace Position

@[simp] theorem offset_step (p : Position) (c : Char) (following : List Char) :
    (p.step c following).offset = p.offset + c.utf8Size := by
  unfold step
  dsimp only
  split
  · rfl
  · split <;> rfl

theorem offset_advance (p : Position) (count : Nat) (cs : List Char) :
    (p.advance count cs).offset = p.offset + byteCount (cs.take count) := by
  induction count generalizing p cs with
  | zero => simp
  | succ count ih =>
    cases cs with
    | nil => simp
    | cons c cs => rw [advance_succ, ih, offset_step, List.take_succ_cons, byteCount_cons]; omega

end Position

/-- In `text` the characters `part` stand from the byte `first` up to the byte `last`, and `after`
follows. -/
def Stands (text : List Char) (first last : Nat) (part after : List Char) : Prop :=
  ∃ before, text = before ++ part ++ after ∧ byteCount before = first ∧
    byteCount (before ++ part) = last

theorem Stands.last_eq {text part after : List Char} {first last : Nat}
    (h : Stands text first last part after) : last = first + byteCount part := by
  obtain ⟨before, -, rfl, rfl⟩ := h
  exact byteCount_append before part

/-- Between the byte `place` and the first of the tokens there is a gap, and so there is between
each token and the next one. -/
def Gapped (text : List Char) (place : Nat) : List Token → Prop
  | [] => True
  | t :: rest =>
    (∃ gap after, Stands text place t.span.first.offset gap after ∧ Gap gap after) ∧
      Gapped text t.span.last.offset rest

/-! ## One token -/

theorem Numeral.kind_ne_endOfInput (n : Numeral) : n.kind ≠ .endOfInput := by
  unfold Numeral.kind
  dsimp only
  split <;> simp

theorem wordKind_ne_endOfInput (word : String) : wordKind word ≠ .endOfInput := by
  unfold wordKind
  split <;> simp

theorem quotedLexeme_kind_ne {style : QuoteStyle} {kind : String → TokenKind} {cs : List Char}
    (h : ∀ s, kind s ≠ .endOfInput) : (quotedLexeme style kind cs).kind ≠ .endOfInput := by
  unfold quotedLexeme
  split
  · exact h _
  · simp

theorem symbolLexeme_kind_ne (c : Char) (cs : List Char) :
    (symbolLexeme c cs).kind ≠ .endOfInput := by
  unfold symbolLexeme
  split
  · simp
  · cases oneCharSymbol? c <;> simp

/-- No lexeme is the end of the text. -/
theorem lexeme_kind_ne (c : Char) (cs : List Char) : (lexeme c cs).kind ≠ .endOfInput := by
  unfold lexeme
  split
  · exact Numeral.kind_ne_endOfInput _
  · split
    · exact quotedLexeme_kind_ne (by simp)
    · split
      · exact quotedLexeme_kind_ne (by simp)
      · split
        · exact wordKind_ne_endOfInput _
        · exact symbolLexeme_kind_ne c cs

/-- A token of a text stands there: it is not the end, and its span covers its source text. -/
structure Placed (text : List Char) (t : Token) : Prop where
  kind : t.kind ≠ .endOfInput
  nonempty : t.span.first.offset < t.span.last.offset
  stands : ∃ after, Stands text t.span.first.offset t.span.last.offset t.text.toList after

namespace Cursor

/-- The place of a cursor in a text: what is left of the text, and the bytes before it. -/
def At (text : List Char) (c : Cursor) : Prop :=
  Stands text c.position.offset (byteCount text) c.rest []

theorem At.advance {text : List Char} {c : Cursor} (h : c.At text) (count : Nat) :
    (c.advance count).At text := by
  obtain ⟨before, hText, hBefore, hAll⟩ := h
  refine ⟨before ++ c.rest.take count, ?_, ?_, ?_⟩
  · simpa [Cursor.advance] using hText
  · rw [byteCount_append, hBefore]
    exact (Position.offset_advance _ _ _).symm
  · simpa [Cursor.advance] using hAll

/-- What an advance passes over stands between the two places. -/
theorem At.stands_take {text : List Char} {c : Cursor} (h : c.At text) (count : Nat) :
    Stands text c.position.offset (c.advance count).position.offset (c.rest.take count)
      (c.rest.drop count) := by
  obtain ⟨before, hText, hBefore, -⟩ := h
  refine ⟨before, ?_, hBefore, ?_⟩
  · simpa using hText
  · rw [byteCount_append, hBefore]
    exact (Position.offset_advance _ _ _).symm

theorem At.placed {text : List Char} {c after : Cursor} {t : Token} (h : c.At text)
    (hToken : c.token? = some (t, after)) :
    Placed text t ∧ t.span.first = c.position ∧ t.span.last = after.position ∧ after.At text := by
  obtain ⟨head, tail, hRest, rfl, rfl⟩ := token?_eq_some_iff.mp hToken
  have hStands := h.stands_take ((lexeme head tail).tail + 1)
  rw [hRest, List.take_succ_cons, List.drop_succ_cons] at hStands
  refine ⟨⟨lexeme_kind_ne head tail, ?_, ?_⟩, rfl, rfl, h.advance _⟩
  · have hLast := hStands.last_eq
    have hPos := byteCount_pos (List.cons_ne_nil head (tail.take (lexeme head tail).tail))
    dsimp only
    omega
  · exact ⟨_, by simpa using hStands⟩

/-- The bytes of the text are counted up to its end. -/
theorem At.offset_finish {text : List Char} {c : Cursor} (h : c.At text) :
    c.finish.offset = byteCount text := by
  rw [finish, Position.offset_advance, List.take_length, h.last_eq]

theorem rest_skipGap_of_next?_none {c : Cursor} (h : c.next? = none) : c.skipGap.rest = [] :=
  token?_eq_none_iff.mp h

/-- The tokens from a place on stand in the text, and the gaps in front of them and behind them
cover the rest. -/
theorem gapped_tokens {text : List Char} {finish : Token}
    (hFinish : finish.span.first.offset = byteCount text) (c : Cursor) (h : c.At text) :
    (∀ t ∈ c.tokens, Placed text t) ∧ Gapped text c.position.offset (c.tokens ++ [finish]) := by
  fun_induction tokens c with
  | case1 c hNone =>
    refine ⟨by simp, ⟨c.rest, [], ?_, ?_⟩, trivial⟩
    · rw [hFinish]
      exact h
    · have hRest := rest_skipGap_of_next?_none hNone
      have hGap := gap_take c.rest
      rw [skipGap, rest_advance] at hRest
      rw [hRest] at hGap
      rwa [List.take_of_length_le (List.drop_eq_nil_iff.mp hRest)] at hGap
  | case2 c t after hSome ih =>
    obtain ⟨hPlaced, hFirst, hLast, hAfter⟩ := (h.advance _).placed hSome
    obtain ⟨hTokens, hGapped⟩ := ih hAfter
    refine ⟨?_, ⟨_, _, ?_, gap_take c.rest⟩, ?_⟩
    · intro u hu
      rcases List.mem_cons.mp hu with rfl | hu
      · exact hPlaced
      · exact hTokens u hu
    · rw [hFirst]
      exact h.stands_take _
    · rw [hLast]
      exact hGapped

theorem at_ofString (text : String) : (ofString text).At text.toList :=
  ⟨[], by simp [ofString], rfl, by simp [ofString]⟩

end Cursor

/-! ## All tokens of a text -/

/-- Behind a place every token starts, and each ends before the next one starts. -/
theorem Gapped.pairwise {text : List Char} {place : Nat} {ts : List Token}
    (h : Gapped text place ts) (hOrder : ∀ t ∈ ts, t.span.first.offset ≤ t.span.last.offset) :
    (∀ t ∈ ts, place ≤ t.span.first.offset) ∧
      ts.Pairwise fun t u => t.span.last.offset ≤ u.span.first.offset := by
  induction ts generalizing place with
  | nil => exact ⟨by simp, .nil⟩
  | cons t ts ih =>
    obtain ⟨⟨gap, after, hStands, -⟩, hRest⟩ := h
    have hFirst := hStands.last_eq
    have hSelf := hOrder t List.mem_cons_self
    obtain ⟨hBehind, hPairs⟩ := ih hRest fun u hu => hOrder u (List.mem_cons_of_mem _ hu)
    refine ⟨?_, .cons hBehind hPairs⟩
    intro u hu
    rcases List.mem_cons.mp hu with rfl | hu
    · omega
    · have := hBehind u hu
      omega

/-- The tokens of a text and the gaps between them cover it. -/
theorem gapped_tokensOf (text : String) :
    (∀ t ∈ tokensOf text, Placed text.toList t) ∧
      Gapped text.toList 0 (tokensOf text ++ [.endOfInput (endOf text)]) := by
  have hFinish : (Token.endOfInput (endOf text)).span.first.offset = byteCount text.toList :=
    (Cursor.at_ofString text).offset_finish
  exact Cursor.gapped_tokens hFinish _ (Cursor.at_ofString text)

theorem placed_tokensOf (text : String) : ∀ t ∈ tokensOf text, Placed text.toList t :=
  (gapped_tokensOf text).1

/-- The spans of the tokens of a text are in increasing order and do not overlap. -/
theorem tokensOf_pairwise (text : String) :
    (tokensOf text ++ [Token.endOfInput (endOf text)]).Pairwise
      fun t u => t.span.last.offset ≤ u.span.first.offset := by
  obtain ⟨hPlaced, hGapped⟩ := gapped_tokensOf text
  refine (hGapped.pairwise fun t ht => ?_).2
  rcases List.mem_append.mp ht with ht | ht
  · exact Nat.le_of_lt (hPlaced t ht).nonempty
  · rw [List.mem_singleton.mp ht]
    exact Nat.le_refl _

theorem Lexer.tokenize_ofString (text : String) :
    (Lexer.ofString text).tokenize.1 = tokensOf text ++ [.endOfInput (endOf text)] := rfl

/-- **Tokens tile the text.** Reading all tokens of a text ends with the end of the text, at the
count of its bytes, and with no other end. Every other token covers at least one byte and is the
part of the text that its span names; the spans follow each other, and what stands before, between
and behind them are gaps. -/
theorem Lexer.tokenize_tiles (text : String) :
    ∃ body finish, (Lexer.ofString text).tokenize.1 = body ++ [finish] ∧
      finish.kind = .endOfInput ∧ finish.span.first.offset = text.utf8ByteSize ∧
      finish.span.last.offset = text.utf8ByteSize ∧
      (∀ t ∈ body, Placed text.toList t) ∧
      (body ++ [finish]).Pairwise (fun t u => t.span.last.offset ≤ u.span.first.offset) ∧
      Gapped text.toList 0 (body ++ [finish]) := by
  have hFinish := (Cursor.at_ofString text).offset_finish
  rw [← utf8ByteSize_eq_byteCount] at hFinish
  exact ⟨tokensOf text, .endOfInput (endOf text), Lexer.tokenize_ofString text, rfl, hFinish,
    hFinish, placed_tokensOf text, tokensOf_pairwise text, (gapped_tokensOf text).2⟩

end SqlKit
