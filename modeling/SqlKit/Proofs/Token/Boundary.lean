import SqlKit.Proofs.Token.Semicolon

/-!
# Lines and columns of tokens

Positions are counted on character by character while a text is read. `Position.ofOffset` is what
they are to be: the line feeds in the first bytes of the text, and the characters behind the last of
them. A carriage return in front of a line feed is not counted while reading, so that the two agree
only where no such pair is cut apart (`Cuts`). Tokens never start or end inside of such a pair.

* `Position.Counts.advance`: what is counted behind some characters of a text.
* `lexeme_boundary`: no lexeme ends between a carriage return and its line feed.
* `bounded_tokenize`: the places of all tokens of a text.
-/

namespace SqlKit

/-! ## Places by their offsets -/

/-- The characters of a text that lie within its first `count` bytes. -/
def firstBytes : Nat → List Char → List Char
  | _, [] => []
  | count, c :: cs => if c.utf8Size ≤ count then c :: firstBytes (count - c.utf8Size) cs else []

theorem firstBytes_append (before after : List Char) :
    firstBytes (byteCount before) (before ++ after) = before := by
  induction before with
  | nil =>
    cases after with
    | nil => rfl
    | cons c cs =>
      have hPos := c.utf8Size_pos
      rw [List.nil_append, byteCount_nil, firstBytes, if_neg (by omega)]
  | cons c cs ih =>
    rw [List.cons_append, byteCount_cons, firstBytes, if_pos (by omega),
      Nat.add_sub_cancel_left, ih]

/-- The characters of a text that a span covers. -/
def Span.slice (text : List Char) (s : Span) : List Char :=
  (firstBytes s.last.offset text).drop (firstBytes s.first.offset text).length

theorem firstBytes_isPrefix (count : Nat) (text : List Char) : firstBytes count text <+: text := by
  induction text generalizing count with
  | nil => exact List.prefix_refl _
  | cons c cs ih =>
    rw [firstBytes]
    split
    · exact List.cons_prefix_cons.mpr ⟨rfl, ih _⟩
    · exact List.nil_prefix

/-- What a span covers is the start of what follows the bytes in front of it. -/
theorem Span.slice_isPrefix {before after : List Char} {s : Span}
    (h : byteCount before = s.first.offset) : s.slice (before ++ after) <+: after := by
  have hFront : firstBytes s.first.offset (before ++ after) = before := by
    rw [← h]
    exact firstBytes_append before after
  obtain ⟨rest, hRest⟩ := firstBytes_isPrefix s.last.offset (before ++ after)
  have hDrop := congrArg (List.drop before.length) hRest
  rw [List.drop_append, List.drop_left] at hDrop
  unfold slice
  rw [hFront]
  exact ⟨_, hDrop⟩

/-- What stands between two places is what a span from one to the other covers. -/
theorem Stands.slice_eq {text part after : List Char} {p q : Position}
    (h : Stands text p.offset q.offset part after) : Span.slice text ⟨p, q⟩ = part := by
  obtain ⟨before, rfl, hFirst, hLast⟩ := h
  have hFront : firstBytes p.offset (before ++ part ++ after) = before := by
    rw [← hFirst, List.append_assoc]
    exact firstBytes_append _ _
  have hBack : firstBytes q.offset (before ++ part ++ after) = before ++ part := by
    rw [← hLast]
    exact firstBytes_append _ _
  rw [Span.slice, hFront, hBack, List.drop_left]

theorem Placed.slice {text : List Char} {t : Token} (h : Placed text t) :
    t.span.slice text = t.text.toList := by
  obtain ⟨after, hStands⟩ := h.stands
  exact hStands.slice_eq

/-- The characters behind the last line feed. -/
def lastLine (cs : List Char) : List Char := (cs.reverse.takeWhile fun c => c ≠ '\n').reverse

@[simp] theorem lastLine_nil : lastLine [] = [] := rfl

theorem length_lastLine_concat (cs : List Char) (c : Char) :
    (lastLine (cs ++ [c])).length = if c = '\n' then 0 else (lastLine cs).length + 1 := by
  unfold lastLine
  by_cases hc : c = '\n' <;> simp [hc]

/-- The place behind the first bytes of a text. -/
def Position.ofOffset (text : List Char) (offset : Nat) : Position where
  offset := offset
  line := 1 + (firstBytes offset text).count '\n'
  column := 1 + (lastLine (firstBytes offset text)).length

/-- Two parts of a text cut a carriage return off from the line feed behind it. -/
def Cuts (before after : List Char) : Prop :=
  before.getLast? = some '\r' ∧ after.head? = some '\n'

instance (before after : List Char) : Decidable (Cuts before after) :=
  inferInstanceAs (Decidable (_ ∧ _))

/-- What is counted at a place between two parts of a text. -/
structure Position.Counts (p : Position) (before after : List Char) : Prop where
  offset : p.offset = byteCount before
  line : p.line = 1 + before.count '\n'
  column : p.column + (if Cuts before after then 1 else 0) = 1 + (lastLine before).length

theorem Position.Counts.step {p : Position} {before after : List Char} {c : Char}
    (h : p.Counts before (c :: after)) : (p.step c after).Counts (before ++ [c]) after := by
  have hCuts : Cuts (before ++ [c]) after ↔ c = '\r' ∧ after.head? = some '\n' := by simp [Cuts]
  have hColumn := h.column
  have hLine := h.line
  refine ⟨?_, ?_, ?_⟩
  · rw [offset_step, h.offset, byteCount_append, byteCount_cons, byteCount_nil, Nat.add_zero]
  · unfold Position.step
    rw [List.count_append, List.count_singleton]
    by_cases hFeed : c = '\n'
    · subst hFeed
      simp [hLine, Nat.add_assoc]
    · have hNone : (if c == '\n' then 1 else 0) = 0 := if_neg (by simpa using hFeed)
      rw [if_neg hFeed, hNone]
      split <;> exact hLine
  · rw [length_lastLine_concat]
    unfold Position.step
    by_cases hFeed : c = '\n'
    · have hNot : ¬ Cuts (before ++ [c]) after := fun hCut =>
        absurd (hFeed.symm.trans (hCuts.mp hCut).1) (by decide)
      rw [if_pos hFeed, if_pos hFeed, if_neg hNot]
    · -- the line feed of a pair that is cut apart would stand in front of `after`
      have hBefore : ¬ Cuts before (c :: after) := fun hCut => hFeed (Option.some.inj hCut.2)
      rw [if_neg hBefore] at hColumn
      rw [if_neg hFeed, if_neg hFeed]
      by_cases hPair : c = '\r' ∧ after.head? = some '\n'
      · rw [if_pos hPair, if_pos (hCuts.mpr hPair)]
        dsimp only
        omega
      · rw [if_neg hPair, if_neg (mt hCuts.mp hPair)]
        dsimp only
        omega

theorem Position.Counts.advance {p : Position} {before after : List Char}
    (h : p.Counts before after) (count : Nat) :
    (p.advance count after).Counts (before ++ after.take count) (after.drop count) := by
  induction count generalizing p before after with
  | zero => simpa using h
  | succ count ih =>
    cases after with
    | nil => simpa using h
    | cons c after => simpa using ih h.step

theorem Position.counts_start (text : List Char) : Position.start.Counts [] text :=
  ⟨rfl, rfl, rfl⟩

/-- Where no pair is cut apart, the place that was counted is the one of its offset. -/
theorem Position.Counts.eq_ofOffset {p : Position} {before after : List Char}
    (h : p.Counts before after) (hCuts : ¬ Cuts before after) :
    p = .ofOffset (before ++ after) p.offset := by
  obtain ⟨offset, line, column⟩ := p
  obtain ⟨rfl, rfl, hColumn⟩ := h
  rw [if_neg hCuts, Nat.add_zero] at hColumn
  subst hColumn
  simp [ofOffset, firstBytes_append]

/-! ## Where lexemes end -/

/-- Some characters do not end with a carriage return. -/
def EndsPlain (cs : List Char) : Prop := cs.getLast? ≠ some '\r'

theorem EndsPlain.of_all {p : Char → Bool} {cs : List Char} (h : cs.all p = true)
    (hReturn : p '\r' = false) : EndsPlain cs := by
  intro hLast
  have hMem := List.mem_of_getLast? hLast
  rw [List.all_eq_true.mp h _ hMem] at hReturn
  cases hReturn

theorem EndsPlain.append {a b : List Char} (h : EndsPlain b) (hNil : b = [] → EndsPlain a) :
    EndsPlain (a ++ b) := by
  unfold EndsPlain
  rw [List.getLast?_append]
  cases hLast : b.getLast? with
  | none => exact hNil (List.getLast?_eq_none_iff.mp hLast)
  | some d => exact fun hd => h (hLast.trans hd)

theorem Numeral.endsPlain_digits (cs : List Char) : EndsPlain (digits cs) := by
  refine EndsPlain.of_all (p := Char.isDigit) ?_ (by decide)
  exact List.all_takeWhile

theorem Numeral.endsPlain_chars (cs : List Char) : EndsPlain (ofChars cs).chars := by
  have hFraction : ∀ cs, EndsPlain (fractionChars (fraction? cs)) := by
    intro cs
    unfold fraction?
    split
    · split
      · exact EndsPlain.append (a := ['.']) (endsPlain_digits _) fun _ => by simp [EndsPlain]
      · simp [fractionChars, EndsPlain]
    · simp [fractionChars, EndsPlain]
  have hExponent : ∀ cs, EndsPlain (((exponent? cs).map Exponent.chars).getD []) := by
    intro cs
    unfold exponent?
    split
    · simp [EndsPlain]
    · split
      · next letter rest hLetter =>
        dsimp only
        split
        · refine EndsPlain.append (a := letter :: _) (endsPlain_digits _) fun _ => ?_
          refine EndsPlain.of_all (p := fun c => c ≠ '\r') ?_ (by decide)
          have hSign : ∀ d ∈ (rest.head?.filter fun c => c = '+' || c = '-').toList, d ≠ '\r' := by
            intro d hd hReturn
            subst hReturn
            simp at hd
          rcases hLetter with rfl | rfl <;> simpa using hSign
        · simp [EndsPlain]
      · simp [EndsPlain]
  unfold ofChars chars
  refine EndsPlain.append (hExponent _) fun _ => ?_
  exact EndsPlain.append (hFraction _) fun _ => endsPlain_digits _

/-- Quoted text that is closed ends with its closing character. -/
theorem QuoteStyle.getLast?_take_read {style : QuoteStyle} {cs : List Char} {content : Content}
    (h : style.read cs = some content) :
    (cs.take content.extent).getLast? = some style.closing := by
  fun_induction QuoteStyle.read style cs generalizing content with
  | case1 => cases h
  | case2 => obtain rfl := Option.some.inj h; rfl
  | case3 => cases h
  | case4 d cs hDouble ih =>
    obtain ⟨inner, hInner, rfl⟩ := Option.map_eq_some_iff.mp h
    have hLast := ih hInner
    have hNonempty : cs.take inner.extent ≠ [] := by
      intro hNil
      rw [hNil] at hLast
      cases hLast
    rw [Content.cons, List.take_succ_cons, List.take_succ_cons, List.getLast?_cons_of_ne_nil
      (List.cons_ne_nil _ _), List.getLast?_cons_of_ne_nil hNonempty, hLast]
  | case5 => obtain rfl := Option.some.inj h; rfl
  | case6 c d cs hc ih =>
    obtain ⟨inner, hInner, rfl⟩ := Option.map_eq_some_iff.mp h
    have hLast := ih hInner
    have hNonempty : (d :: cs).take inner.extent ≠ [] := by
      intro hNil
      rw [hNil] at hLast
      cases hLast
    rw [Content.cons, List.take_succ_cons, List.getLast?_cons_of_ne_nil hNonempty, hLast]

theorem quotedLexeme_boundary {style : QuoteStyle} (hClosing : style.closing ≠ '\r')
    (kind : String → TokenKind) (c : Char) (cs : List Char) :
    EndsPlain (c :: cs.take (quotedLexeme style kind cs).tail) ∨
      cs.drop (quotedLexeme style kind cs).tail = [] := by
  unfold quotedLexeme
  split
  · next content hRead =>
    have hLast := QuoteStyle.getLast?_take_read hRead
    refine Or.inl (EndsPlain.append (a := [c]) (fun hReturn => ?_) fun hNil => ?_)
    · exact hClosing (Option.some.inj (hLast.symm.trans hReturn))
    · rw [hNil] at hLast
      cases hLast
  · exact Or.inr (List.drop_length)

theorem symbolLexeme_boundary {c : Char} (hc : c ≠ '\r') (cs : List Char) :
    EndsPlain (c :: cs.take (symbolLexeme c cs).tail) := by
  unfold symbolLexeme
  split
  · next symbol hTwo =>
    obtain ⟨d, hd, hSymbol⟩ := Option.bind_eq_some_iff.mp hTwo
    obtain ⟨ds, rfl⟩ : ∃ ds, cs = d :: ds := by
      cases cs with
      | nil => cases hd
      | cons e es => exact ⟨es, by rw [Option.some.inj hd]⟩
    intro hReturn
    obtain rfl : d = '\r' := by simpa using hReturn
    unfold twoCharSymbol? at hSymbol
    split at hSymbol <;> simp_all
  · simpa [EndsPlain] using hc

/-- No lexeme ends with a carriage return, unless the text ends with it. -/
theorem lexeme_boundary {c : Char} (hc : c ≠ '\r') (cs : List Char) :
    EndsPlain (c :: cs.take (lexeme c cs).tail) ∨ cs.drop (lexeme c cs).tail = [] := by
  have hNames : ∀ style ∈ QuoteStyle.names, style.closing ≠ '\r' := by decide
  unfold lexeme
  split
  · obtain ⟨after, hAfter⟩ := Numeral.chars_isPrefix (c :: cs)
    have hEnds := Numeral.endsPlain_chars (c :: cs)
    dsimp only
    generalize (Numeral.ofChars (c :: cs)).chars = numeral at hAfter hEnds ⊢
    refine Or.inl ?_
    cases numeral with
    | nil => simpa [EndsPlain] using hc
    | cons d ds =>
      obtain ⟨rfl, rfl⟩ := List.cons.inj hAfter
      simpa using hEnds
  · split
    · exact quotedLexeme_boundary (by decide) _ c cs
    · split
      · next style hStyle =>
        exact quotedLexeme_boundary (hNames style (List.mem_of_find?_eq_some hStyle)) _ c cs
      · split
        · refine Or.inl (EndsPlain.append (a := [c]) ?_ fun _ => by simpa [EndsPlain] using hc)
          dsimp only
          have hPrefix := List.takeWhile_prefix isNamePart (l := cs)
          rw [← List.prefix_iff_eq_take.mp hPrefix]
          exact EndsPlain.of_all List.all_takeWhile (by decide)
        · exact Or.inl (symbolLexeme_boundary hc cs)

/-! ## Where tokens start and end -/

/-- Behind a gap no blank is next. -/
theorem isBlank_head_drop (place : GapPlace) (cs : List Char) :
    ∀ c ∈ (cs.drop (gapLength place cs)).head?, Text.isBlank c = false := by
  fun_induction gapLength place cs with
  | case1 => simp
  | case5 c cs hBlank => simpa using hBlank
  | _ =>
    rw [List.drop_succ_cons]
    assumption

/-- A token starts and ends at the places of its offsets. -/
structure Token.Bounded (text : List Char) (t : Token) : Prop where
  first : t.span.first = .ofOffset text t.span.first.offset
  last : t.span.last = .ofOffset text t.span.last.offset

namespace Cursor

/-- What a cursor counted is what stands in front of it in a text. -/
def Counted (text : List Char) (c : Cursor) : Prop :=
  ∃ before, text = before ++ c.rest ∧ c.position.Counts before c.rest

theorem counted_ofString (text : String) : (ofString text).Counted text.toList :=
  ⟨[], rfl, Position.counts_start _⟩

theorem Counted.advance {text : List Char} {c : Cursor} (h : c.Counted text) (count : Nat) :
    (c.advance count).Counted text := by
  obtain ⟨before, hText, hCounts⟩ := h
  exact ⟨before ++ c.rest.take count, by simpa [Cursor.advance] using hText, hCounts.advance count⟩

/-- In front of anything but a line feed the place that was counted is the one of its offset. -/
theorem Counted.position_eq {text : List Char} {c : Cursor} (h : c.Counted text)
    (hHead : c.rest.head? ≠ some '\n') : c.position = .ofOffset text c.position.offset := by
  obtain ⟨before, rfl, hCounts⟩ := h
  exact hCounts.eq_ofOffset fun hCuts => hHead hCuts.2

/-- At the end of a text nothing is cut apart. -/
theorem Counted.finish_eq {text : List Char} {c : Cursor} (h : c.Counted text) :
    c.finish = .ofOffset text c.finish.offset := by
  refine (h.advance c.rest.length).position_eq ?_
  simp [Cursor.advance]

theorem head?_skipGap (c : Cursor) : ∀ d ∈ c.skipGap.rest.head?, Text.isBlank d = false :=
  isBlank_head_drop .between c.rest

theorem Counted.bounded {text : List Char} {c after : Cursor} {t : Token} (h : c.Counted text)
    (hHead : ∀ d ∈ c.rest.head?, Text.isBlank d = false)
    (hToken : c.token? = some (t, after)) : t.Bounded text ∧ after.Counted text := by
  obtain ⟨head, tail, hRest, rfl, rfl⟩ := token?_eq_some_iff.mp hToken
  have hBlank := hHead head (by rw [hRest]; rfl)
  have hNe : ∀ d, Text.isBlank d = true → head ≠ d := by
    rintro d hd rfl
    exact nomatch hd.symm.trans hBlank
  refine ⟨⟨h.position_eq ?_, ?_⟩, h.advance _⟩
  · rw [hRest]
    exact fun hFeed => hNe '\n' (by decide) (Option.some.inj hFeed)
  · obtain ⟨before, rfl, hCounts⟩ := h
    have hAfter := hCounts.advance ((lexeme head tail).tail + 1)
    rw [hRest, List.take_succ_cons, List.drop_succ_cons] at hAfter
    have hPlace := hAfter.eq_ofOffset fun hCuts => ?_
    · rwa [List.append_assoc, List.cons_append, List.take_append_drop, ← hRest] at hPlace
    · rcases lexeme_boundary (hNe '\r' (by decide)) tail with hEnds | hNil
      · exact EndsPlain.append hEnds (fun hNil => nomatch hNil) hCuts.1
      · rw [hNil] at hCuts
        exact nomatch hCuts.2

theorem Counted.bounded_tokens {text : List Char} (c : Cursor) (h : c.Counted text) :
    ∀ t ∈ c.tokens, t.Bounded text := by
  fun_induction tokens c with
  | case1 => simp
  | case2 c t after hSome ih =>
    obtain ⟨hFirst, hAfter⟩ := (h.advance _).bounded c.head?_skipGap hSome
    intro u hu
    rcases List.mem_cons.mp hu with rfl | hu
    · exact hFirst
    · exact ih hAfter u hu

end Cursor

/-- The tokens of a text, the end included, start and end at the places of their offsets. -/
theorem bounded_tokenize (text : String) :
    ∀ t ∈ (Lexer.ofString text).tokenize.1, t.Bounded text.toList := by
  have hStart := Cursor.counted_ofString text
  intro t ht
  rw [Lexer.tokenize_ofString] at ht
  rcases List.mem_append.mp ht with ht | ht
  · exact Cursor.Counted.bounded_tokens _ hStart t ht
  · rw [List.mem_singleton.mp ht]
    exact ⟨hStart.finish_eq, hStart.finish_eq⟩

end SqlKit
