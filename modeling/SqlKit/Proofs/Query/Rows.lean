import SqlKit.Proofs.Rendering.Sound
import SqlKit.Query.Predicate

/-!
# Rows in the SQL of predicates

The text of a predicate leaves out blanks that the text of a tree has, as in `a=?`. No token shows
the blanks around it, so that the text is read as the tokens of a row that has them (`HasRow`). The
text is put together from pieces, each of which is cut off from what stands behind it, and the SQL
of a predicate is cut off where it ends, in front of a blank, and in front of a parenthesis
(`BoundSql.HasRow`).
-/

namespace SqlKit

theorem Spells.append {gs hs : Script} {ts us : List Token} (h : Spells gs ts) (h' : Spells hs us) :
    Spells (gs ++ hs) (ts ++ us) := by
  induction h with
  | nil => exact h'
  | blank _ ih => exact .blank ih
  | token hToken _ ih => exact .token hToken ih
  | mark hMark hNumber hTouch _ ih => exact .mark hMark hNumber hTouch ih

/-- In front of `rest` some characters are read as tokens of their own, which are those of a row. -/
def HasRow (part rest : List Char) (gs : Script) : Prop :=
  ∀ p, ∃ ts q, (Cursor.mk p (part ++ rest)).tokens = ts ++ (Cursor.mk q rest).tokens ∧ Spells gs ts

namespace HasRow

variable {part part' rest : List Char} {gs hs : Script} {g : Glyph}

theorem nil : HasRow [] rest [] := fun p => ⟨[], p, rfl, .nil⟩

theorem append (h : HasRow part (part' ++ rest) gs) (h' : HasRow part' rest hs) :
    HasRow (part ++ part') rest (gs ++ hs) := by
  intro p
  obtain ⟨ts, q, hTokens, hSpells⟩ := h p
  obtain ⟨us, r, hTokens', hSpells'⟩ := h' q
  refine ⟨ts ++ us, r, ?_, hSpells.append hSpells'⟩
  rw [List.append_assoc, hTokens, hTokens', List.append_assoc]

/-- Blanks may stand around a row where the text has none. -/
theorem spaced (h : HasRow part rest gs) : HasRow part rest (.blank :: (gs ++ [.blank])) := by
  intro p
  obtain ⟨ts, q, hTokens, hSpells⟩ := h p
  have hBoth := hSpells.append (Spells.blank .nil)
  rw [List.append_nil] at hBoth
  exact ⟨ts, q, hTokens, .blank hBoth⟩

/-- The glyph of a token that is cut off. -/
theorem lexeme {kind : TokenKind} (h : IsLexeme part rest kind) (hKinds : g.kinds = [kind])
    (hName : ∀ n, g ≠ .name n) : HasRow part rest [g] := by
  intro p
  obtain ⟨t, q, hTokens, hKind, -⟩ := h.tokens p
  exact ⟨[t], q, hTokens, .token ⟨hKind ▸ hKinds, fun n hn => absurd hn (hName n)⟩ .nil⟩

/-- A glyph in front of what it is cut off from. -/
theorem glyph (hFits : g.Fits) (hClears : ∀ d ∈ rest.head?, g.clears d = true) :
    HasRow g.chars rest [g] := by
  intro p
  by_cases hBlank : g = .blank
  · subst hBlank
    exact ⟨[], p.step ' ' rest, tokens_blank p rest, .blank .nil⟩
  · obtain ⟨ts, q, hTokens, -, -, hSpells⟩ := Script.exists_tokens hFits hBlank hClears p
    have hGlyph := hSpells [] [] .nil
    rw [List.append_nil] at hGlyph
    exact ⟨ts, q, hTokens, hGlyph⟩

/-- A legal row in front of what its last glyph is cut off from. -/
theorem legal (h : Script.Legal gs)
    (hRest : ∀ g ∈ gs.getLast?, ∀ d ∈ rest.head?, g.clears d = true) :
    HasRow (Script.chars gs) rest gs := by
  induction gs with
  | nil => exact nil
  | cons g gs ih =>
    obtain ⟨hFits, hMeets, hLegal⟩ := Script.legal_cons.mp h
    have hClears : ∀ d ∈ (Script.chars gs ++ rest).head?, g.clears d = true := by
      cases gs with
      | nil => exact hRest g rfl
      | cons k ks =>
        have hk := Script.ne_nil_chars (hLegal.fits k List.mem_cons_self)
        rw [List.head?_append_of_ne_nil _ (by simp [hk])]
        exact Script.clears_chars hLegal.fits hMeets
    have hBehind := ih hLegal fun k hk => hRest k (by
      cases gs with
      | nil => cases hk
      | cons => rwa [List.getLast?_cons_cons])
    exact (glyph hFits hClears).append hBehind

/-- A text that is read as a whole. -/
theorem spells {text : String} (h : HasRow text.toList [] gs) : Spells gs (tokensOf text) := by
  obtain ⟨ts, q, hTokens, hSpells⟩ := h .start
  rw [List.append_nil, Cursor.tokens_nil, List.append_nil] at hTokens
  rwa [show tokensOf text = (Cursor.mk .start text.toList).tokens from rfl, hTokens]

end HasRow

namespace BoundSql

/-- The text is read as the tokens of a row where it ends, and in front of an opener. -/
def HasRow (b : BoundSql) (gs : Script) : Prop :=
  ∀ rest, (∀ d ∈ rest.head?, isOpener d = true) → SqlKit.HasRow b.sql.toList rest gs

variable {b : BoundSql} {c : Column}

theorem hasRow_of_legal {gs : Script} (h : Script.Legal gs)
    (hText : Script.chars gs = b.sql.toList) :
    b.HasRow gs := by
  intro rest hRest
  rw [← hText]
  exact .legal h fun g _ d hd => g.clears_opener (hRest d hd)

/-! ## Conditions -/

/-- An equation of numbers that is always true, or never. -/
theorem hasRow_constant {n : Nat} (hn : n < 2) (hText : b.sql = "1=" ++ toString n) :
    b.HasRow [.integer 1, .blank, .symbol .equal, .blank, .integer n] := by
  intro rest hRest
  have hMax : Numeral.maxInteger = 2 ^ 63 - 1 := rfl
  have hOne : IsLexeme ['1'] (['='] ++ (toString n).toList ++ rest) (Glyph.integerKind 1) :=
    ⟨'1', [], rfl, gapLength_eq_zero (by decide) (by simp) (by simp), rfl⟩
  have hFirst : SqlKit.HasRow ['1'] (['='] ++ (toString n).toList ++ rest) [.integer 1] :=
    .lexeme hOne rfl (by simp)
  have hEqual : IsLexeme ['='] ((toString n).toList ++ rest) (.symbol .equal) := by
    refine isLexeme_oneChar (by decide) ?_ (by simp) (by simp) (by simp)
    obtain rfl | rfl : n = 0 ∨ n = 1 := by omega
    all_goals
      rintro _ ⟨rfl⟩
      decide
  have hLast : SqlKit.HasRow (toString n).toList rest [.integer n] :=
    HasRow.glyph (g := .integer n) (by simp only [Script.fits_integer]; omega) hRest
  rw [hText, String.toList_append]
  exact hFirst.append
    ((HasRow.lexeme (g := .symbol .equal) hEqual rfl (by simp)).spaced.append hLast)

/-- A name in front of an operator and a placeholder. -/
theorem hasRow_operator (hc : IsName c.name) {s : Symbol} {ds : List Char}
    (hOperator : ∀ rest, IsLexeme ds ('?' :: rest) (.symbol s))
    (hStart : ∀ d ∈ ds.head?, isNamePart d = false)
    (hText : b.sql.toList = c.name.toList ++ (ds ++ ['?'])) :
    b.HasRow [.name c.name, .blank, .symbol s, .blank, .mark none] := by
  intro rest hRest
  have hMark : SqlKit.HasRow ['?'] rest [.mark none] := HasRow.glyph (g := .mark none) trivial hRest
  have hBehind := (HasRow.lexeme (g := .symbol s) (hOperator rest) rfl nofun).spaced.append hMark
  have hName : SqlKit.HasRow c.name.toList (ds ++ ['?'] ++ rest) [.name c.name] := by
    refine HasRow.glyph (g := .name c.name) hc fun d hd => ?_
    obtain ⟨d', ds', rfl, -⟩ := hOperator rest
    simpa [Glyph.clears] using hStart d hd
  rw [hText]
  exact hName.append hBehind

/-- A comparison with a placeholder. -/
theorem hasRow_comparison (hc : IsName c.name) (negated : Bool) {value : Value}
    (hValue : value.isNull = false) : (equality c negated value).HasRow
      [.name c.name, .blank, .symbol (if negated then .notEqual else .equal), .blank,
        .mark none] := by
  rw [equality, if_neg (by simp [hValue])]
  cases negated with
  | true =>
    have hOperator : ∀ rest, IsLexeme ['<', '>'] ('?' :: rest) (.symbol .notEqual) := fun _ =>
      isLexeme_twoChar (by decide) _
    refine hasRow_operator hc hOperator ?_ (by simp)
    rintro _ ⟨rfl⟩
    decide
  | false =>
    have hOperator : ∀ rest, IsLexeme ['='] ('?' :: rest) (.symbol .equal) := fun _ =>
      isLexeme_oneChar (by decide) (by simp [twoCharSymbol?]) (by simp) (by simp) (by simp)
    refine hasRow_operator hc hOperator ?_ (by simp)
    rintro _ ⟨rfl⟩
    decide

/-- A test for a missing value. -/
theorem hasRow_missing (hc : IsName c.name) (negated : Bool) {value : Value}
    (hValue : value.isNull = true) : (equality c negated value).HasRow
      (.name c.name :: .blank :: .keyword .IS :: .blank ::
        (optionalWord negated .NOT ++ [.keyword .NULL])) := by
  rw [equality, if_pos hValue]
  cases negated <;> refine hasRow_of_legal ?_ ?_
  all_goals simp [optionalWord, Glyph.chars, Keyword.text, hc]

theorem hasRow_likeness (hc : IsName c.name) (pattern : Value) : (likeness c pattern).HasRow
    [.name c.name, .blank, .keyword .LIKE, .blank, .mark none] := by
  refine hasRow_of_legal ?_ ?_
  · simpa [Glyph.Fits] using hc
  · simp [Glyph.chars, Keyword.text, likeness]

theorem hasRow_membership (hc : IsName c.name) {values : List Value} (hSome : values ≠ []) :
    (membership c values).HasRow (.name c.name :: .blank :: .keyword .IN :: .blank ::
      .symbol .leftParen :: (commaRow (values.map fun _ => [.mark none]) ++
        [.symbol .rightParen])) := by
  rw [membership, if_neg (by simpa using hSome)]
  refine hasRow_of_legal ?_ ?_
  · have hSound : Script.Sound (.name c.name :: .blank :: .keyword .IN :: .blank ::
        .symbol .leftParen :: (commaRow (values.map fun _ => [Glyph.mark none]) ++
          [.symbol .rightParen])) := by
      simpa [Glyph.Fits] using hc
    exact hSound.legal_iff.mpr (by simp)
  · have hMarks : Script.chars (commaRow (values.map fun _ => [Glyph.mark none])) =
        (commaSeparated (values.map fun _ => "?")).toList :=
      chars_commaRow (by simp [Glyph.chars])
    simp only [Script.chars_cons, Script.chars_append, hMarks]
    simp [Glyph.chars, Keyword.text, Symbol.written, Symbol.text]

/-! ## Conjunctions -/

/-- The text of a conjunction, with `AND` in front of each condition but the first. -/
theorem toList_conjunction (b : BoundSql) (bs : List BoundSql) :
    (conjunction (b :: bs)).sql.toList =
      b.sql.toList ++ bs.flatMap fun b => " AND ".toList ++ b.sql.toList := by
  rw [conjunction, List.isEmpty_cons, if_neg Bool.false_ne_true, List.map_cons,
    toList_intercalate_cons, List.flatMap_map]

/-- Rows with `AND` in front of them. -/
def andRow (rows : List Script) : Script := rows.flatMap ([.blank, .keyword .AND, .blank] ++ ·)

theorem opener_further {bs : List BoundSql} {rest : List Char}
    (hRest : ∀ d ∈ rest.head?, isOpener d = true) :
    ∀ d ∈ ((bs.flatMap fun b => " AND ".toList ++ b.sql.toList) ++ rest).head?,
      isOpener d = true := by
  cases bs with
  | nil => exact hRest
  | cons b bs =>
    rintro _ ⟨rfl⟩
    rfl

theorem hasRow_and (rest : List Char) :
    SqlKit.HasRow " AND ".toList rest [.blank, .keyword .AND, .blank] := by
  have hRow : Script.Legal [.blank, .keyword .AND, .blank] := by simp [Glyph.Fits]
  refine HasRow.legal hRow ?_
  rintro _ ⟨rfl⟩ d -
  rfl

/-- Further conditions, each behind `AND`. -/
theorem hasRow_further {bs : List BoundSql} {rows : List Script} (h : List.Forall₂ HasRow bs rows)
    {rest : List Char} (hRest : ∀ d ∈ rest.head?, isOpener d = true) :
    SqlKit.HasRow (bs.flatMap fun b => " AND ".toList ++ b.sql.toList) rest (andRow rows) := by
  induction h with
  | nil => exact .nil
  | cons hFirst _ ih =>
    exact ((hasRow_and _).append (hFirst _ (opener_further hRest))).append ih

/-- The row of a conjunction is that of its conditions with `AND` between them. -/
theorem hasRow_conjunction {b : BoundSql} {bs : List BoundSql} {row : Script} {rows : List Script}
    (h : b.HasRow row) (h' : List.Forall₂ HasRow bs rows) :
    (conjunction (b :: bs)).HasRow (row ++ andRow rows) := by
  intro rest hRest
  rw [toList_conjunction]
  exact (h _ (opener_further hRest)).append (hasRow_further h' hRest)

end BoundSql

end SqlKit
