import SqlKit.Proofs.Rendering.Alone
import SqlKit.Proofs.Rendering.KeptTokens
import SqlKit.Proofs.Rendering.Numerals

/-!
# Constants are read back, or not

A row of a term is read back behind `SELECT` if it is read back alone (`shown_ofExpr`). A constant
is so read again from its own text, unless it is a number that is written like another or like a
name (`readLiteral?_iff`).
-/

namespace SqlKit

/-! ## Constants in trees -/

/-- The constant that a query asks for, if it asks for nothing else. -/
def Select.literal? : Select → Option Literal
  | ⟨false, [], .single (.select false [.expr e none] none none [] none), [], .none, _⟩ =>
    e.term?.bind fun
      | .literal value => some value
      | _ => none
  | _ => none

namespace Grammar

open Parse

variable {k : Nat} {kind : TokenKind} {t : Term} {gs : Script}

/-- The kinds of tokens that a constant starts with, signs in front of it included. -/
def isConstantStart : TokenKind → Bool
  | .integer _ | .float _ | .string _ | .keyword .TRUE | .keyword .FALSE | .keyword .NULL
  | .symbol .minus | .symbol .plus => true
  | _ => false

theorem ne_of_isConstantStart {other : TokenKind} (h : isConstantStart kind = true)
    (hOther : isConstantStart other = false) : kind ≠ other := by
  rintro rfl
  exact Bool.noConfusion (h.symm.trans hOther)

/-- Behind the one result of a query stands nothing. -/
theorem shown_clausesOfTerm (h : Shown k .term term 1 (Opening kind) t gs)
    (hStart : isConstantStart kind = true) :
    Shown k .clauses clauses 15 Fresh (((([.expr t.toExpr none], none), none), []), none) gs := by
  have hNoSource : Tail k (Print.joinClause.afterWord .FROM)
      (fun rules => after .FROM (joinClause rules)) 11 12 none [] :=
    tail_none (by decide) (by decide)
  have hNoCondition : Tail k (Print.expr.afterWord .WHERE)
      (fun rules => after .WHERE (expr rules)) 12 13 none [] := tail_none (by decide) (by decide)
  have hNoKeys : Tail k (Print.expr.listed .GROUP .BY)
      (fun rules => listed .GROUP .BY (expr rules)) 13 14 [] [] :=
    tail_listedNil (by decide) (by decide)
  have hNoFilter : Tail k (Print.expr.afterWord .HAVING)
      (fun rules => after .HAVING (expr rules)) 14 15 none [] := tail_none (by decide) (by decide)
  have hValue :=
    shown_result h (ne_of_isConstantStart hStart rfl) (ne_of_isConstantStart hStart rfl)
    (ne_of_isConstantStart hStart rfl)
  have hClauses := ((((hValue.separated (by decide)).pair hNoSource).pair hNoCondition).pair
    hNoKeys).pair hNoFilter
  simp only [List.append_nil] at hClauses
  exact hClauses

/-- The query for a term that starts like a constant is read back. -/
theorem shown_ofExpr (h : Shown (k + 1) .term term 1 (Opening kind) t gs)
    (hStart : isConstantStart kind = true) (span : Span) :
    Shown k .select select 19 (fun ks => first ks = .keyword .SELECT) (.ofExpr t.toExpr span)
      (.keyword .SELECT :: .blank :: gs) :=
  shown_query (shown_clausesOfTerm h hStart) span

end Grammar

/-! ## Constants -/

/-- The constants that statements hold. As the digits of an integer have no sign, none of them is
the least integer of its width. -/
def Literal.Written : Literal → Prop
  | .integer value => -(Numeral.maxInteger : Int) ≤ value.toInt
  | .float value => value.IsNormal
  | .string _ | .boolean _ | .null => True

/-- The constants whose text is not that of a constant of their kind. -/
def Literal.Disguised : Literal → Prop
  | .float value => value.Disguised
  | .integer _ | .string _ | .boolean _ | .null => False

/-- The constant that the text of one is read as behind `SELECT`, where nothing else is read and no
error is noted. -/
def readLiteral? (text : String) : Option Literal :=
  match parse .standard ("SELECT " ++ text) with
  | ⟨[.select q], [], []⟩ => q.literal?
  | _ => none

namespace Grammar

variable {k : Nat} {kind : TokenKind}

/-- An integer has the digits of one that is not negative. -/
theorem exists_unsigned {value : Int64} (h : (Literal.integer value).Written) :
    ∃ v : Int64, 0 ≤ v.toInt ∧ (value = v ∨ value = -v) := by
  rcases Int.le_total 0 value.toInt with hPositive | hNegative
  · exact ⟨value, hPositive, .inl rfl⟩
  · refine ⟨-value, ?_, .inr Int64.neg_neg.symm⟩
    rw [toInt_neg_of_le h]
    omega

theorem isConstantStart_of_isSigned (h : isSigned kind = true) : isConstantStart kind = true := by
  unfold isSigned at h
  split at h <;> first | rfl | cases h

/-- The digits of a number that is not written like an integer are read back. -/
theorem shown_digits {s e : Nat} (hForm : Binary64.InForm s e)
    (h : ¬ (Binary64.finite false s e).Disguised) :
    Shown k .term unsignedTerm 1 (Opening (.float (.finite false s e)))
      (.literal (.float (.finite false s e))) [.numeral (Binary64.numeral s e)] := by
  refine shown_literal rfl ?_ (Binary64.isPositional_numeral s e) rfl (by simp) fun t ht => ?_
  · rw [Glyph.kinds, Binary64.kind_numeral_of_not hForm h]
  · rw [literalOf?, ht]

/-- A constant that is a word is read back. -/
theorem shown_word {value : Literal} {word : Keyword} (hRow : value.row = [.keyword word])
    (hName : isNameKind (.keyword word) = false) (hFresh : word ≠ .ALL ∧ word ≠ .DISTINCT)
    (hLiteral : ∀ t : Token, t.kind = .keyword word → literalOf? t = some value) :
    Shown k .term term 1 (Opening (.keyword word)) (.literal value) [.keyword word] :=
  shown_unsigned (shown_literal hRow rfl trivial hName (by simpa using hFresh) hLiteral) (by simp)

/-- A constant that is not disguised is read back. -/
theorem exists_shown_constant {value : Literal} (h : value.Written) (hPlain : ¬ value.Disguised) :
    ∃ kind gs, Shown k .term term 1 (Opening kind) (.literal value) gs ∧
      isConstantStart kind = true := by
  cases value with
  | integer value =>
    obtain ⟨v, hv, hValue⟩ := exists_unsigned h
    obtain ⟨kind, gs, hShown, hSigned⟩ := exists_shown_integer (k := k) hv hValue
    exact ⟨kind, gs, hShown, isConstantStart_of_isSigned hSigned⟩
  | float value =>
    cases value with
    | finite negative s e =>
      have hDigits := shown_digits (k := k) h hPlain
      cases negative with
      | false => exact ⟨_, _, shown_unsigned hDigits (by simp), rfl⟩
      | true => exact ⟨_, _, shown_minus hDigits (by simp) (by simp) rfl rfl, rfl⟩
    | infinite => exact (hPlain trivial).elim
    | notANumber => exact h.elim
  | string value =>
    have hString : Shown k .term unsignedTerm 1 (Opening (.string value)) (.literal (.string value))
        [.string value] :=
      shown_literal rfl rfl trivial rfl (by simp) fun t ht => by rw [literalOf?, ht]
    exact ⟨_, _, shown_unsigned hString (by simp), rfl⟩
  | boolean value =>
    cases value with
    | false => exact ⟨_, _, shown_word rfl rfl (by simp) fun t ht => by rw [literalOf?, ht], rfl⟩
    | true => exact ⟨_, _, shown_word rfl rfl (by simp) fun t ht => by rw [literalOf?, ht], rfl⟩
  | null => exact ⟨_, _, shown_word rfl rfl (by simp) fun t ht => by rw [literalOf?, ht], rfl⟩

end Grammar

open Grammar

/-- A constant that is not disguised is read again from its own text. -/
theorem readLiteral?_of_not {value : Literal} (h : value.Written) (hPlain : ¬ value.Disguised) :
    readLiteral? value.sql = some value := by
  obtain ⟨kind, gs, hShown, hStart⟩ := exists_shown_constant (k := 2) h hPlain
  have hShownQuery := shown_ofExpr hShown hStart default
  have hText :
    Script.chars (.keyword .SELECT :: .blank :: gs) = ("SELECT " ++ value.sql).toList := by
    have hRow : value.row = gs := hShown.row
    simp [← hRow, Literal.chars_row, Glyph.chars, Keyword.text]
  have hReads : Reads 1 statementOfKind (.keyword .SELECT :: .blank :: gs) [] 19 fun x =>
      ∃ q, x = .select q ∧ Like .spans (.ofExpr (Term.literal value).toExpr default) q :=
    Reads.select_statement hShownQuery fun ks hks => by rw [hks]; rfl
  obtain ⟨_, ⟨q, rfl, hLike⟩, hParse⟩ :=
    parse_row hText hShownQuery.legal (by simp [Glyph.kinds]) hReads (.refl _)
  have hColumn : Placeless [ResultColumn.expr (Term.literal value).toExpr none] :=
    .list (by simpa using (Placeless.literal value).toExpr.result)
  have hClauses : Placeless (α := Clauses)
      (((([.expr (Term.literal value).toExpr none], none), none), []), none) :=
    (((hColumn.pair .none).pair .none).pair (.list (by simp))).pair .none
  rw [readLiteral?, hParse, Clauses.eq_query hClauses hLike]
  rfl

/-- The integer with some digits, and a minus in front of them or none. -/
theorem exists_integer {n : Nat} (hn : n ≤ Numeral.maxInteger) (negative : Bool)
    (hSign : negative = true → 0 < n) : ∃ v, (Literal.integer v).Written ∧
      (Literal.integer v).sql.toList =
        (if negative = true then ['-'] else []) ++ Nat.toDigits 10 n := by
  have hValue := toInt_ofNat hn
  have hDigits : (toString n).toList = Nat.toDigits 10 n := by
    rw [Nat.toString_eq_ofList_toDigits, String.toList_ofList]
  have hBound : n ≤ 2 ^ 63 - 1 := hn
  cases negative with
  | false =>
    refine ⟨.ofNat n, ?_, ?_⟩
    · rw [Literal.Written, hValue]
      omega
    · rw [Literal.sql, hValue]
      exact hDigits
  | true =>
    have hNegative : (-Int64.ofNat n).toInt = -(n : Int) := by
      rw [toInt_neg_of_le (by omega), hValue]
    refine ⟨-.ofNat n, ?_, ?_⟩
    · rw [Literal.Written, hNegative]
      omega
    · rw [Literal.sql, hNegative, toString_neg (hSign rfl), String.toList_append, hDigits]
      rfl

/-- A number that is disguised has the text of an integer, or it is a negative zero, or it has no
digits. -/
theorem sql_of_disguised {value : Binary64} (hNormal : value.IsNormal) (h : value.Disguised) :
    (∃ n, (Literal.integer n).Written ∧ (Literal.integer n).sql = (Literal.float value).sql) ∨
      (Literal.float value).sql ∈ ["-0", "inf", "-inf"] := by
  cases value with
  | finite negative s e =>
    obtain ⟨n, hn, hNumeral⟩ := Binary64.numeral_of_disguised hNormal h
    have hText : (Literal.float (.finite negative s e)).sql.toList =
        (if negative = true then ['-'] else []) ++ Nat.toDigits 10 n := by
      rw [← Literal.chars_row, Literal.row, Binary64.row, hNumeral]
      cases negative <;> simp [Glyph.chars, Numeral.chars, Numeral.fractionChars, Symbol.written,
        Symbol.text]
    by_cases hZero : negative = true ∧ n = 0
    · obtain ⟨rfl, rfl⟩ := hZero
      have hMinus : (Literal.float (.finite true s e)).sql = "-0" := String.toList_inj.mp hText
      simp [hMinus]
    · obtain ⟨v, hWritten, hInteger⟩ := exists_integer hn negative fun hNegative =>
        Nat.pos_of_ne_zero fun h0 => hZero ⟨hNegative, h0⟩
      exact .inl ⟨v, hWritten, String.toList_inj.mp (hInteger.trans hText.symm)⟩
  | infinite negative => cases negative <;> exact .inr (by simp [Literal.sql, Binary64.text])
  | notANumber => exact hNormal.elim

/-- No text of these is read as a binary number. -/
theorem readLiteral?_ne_float {text : String} (h : text ∈ ["-0", "inf", "-inf"]) (x : Binary64) :
    readLiteral? text ≠ some (.float x) := by
  have hRead : ["-0", "inf", "-inf"].map readLiteral? = [some (.integer 0), none, none] := by
    decide +kernel
  obtain ⟨hZero, hRest⟩ := List.cons.inj hRead
  obtain ⟨hInfinite, hRest⟩ := List.cons.inj hRest
  obtain ⟨hNegative, -⟩ := List.cons.inj hRest
  rintro hFloat
  simp only [List.mem_cons, List.not_mem_nil, or_false] at h
  rcases h with rfl | rfl | rfl
  · cases hZero.symm.trans hFloat
  · cases hInfinite.symm.trans hFloat
  · cases hNegative.symm.trans hFloat

/-- **A constant is read again exactly if it is not disguised.** -/
theorem readLiteral?_iff {value : Literal} (h : value.Written) :
    readLiteral? value.sql = some value ↔ ¬ value.Disguised := by
  refine ⟨fun hRead hDisguised => ?_, readLiteral?_of_not h⟩
  cases value with
  | float value =>
    rcases sql_of_disguised h hDisguised with ⟨n, hWritten, hText⟩ | hText
    · rw [← hText, readLiteral?_of_not hWritten id] at hRead
      cases hRead
    · exact readLiteral?_ne_float hText value hRead
  | integer | string | boolean | null => exact hDisguised

end SqlKit
