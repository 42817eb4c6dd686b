import SqlKit.Proofs.Batch.Shape
import SqlKit.Proofs.Number.Rounding
import SqlKit.Proofs.Rendering.Constants

/-!
# Constants of statements are read again

What numbers tokens can hold (`written_tokensOf`), and so which constants there are in statements.
Each of them is read again from its own text, unless it is disguised (`parse_literals_reread`).
-/

namespace SqlKit

open Grammar

/-- Tokens whose numbers are read from digits: no integer is negative, and binary numbers are in
normal form. -/
structure Token.Written (t : Token) : Prop where
  integer : ∀ value, t.kind = .integer value → 0 ≤ value.toInt
  float : ∀ value, t.kind = .float value → value.IsNormal

/-- The kinds of tokens that are numbers. -/
def TokenKind.isNumber : TokenKind → Bool
  | .integer _ | .float _ => true
  | _ => false

theorem isNumber_of_isPlain {kind : TokenKind} (h : kind.isPlain = true) :
    kind.isNumber = false := by
  cases kind <;> first | rfl | cases h

theorem isNumber_wordKind (word : String) : (wordKind word).isNumber = false := by
  unfold wordKind
  split <;> rfl

theorem written_of_not {t : Token} (h : t.kind.isNumber = false) : t.Written where
  integer _ hKind := by rw [hKind] at h; cases h
  float _ hKind := by rw [hKind] at h; cases h

/-- Digits are rounded to a number in normal form. -/
theorem written_numeral {t : Token} {n : Numeral} (h : t.kind = n.kind) : t.Written where
  integer := (Token.bare_numeral h).integer
  float value hKind := by
    rcases n.kind_cases with ⟨m, -, hCase⟩ | hCase
    · cases (h.trans hCase).symm.trans hKind
    · obtain rfl := TokenKind.float.inj ((h.trans hCase).symm.trans hKind)
      exact Binary64.isNormal_ofDecimal

theorem written_tokensOf {text : String} : ∀ t ∈ tokensOf text, t.Written := by
  intro t ht
  obtain ⟨c, cs, hLexeme⟩ := exists_lexeme _ t ht
  have hKind := hLexeme.kind
  rcases lexeme_cases c cs with ⟨n, hCase⟩ | hCase | ⟨name, hCase⟩ | ⟨-, hCase⟩
  · exact written_numeral (hKind.trans hCase)
  · exact written_of_not (hKind ▸ isNumber_of_isPlain hCase)
  · exact written_of_not (hKind.trans hCase ▸ rfl)
  · rw [hCase] at hKind
    exact written_of_not (hKind ▸ isNumber_wordKind _)

/-- Signs lead from constants that can be written to others. -/
theorem constants_written : Constants Token.Written Literal.Written where
  taken t value ht hValue := by
    have hKind := kind_of_literalOf? hValue
    cases value with
    | integer value =>
      have hNonneg := ht.integer value hKind
      rw [Literal.Written]
      omega
    | float value => exact ht.float value hKind
    | string | boolean | null => trivial
  signed negative value hValue t ht := by
    cases value with
    | integer value =>
      have hLess := value.toInt_lt
      cases negative with
      | false => exact Term.literal.inj ht ▸ hValue
      | true =>
        obtain rfl := Term.literal.inj ht
        rw [Literal.Written, toInt_neg_of_le hValue]
        change -(2 ^ 63 - 1 : Int) ≤ _
        omega
    | float value =>
      cases negative with
      | false => exact Term.literal.inj ht ▸ hValue
      | true => exact Term.literal.inj ht ▸ Binary64.IsNormal.neg hValue
    | string | boolean | null => cases negative <;> cases ht

variable (options : ParseOptions) (text : String)

/-- **A constant of a statement is read again from its own text exactly if it is not disguised**:
only whole numbers below `2 ^ 63` that are no integers and infinite ones are read as something
else. -/
theorem parse_literals_reread : ∀ x ∈ (parse options text).statements, ∀ value ∈ x.literals,
    (readLiteral? value.sql = some value ↔ ¬ value.Disguised) := fun x hx value hValue =>
  readLiteral?_iff (parse_literals constants_written written_tokensOf x hx value hValue)

/-- A constant that stands somewhere in the statements of a text. -/
theorem exists_literal (value : Literal)
    (h : (parse options text).statements.any (fun x => decide (value ∈ x.literals)) = true) :
    ∃ x ∈ (parse options text).statements, value ∈ x.literals := by
  obtain ⟨x, hx, hValue⟩ := List.any_eq_true.mp h
  exact ⟨x, hx, of_decide_eq_true hValue⟩

/-- A fraction with its sign folded in. -/
def sampleFraction : Literal := .float (.finite true (3 * 2 ^ 51) 1022)

theorem parse_literals_reread_sampleFraction :
    ∃ x ∈ (parse .standard "SELECT a - - + 1.50").statements, sampleFraction ∈ x.literals ∧
      ¬ sampleFraction.Disguised ∧ readLiteral? sampleFraction.sql = some sampleFraction := by
  obtain ⟨x, hx, hValue⟩ := exists_literal .standard "SELECT a - - + 1.50" sampleFraction
    (by decide +kernel)
  have hPlain : ¬ sampleFraction.Disguised := by
    rintro ⟨hWhole, -⟩
    exact absurd hWhole (by decide +kernel)
  exact ⟨x, hx, hValue, hPlain, (parse_literals_reread .standard _ x hx _ hValue).mpr hPlain⟩

/-- A number that overflows is written like a name. -/
theorem not_parse_literals_reread_infinite : ¬ ∀ (options : ParseOptions) (text : String),
    ∀ x ∈ (parse options text).statements, ∀ value ∈ x.literals,
      readLiteral? value.sql = some value := by
  intro h
  obtain ⟨x, hx, hValue⟩ := exists_literal .standard "SELECT 1e400" (.float (.infinite false))
    (by decide +kernel)
  exact absurd (h .standard _ x hx _ hValue) (by decide +kernel)

/-- One as a binary number is read as the integer. -/
example : readLiteral? (Literal.float (.finite false (2 ^ 52) 1022)).sql = some (.integer 1) := by
  decide +kernel

end SqlKit
