import SqlKit.Proofs.Batch.Respelling
import SqlKit.Proofs.Token.LetterCase

/-!
# Reading a text in another letter case

Neither the words of the language nor names are told apart by letter case: a text and the same text
in another letter case (`Recased`) are read alike, at the same places, up to the case of names
(`parse_recased`). The proof puts together that the tokens are alike (`respelledTokens_recased`) and
that like tokens are read alike (`parse_respelled`).
-/

namespace SqlKit

open Text

/-- The second text is the first one in another letter case: characters are equal up to the case of
ASCII letters, and those of strings and quoted names are equal. -/
structure Recased (a b : String) : Prop where
  letters : List.Forall₂ SameLetter a.toList b.toList
  quoted : ∀ t ∈ tokensOf a, t.kind.isQuoted = true →
    t.span.slice b.toList = t.span.slice a.toList

theorem respelledTokens_of_forall₂ {ts us : List Token}
    (h : List.Forall₂ (Token.Respelled .letterCase) ts us) :
    RespelledTokens .letterCase ts us := by
  induction h with
  | nil => exact .nil
  | @cons t u ts us hHead hTail ih =>
    refine .cons hHead ?_ ih
    intro c d n hc hd _ _
    have hSpan : t.span = u.span := hHead.span
    have hNext : c.span = d.span := by
      cases hTail with
      | nil => cases hc
      | cons hNext _ =>
        obtain rfl := Option.some.inj hc
        obtain rfl := Option.some.inj hd
        exact hNext.span
    rw [Token.Touches, Token.Touches, hSpan, hNext]

/-- The tokens of a text in another letter case. -/
theorem respelledTokens_recased {a b : String} (h : Recased a b) :
    RespelledTokens .letterCase (tokensOf a) (tokensOf b) := by
  apply respelledTokens_of_forall₂
  refine Cursor.tokens_recased ⟨rfl, h.letters⟩ (Cursor.at_ofString b) ?_
  intro t ht hKind
  rw [h.quoted t ht hKind]
  exact (placed_tokensOf a t ht).slice

/-- Two errors at the same place that say the same up to letter case. -/
structure ParseError.SameButCase (x y : ParseError) : Prop where
  position : x.position = y.position
  kindName : x.kindName = y.kindName
  expected : x.expected? = y.expected?
  found : x.found?.map String.toLower = y.found?.map String.toLower
  message : x.message.toLower = y.message.toLower

theorem ParseError.Respelled.sameButCase {x y : ParseError}
    (h : ParseError.Respelled .letterCase x y) : x.SameButCase y :=
  ⟨congrArg Span.first h.position, h.kindName_eq, h.expected?_eq, h.found? lawful_letterCase,
    h.message lawful_letterCase⟩

/-- **The letter case of a text does not matter.** A text and the same text in another letter case
hold the same statements and the same stand-ins for broken ones, at the same places, up to the case
of names. Types whose names differ in case only are the same type. The errors are the same up to the
case of the words that they quote. -/
theorem parse_recased {a b : String} (h : Recased a b) (options : ParseOptions) :
    Like .letterCase (parse options a).statements (parse options b).statements ∧
      Like .letterCase (parse options a).recovered (parse options b).recovered ∧
      (∀ t u : ColumnType, Like .letterCase t u → t.sqlType = u.sqlType) ∧
      List.Forall₂ ParseError.SameButCase (parse options a).errors (parse options b).errors := by
  have hFinish := Cursor.Recased.finish (c := .ofString a) (d := .ofString b) ⟨rfl, h.letters⟩
  have hEnd : Like .letterCase (Token.endOfInput (endOf a)).span
      (Token.endOfInput (endOf b)).span :=
    congrArg (fun p => (Token.endOfInput p).span) hFinish
  obtain ⟨hStatements, hRecovered, hErrors⟩ :=
    parse_respelled lawful_letterCase (respelledTokens_recased h) hEnd options
  refine ⟨hStatements, hRecovered, ?_, hErrors.imp fun _ _ => ParseError.Respelled.sameButCase⟩
  intro t u hTypes
  have hName : t.name.toLower = u.name.toLower := congrArg ColumnType.name hTypes
  rw [ColumnType.sqlType, ColumnType.sqlType, SqlType.ofName, SqlType.ofName, hName]

/-- Words, names, an exponent and a parameter in capital and in small letters. -/
theorem recased_sample :
    Recased "Select 1e5,@a:int,'aB' From [aB]; Drop x" "SELECT 1E5,@A:INT,'aB' FROM [aB]; DROP X" ∧
      Like .letterCase
        (parse .standard "Select 1e5,@a:int,'aB' From [aB]; Drop x").statements
        (parse .standard "SELECT 1E5,@A:INT,'aB' FROM [aB]; DROP X").statements ∧
      Like .letterCase
        (parse .standard "Select 1e5,@a:int,'aB' From [aB]; Drop x").recovered
        (parse .standard "SELECT 1E5,@A:INT,'aB' FROM [aB]; DROP X").recovered ∧
      (∀ t u : ColumnType, Like .letterCase t u → t.sqlType = u.sqlType) ∧
      List.Forall₂ ParseError.SameButCase
        (parse .standard "Select 1e5,@a:int,'aB' From [aB]; Drop x").errors
        (parse .standard "SELECT 1E5,@A:INT,'aB' FROM [aB]; DROP X").errors := by
  have hRecased :
      Recased "Select 1e5,@a:int,'aB' From [aB]; Drop x"
        "SELECT 1E5,@A:INT,'aB' FROM [aB]; DROP X" := by
    refine ⟨?_, ?_⟩
    · decide +kernel
    · decide +kernel
  exact ⟨hRecased, parse_recased hRecased .standard⟩

end SqlKit
