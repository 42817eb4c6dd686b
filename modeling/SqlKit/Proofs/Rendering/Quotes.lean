import SqlKit.Data.Value
import SqlKit.Proofs.Rendering.Lexing
import SqlKit.Proofs.Token.Boundary
import SqlKit.Syntax.Render

/-!
# No way out of quotes

Text between quotes, each closing quote in it written twice, is one token with exactly this text for
its value, and what follows is cut into the tokens that it has on its own. There is no text with
which a value ends before its closing quote or goes on behind it, so that what comes from outside
can stand between quotes in a statement.

`ReadsAsToken` says this of any part of a text. That the quoted part is a lexeme is shown for each
style (`isLexeme_string`, `QuoteStyle.isLexeme`); `IsLexeme.readsAsToken` takes it from there to the
text, the places of its tokens, and the end of it.
-/

namespace SqlKit

/-- A text with a quote in it written twice wherever it stands. -/
def doubled (quote : Char) (s : String) : String :=
  String.ofList (s.toList.flatMap fun c => if c = quote then [c, c] else [c])

/-- A text between two quotes. -/
def quotedBy (opening closing : Char) (inner : String) : String :=
  String.singleton opening ++ inner ++ String.singleton closing

theorem toList_quotedBy (opening closing : Char) (inner : String) :
    (quotedBy opening closing inner).toList = opening :: (inner.toList ++ [closing]) := by
  simp [quotedBy]

theorem endsPlain_quotedBy (opening : Char) {closing : Char} (hClosing : closing ≠ '\r')
    (inner : String) : EndsPlain (quotedBy opening closing inner).toList := by
  rw [toList_quotedBy, ← List.cons_append, EndsPlain, List.getLast?_concat]
  exact fun hReturn => hClosing (Option.some.inj hReturn)

/-- In front of the text `rest` a part is one token, at the start of the text and over exactly this
part. Behind it are the tokens of `rest`, shifted to where that stands, with the end of it. -/
def ReadsAsToken (part : String) (kind : TokenKind) (rest : String) : Prop :=
  (Lexer.ofString (part ++ rest)).tokenize.1 =
    ⟨kind, ⟨.start, endOf part⟩, part⟩ ::
      (Lexer.ofString rest).tokenize.1.map (Token.shift (endOf part))

/-! ## Places behind a part -/

/-- Places within a part of a text do not depend on what follows, if no line feed behind the part
could belong to a carriage return at its end. -/
theorem Position.advance_append (p : Position) {part : List Char} (hEnds : EndsPlain part)
    (rest : List Char) : p.advance part.length (part ++ rest) = p.advance part.length part := by
  induction part generalizing p with
  | nil => rw [List.length_nil, advance_zero, advance_zero]
  | cons c cs ih =>
    rw [List.length_cons, List.cons_append, advance_succ, advance_succ]
    cases cs with
    | nil =>
      have hc : c ≠ '\r' := fun hReturn => hEnds (by rw [hReturn]; rfl)
      simp [advance_zero, step, hc]
    | cons d cs =>
      have hTail : EndsPlain (d :: cs) := fun hLast => hEnds (by
        rwa [List.getLast?_cons_of_ne_nil (List.cons_ne_nil _ _)])
      have hStep : p.step c (d :: cs ++ rest) = p.step c (d :: cs) := rfl
      rw [hStep, ih _ hTail]

/-- What is one lexeme in front of a text is one token of both together. -/
theorem IsLexeme.readsAsToken {part rest : String} {kind : TokenKind}
    (h : IsLexeme part.toList rest.toList kind) (hEnds : EndsPlain part.toList) :
    ReadsAsToken part kind rest := by
  obtain ⟨t, q, hTokens, hKind, hText, hSpan, hPlace⟩ := h.tokens .start
  have hEnd : q = endOf part := hPlace.trans (Position.advance_append _ hEnds _)
  subst hEnd
  have hToken : t = ⟨kind, ⟨.start, endOf part⟩, part⟩ := by
    rw [String.ofList_toList] at hText
    rw [← hKind, ← hSpan, ← hText]
  have hAll : tokensOf (part ++ rest) =
      ⟨kind, ⟨.start, endOf part⟩, part⟩ :: (tokensOf rest).map (Token.shift (endOf part)) := by
    rw [tokensOf, Cursor.ofString, String.toList_append, hTokens, hToken, tokens_behind]
  have hFinish : endOf (part ++ rest) = (endOf part).shift (endOf rest) := by
    rw [← finish_behind, endOf, ← Cursor.finish_advance _ part.toList.length, Cursor.advance,
      Cursor.ofString, String.toList_append, List.drop_left, Position.advance_append _ hEnds]
    rfl
  rw [ReadsAsToken, Lexer.tokenize_ofString, Lexer.tokenize_ofString, hAll, hFinish,
    List.map_append, List.cons_append]
  rfl

/-- A part with nothing behind it is the only token in front of the end. -/
theorem ReadsAsToken.alone {part : String} {kind : TokenKind} (h : ReadsAsToken part kind "") :
    (Lexer.ofString part).tokenize.1 =
      [⟨kind, ⟨.start, endOf part⟩, part⟩, .endOfInput (endOf part)] := by
  have hNone : tokensOf "" = [] := Cursor.tokens_of_none rfl
  rw [ReadsAsToken, String.append_empty, Lexer.tokenize_ofString "", hNone] at h
  rw [h, List.nil_append, List.map_singleton]
  exact congrArg (fun p => [_, Token.endOfInput p]) (Position.shift_start _)

/-! ## Quotes -/

namespace QuoteStyle

theorem escaped_eq (style : QuoteStyle) (cs : List Char) :
    style.escaped cs = cs.flatMap fun c => if c = style.closing then [c, c] else [c] := by
  induction cs with
  | nil => rfl
  | cons c cs ih =>
    rw [escaped, List.flatMap_cons, ih]
    split <;> rfl

theorem toList_doubled (style : QuoteStyle) (s : String) :
    (doubled style.closing s).toList = style.escaped s.toList := by
  rw [doubled, String.toList_ofList, escaped_eq]

/-- Where no closing quote stands for itself, text without one is read as it is. -/
theorem read_plain {style : QuoteStyle} (hPlain : style.doubles = false) {cs : List Char}
    (hcs : style.closing ∉ cs) (rest : List Char) :
    style.read (cs ++ style.closing :: rest) = some ⟨cs, cs.length + 1⟩ := by
  induction cs with
  | nil => cases rest <;> simp [read, hPlain]
  | cons c cs ih =>
    obtain ⟨hc, hcs⟩ := List.ne_and_not_mem_of_not_mem_cons hcs
    cases hTail : cs ++ style.closing :: rest with
    | nil => simp at hTail
    | cons d ds =>
      rw [List.cons_append, hTail, read, if_neg (Ne.symm hc), ← hTail, ih hcs]
      rfl

/-- A quoted name is one lexeme. -/
theorem isLexeme {style : QuoteStyle} (hStyle : style ∈ names) {inner rest : List Char} {s : String}
    (hRead : style.read (inner ++ style.closing :: rest) = some ⟨s.toList, inner.length + 1⟩) :
    IsLexeme (style.opening :: (inner ++ [style.closing])) rest (.identifier (.ofQuoted s)) := by
  have hOpening : ∀ style ∈ names, Text.isBlank style.opening = false ∧ style.opening ≠ '-' ∧
      style.opening ≠ '/' ∧ style.opening.isDigit = false ∧ style.opening ≠ '.' ∧
      style.opening ≠ single.opening ∧ names.find? (·.opening = style.opening) = some style := by
    decide
  obtain ⟨hBlank, hDash, hSlash, hDigit, hDot, hSingle, hFound⟩ := hOpening style hStyle
  have hNumeral : ∀ cs, Numeral.startsAt (style.opening :: cs) = false := fun cs => by
    simp [Numeral.startsAt, hDigit, hDot]
  refine ⟨_, _, rfl, ?_, ?_⟩
  · exact gapLength_eq_zero hBlank (fun h => absurd h hDash) fun h => absurd h hSlash
  · rw [List.append_assoc, List.singleton_append, lexeme, hNumeral, if_neg (by simp),
      if_neg hSingle, hFound]
    simp only [quotedLexeme, hRead, String.ofList_toList, List.length_append, List.length_singleton]

end QuoteStyle

/-- A quoted name is one token. -/
theorem readsAsToken_name {style : QuoteStyle} (hStyle : style ∈ QuoteStyle.names)
    {inner rest s : String} (hRead : style.read (inner.toList ++ style.closing :: rest.toList) =
      some ⟨s.toList, inner.toList.length + 1⟩) :
    ReadsAsToken (quotedBy style.opening style.closing inner) (.identifier (.ofQuoted s)) rest := by
  have hClosing : ∀ style ∈ QuoteStyle.names, style.closing ≠ '\r' := by decide
  refine IsLexeme.readsAsToken ?_ (endsPlain_quotedBy _ (hClosing style hStyle) inner)
  rw [toList_quotedBy]
  exact style.isLexeme hStyle hRead

/-- A name whose quotes are doubled is one token. -/
theorem readsAsToken_doubled {style : QuoteStyle} (hStyle : style ∈ QuoteStyle.names)
    (hDoubles : style.doubles = true) (s : String) {rest : String}
    (hRest : rest.toList.head? ≠ some style.closing) :
    ReadsAsToken (quotedBy style.opening style.closing (doubled style.closing s))
      (.identifier (.ofQuoted s)) rest := by
  refine readsAsToken_name hStyle ?_
  rw [style.toList_doubled]
  refine QuoteStyle.read_escaped hDoubles _ _ ?_
  rintro _ hd rfl
  exact hRest hd

theorem stringLiteral_eq (s : String) : stringLiteral s = quotedBy '\'' '\'' (doubled '\'' s) := by
  rw [← String.toList_inj, toList_quotedBy, stringLiteral, String.toList_ofList]
  exact congrArg (fun cs => '\'' :: (cs ++ ['\''])) (QuoteStyle.single.toList_doubled s).symm

theorem readsAsToken_stringLiteral (s : String) {rest : String}
    (hRest : rest.toList.head? ≠ some '\'') : ReadsAsToken (stringLiteral s) (.string s) rest := by
  refine IsLexeme.readsAsToken (isLexeme_string ?_) ?_
  · rintro _ hd rfl
    exact hRest hd
  · rw [stringLiteral_eq]
    exact endsPlain_quotedBy _ (by decide) _

/-- **There is no way out of quotes.** A text between single quotes, each quote in it written twice,
is one string token with this text for its value, in front of anything but another such quote. So is
a name between double quotes or back-quotes, and in brackets one that holds no closing bracket. What
stands behind is cut into the tokens that it has on its own. The SQL of a string, as a literal or as
a value, is then a string token and nothing else. -/
theorem quoted_readsAsToken :
    (∀ s rest : String, rest.toList.head? ≠ some '\'' →
      ReadsAsToken (quotedBy '\'' '\'' (doubled '\'' s)) (.string s) rest) ∧
    (∀ quote ∈ ['"', '`'], ∀ s rest : String, rest.toList.head? ≠ some quote →
      ReadsAsToken (quotedBy quote quote (doubled quote s)) (.identifier (.ofQuoted s)) rest) ∧
    (∀ s rest : String, ']' ∉ s.toList →
      ReadsAsToken (quotedBy '[' ']' s) (.identifier (.ofQuoted s)) rest) ∧
    ∀ s : String, ∀ sql ∈ [(Literal.string s).sql, (Value.text s).sql],
      (Lexer.ofString sql).tokenize.1 =
        [⟨.string s, ⟨.start, endOf sql⟩, sql⟩, .endOfInput (endOf sql)] := by
  refine ⟨fun s rest hRest => ?_, fun quote hQuote s rest hRest => ?_, fun s rest hs => ?_,
    fun s sql hsql => ?_⟩
  · rw [← stringLiteral_eq]
    exact readsAsToken_stringLiteral s hRest
  · have hStyle : ⟨quote, quote, true⟩ ∈ QuoteStyle.names := by
      rcases List.mem_cons.mp hQuote with rfl | hQuote
      · decide
      · rw [List.mem_singleton.mp hQuote]
        decide
    exact readsAsToken_doubled hStyle rfl s hRest
  · have hStyle : ⟨'[', ']', false⟩ ∈ QuoteStyle.names := by decide
    exact readsAsToken_name hStyle (QuoteStyle.read_plain rfl hs _)
  · have hLiteral : sql = stringLiteral s := by simpa [Literal.sql, Value.sql] using hsql
    subst hLiteral
    exact (readsAsToken_stringLiteral s (by simp)).alone

/-- Texts that try to close their quotes and to start a comment, and what may stand behind them. -/
theorem quoted_readsAsToken_comment :
    ReadsAsToken "'''; --'" (.string "'; --") "\n'x'" ∧
    ReadsAsToken "\"a\"\"\"" (.identifier (.ofQuoted "a\"")) "'" ∧
    ReadsAsToken "[a/*`\"]" (.identifier (.ofQuoted "a/*`\"")) "]" ∧
    (Lexer.ofString "''''").tokenize.1 =
      [⟨.string "'", ⟨.start, endOf "''''"⟩, "''''"⟩, .endOfInput (endOf "''''")] := by
  obtain ⟨hString, hDoubled, hBrackets, hAlone⟩ := quoted_readsAsToken
  have hQuote : (Value.text "'").sql = "''''" := by rfl
  rw [← hQuote]
  exact ⟨hString "'; --" "\n'x'" (by decide), hDoubled '"' (by decide) "a\"" "'" (by decide),
    hBrackets "a/*`\"" "]" (by decide), hAlone "'" _ (by simp)⟩

end SqlKit
