import SqlKit.Proofs.Rendering.Glyph
import SqlKit.Syntax.Render
import Mathlib.Data.List.Basic

/-!
# The glyphs of a tree

`Expr.row`, `Select.row` and their like lay a tree out as a row of glyphs, in the order in which its
text has them. The text of the row is the text of the tree (`Expr.chars_row`, `Select.chars_row`).
A name that was put together from several words, as types have them, is taken apart again.
-/

namespace SqlKit

theorem toList_intercalate_cons (separator x : String) (xs : List String) :
    (separator.intercalate (x :: xs)).toList =
      x.toList ++ xs.flatMap fun y => separator.toList ++ y.toList := by
  rw [String.toList_intercalate]
  induction xs generalizing x with
  | nil => simp
  | cons y ys ih =>
    rw [List.map_cons, List.map_cons, List.intercalate_cons_cons, ← List.map_cons, ih,
      List.flatMap_cons]
    simp

/-! ## Lists and names -/

/-- Names with points in front of them. -/
def dotted (names : List String) : Script :=
  names.flatMap fun n => [.symbol .dot, .name n]

/-- Rows with a comma and a blank between them. -/
def commaRow : List Script → Script
  | [] => []
  | row :: rows => row ++ rows.flatMap ([.symbol .comma, .blank] ++ ·)

/-- The words of a name between which a character stands. -/
def wordsOf (separator : Char) (name : String) : List String :=
  (name.toList.splitOn separator).map String.ofList

/-- Words with a glyph between them. -/
def wordRow (between : Glyph) : List String → Script
  | [] => []
  | word :: words => .name word :: words.flatMap fun w => [between, .name w]

/-- The name of a type, which may have two words. -/
def typeNameRow (name : String) : Script := wordRow .blank (wordsOf ' ' name)

/-- The name of the type of a parameter, which may have several parts. -/
def dottedRow (name : String) : Script := wordRow (.symbol .dot) (wordsOf '.' name)

@[simp] theorem dotted_nil : dotted [] = [] := rfl

@[simp] theorem dotted_cons (n : String) (names : List String) :
    dotted (n :: names) = .symbol .dot :: .name n :: dotted names := rfl

theorem chars_dotted (names : List String) :
    Script.chars (dotted names) = names.flatMap fun m => '.' :: m.toList := by
  induction names with
  | nil => rfl
  | cons m names ih =>
    simp only [dotted_cons, Script.chars_cons, ih, List.flatMap_cons]
    simp [Glyph.chars, Symbol.written, Symbol.text]

theorem chars_wordRow {separator : Char} {between : Glyph} (h : between.chars = [separator])
    (name : String) : Script.chars (wordRow between (wordsOf separator name)) = name.toList := by
  have hRow : ∀ ls : List (List Char), Script.chars (wordRow between (ls.map String.ofList)) =
      [separator].intercalate ls := by
    intro ls
    induction ls with
    | nil => rfl
    | cons l ls ih =>
      cases ls with
      | nil => simp [wordRow, Glyph.chars]
      | cons m ls =>
        have hWord : (Glyph.name (String.ofList m)).chars = m := String.toList_ofList
        have hFirst : (Glyph.name (String.ofList l)).chars = l := String.toList_ofList
        rw [List.intercalate_cons_cons, ← ih]
        simp [wordRow, h, hWord, hFirst]
  rw [wordsOf, hRow, List.intercalate_splitOn]

/-- Words in which a character does not occur are found again between it. -/
theorem wordsOf_intercalate {c : Char} {first : String} {rest : List String}
    (h : ∀ word ∈ first :: rest, c ∉ word.toList) :
    wordsOf c ((String.singleton c).intercalate (first :: rest)) =
      first :: rest := by
  have hWords : ∀ l ∈ (first :: rest).map String.toList, c ∉ l := by
    intro l hl
    obtain ⟨word, hWord, rfl⟩ := List.mem_map.mp hl
    exact h word hWord
  rw [wordsOf, String.toList_intercalate, String.toList_singleton,
    List.splitOn_intercalate c hWords (List.cons_ne_nil _ _), List.map_map]
  simp [Function.comp_def]

/-- Rows with commas between them are written as their texts with commas. -/
theorem chars_commaRow {texts : List String} {rows : List Script}
    (h : rows.map Script.chars = texts.map String.toList) :
    Script.chars (commaRow rows) = (commaSeparated texts).toList := by
  cases texts with
  | nil =>
    obtain rfl := List.map_eq_nil_iff.mp h
    rfl
  | cons text texts =>
    cases rows with
    | nil => cases h
    | cons row rows =>
      obtain ⟨hFirst, hRest⟩ := List.cons.inj h
      have hTail : Script.chars (rows.flatMap ([.symbol .comma, .blank] ++ ·)) =
          (rows.map Script.chars).flatMap ([',', ' '] ++ ·) := by
        simp [Script.chars, List.flatMap_assoc, List.flatMap_map, Glyph.chars, Symbol.written,
          Symbol.text]
      rw [commaSeparated, toList_intercalate_cons, commaRow, Script.chars_append, hFirst, hTail,
        hRest, List.flatMap_map]
      rfl

theorem chars_names (names : List String) :
    Script.chars (commaRow (names.map fun n => [.name n])) = (commaSeparated names).toList := by
  refine chars_commaRow ?_
  simp [Function.comp_def, Glyph.chars]

/-! ## Leaves -/

def QualifiedName.row (q : QualifiedName) : Script :=
  match q.schema with
  | some schema => [.name schema, .symbol .dot, .name q.name]
  | none => [.name q.name]

def Path.row (p : Path) : Script := .name p.first :: dotted p.rest

/-- The length and the scale of a type. A scale is written only after a length. -/
def ColumnType.argumentsRow (t : ColumnType) : Script :=
  match t.length, t.scale with
  | some length, some scale => [.symbol .leftParen, .integer length, .symbol .comma, .blank,
      .integer scale, .symbol .rightParen]
  | some length, none => [.symbol .leftParen, .integer length, .symbol .rightParen]
  | none, _ => []

def ColumnType.row (t : ColumnType) : Script := typeNameRow t.name ++ t.argumentsRow

/-- The glyphs of a number that may be negative. -/
def integerRow (value : Int) : Script :=
  if value < 0 then [.symbol .minus, .integer value.natAbs] else [.integer value.natAbs]

/-- A decimal fraction in positional notation. -/
def Decimal.numeral (d : Decimal) : Numeral :=
  let places := (-d.exponent).toNat
  if places = 0 then ⟨Nat.toDigits 10 (d.digits * Nat.pow 10 d.exponent.toNat), none, none⟩
  else
    let fraction := Nat.toDigits 10 (d.digits % Nat.pow 10 places)
    ⟨Nat.toDigits 10 (d.digits / Nat.pow 10 places),
      some (List.replicate (places - fraction.length) '0' ++ fraction), none⟩

/-- The digits of a finite binary number. -/
def Binary64.numeral (significand scale : Nat) : Numeral :=
  if significand = 0 then ⟨Nat.toDigits 10 0, none, none⟩ else (shortest significand scale).numeral

/-- The glyphs of a binary number. What is not finite is written as a word. -/
def Binary64.row : Binary64 → Script
  | .finite negative significand scale =>
    (if negative then [.symbol .minus] else []) ++ [.numeral (numeral significand scale)]
  | .infinite negative => if negative then [.symbol .minus, .name "inf"] else [.name "inf"]
  | .notANumber => [.name "NaN"]

def Literal.row : Literal → Script
  | .integer value => integerRow value.toInt
  | .float value => value.row
  | .string value => [.string value]
  | .boolean true => [.keyword .TRUE]
  | .boolean false => [.keyword .FALSE]
  | .null => [.keyword .NULL]

def NamedParameter.row (p : NamedParameter) : Script :=
  if p.declared then .symbol .atSign :: .name p.name :: .symbol .colon :: dottedRow p.typeName
  else [.symbol .atSign, .name p.name]

def Placeholder.row (p : Placeholder) : Script := [.mark p.number]

def MulOp.symbol : MulOp → Symbol
  | .times => .star
  | .over => .slash
  | .modulo => .percent

def AddOp.symbol : AddOp → Symbol
  | .plus => .plus
  | .minus => .minus

def CompareOp.symbol : CompareOp → Symbol
  | .equal => .equal
  | .notEqual => .notEqual
  | .less => .less
  | .lessEqual => .lessEqual
  | .greater => .greater
  | .greaterEqual => .greaterEqual

/-- The symbol of a sign. -/
def signSymbol (negative : Bool) : Symbol := if negative then .minus else .plus

def Direction.word : Direction → Keyword
  | .ascending => .ASC
  | .descending => .DESC

def NullPlacement.row : NullPlacement → Script
  | .first => [.keyword .NULLS, .blank, .keyword .FIRST]
  | .last => [.keyword .NULLS, .blank, .keyword .LAST]

def SetOperator.row : SetOperator → Script
  | .union => [.keyword .UNION]
  | .unionAll => [.keyword .UNION, .blank, .keyword .ALL]
  | .intersect => [.keyword .INTERSECT]
  | .except => [.keyword .EXCEPT]

/-- A word that is there or not, with a blank behind it. -/
def optionalWord (present : Bool) (word : Keyword) : Script :=
  if present then [.keyword word, .blank] else []

def JoinKind.row : JoinKind → Script
  | .comma | .plain => []
  | .inner => [.keyword .INNER, .blank]
  | .left => [.keyword .LEFT, .blank]
  | .right => [.keyword .RIGHT, .blank]
  | .full => [.keyword .FULL, .blank]
  | .cross => [.keyword .CROSS, .blank]

/-- A join operator with a blank in front of it, unless it is a comma. -/
def JoinOperator.row (o : JoinOperator) : Script :=
  if o.kind = .comma then [.symbol .comma]
  else .blank :: (optionalWord o.natural .NATURAL ++
    (o.kind.row ++ (optionalWord o.outer .OUTER ++ [.keyword .JOIN])))

/-- Another name behind `AS`. -/
def asNameRow : Option String → Script
  | some name => [.blank, .keyword .AS, .blank, .name name]
  | none => []

theorem QualifiedName.chars_row (q : QualifiedName) : Script.chars q.row = q.sql.toList := by
  obtain ⟨schema, name⟩ := q
  cases schema <;> simp [row, sql, Glyph.chars, Symbol.written, Symbol.text]

theorem Path.chars_row (p : Path) : Script.chars p.row = p.sql.toList := by
  rw [sql, parts, toList_intercalate_cons, row, Script.chars_cons, chars_dotted]
  rfl

theorem ColumnType.chars_row (t : ColumnType) : Script.chars t.row = t.sql.toList := by
  obtain ⟨name, length, scale⟩ := t
  have hName : Script.chars (typeNameRow name) = name.toList := chars_wordRow rfl name
  cases length <;> cases scale <;>
    simp [row, argumentsRow, sql, hName, Glyph.chars, Symbol.written, Symbol.text]

theorem chars_integerRow (value : Int) :
    Script.chars (integerRow value) = (toString value).toList := by
  cases value with
  | ofNat n =>
    have hPositive : ¬ (n : Int) < 0 := by omega
    simp [integerRow, hPositive, Glyph.chars, toString, Int.repr]
  | negSucc n =>
    have hNegative : Int.negSucc n < 0 := Int.negSucc_lt_zero n
    simp [integerRow, hNegative, Glyph.chars, Symbol.written, Symbol.text, toString, Int.repr]

theorem Decimal.chars_numeral (d : Decimal) : d.numeral.chars = d.positional.toList := by
  unfold numeral positional
  dsimp only
  split <;> simp [Numeral.chars, Numeral.fractionChars]

/-- Positional notation is a numeral without an exponent. -/
theorem Decimal.isPositional_numeral (d : Decimal) : d.numeral.IsPositional := by
  unfold numeral
  dsimp only
  split
  · exact isPositional_toDigits _
  · refine ⟨Nat.toDigits_ne_nil, all_isDigit_toDigits _, ?_, rfl⟩
    rintro _ ⟨rfl⟩
    refine ⟨by simp [Nat.toDigits_ne_nil], ?_⟩
    rw [List.all_append, all_isDigit_toDigits, Bool.and_true, List.all_eq_true]
    intro c hc
    rw [List.eq_of_mem_replicate hc]
    rfl

theorem Binary64.isPositional_numeral (significand scale : Nat) :
    (numeral significand scale).IsPositional := by
  unfold numeral
  split
  · exact isPositional_toDigits 0
  · exact Decimal.isPositional_numeral _

theorem Binary64.chars_numeral (significand scale : Nat) : (numeral significand scale).chars =
    (if significand = 0 then "0" else (shortest significand scale).positional).toList := by
  unfold numeral
  split
  · rfl
  · exact Decimal.chars_numeral _

theorem Binary64.chars_row (x : Binary64) : Script.chars x.row = x.text.toList := by
  cases x with
  | finite negative significand scale =>
    have hDigits := chars_numeral significand scale
    cases negative <;> simp [row, text, hDigits, Glyph.chars, Symbol.written, Symbol.text]
  | infinite negative =>
    cases negative <;> simp [row, text, Glyph.chars, Symbol.written, Symbol.text]
  | notANumber => simp [row, text, Glyph.chars]

theorem Literal.chars_row (value : Literal) : Script.chars value.row = value.sql.toList := by
  cases value with
  | integer value => exact chars_integerRow value.toInt
  | float value => exact value.chars_row
  | boolean value => cases value <;> simp [row, sql, Glyph.chars, Keyword.text]
  | _ => simp [row, sql, Glyph.chars, Keyword.text]

theorem NamedParameter.chars_row (p : NamedParameter) : Script.chars p.row = p.sql.toList := by
  have hType : Script.chars (dottedRow p.typeName) = p.typeName.toList := chars_wordRow rfl _
  unfold row sql
  split <;> simp [hType, Glyph.chars, Symbol.written, Symbol.text]

theorem Placeholder.chars_row (p : Placeholder) : Script.chars p.row = p.sql.toList := by
  obtain ⟨number, position⟩ := p
  cases number <;> simp [row, sql, Glyph.chars]

theorem MulOp.chars_symbol (o : MulOp) : o.symbol.written.toList = o.sql.toList := by
  cases o <;> rfl

theorem AddOp.chars_symbol (o : AddOp) : o.symbol.written.toList = o.sql.toList := by
  cases o <;> rfl

theorem CompareOp.chars_symbol (o : CompareOp) : o.symbol.written.toList = o.sql.toList := by
  cases o <;> rfl

theorem JoinOperator.chars_row (o : JoinOperator) :
    Script.chars o.row = (if o.kind = .comma then "" else " ").toList ++ o.sql.toList := by
  obtain ⟨natural, kind, outer⟩ := o
  unfold row sql
  cases kind <;> cases natural <;> cases outer <;>
    simp [optionalWord, JoinKind.row, JoinKind.word, Glyph.chars, Keyword.text, Symbol.written,
      Symbol.text]

theorem chars_asNameRow (name : Option String) :
    Script.chars (asNameRow name) = (renamedSql name).toList := by
  cases name <;> simp [asNameRow, renamedSql, Glyph.chars, Keyword.text]

theorem SetOperator.chars_row (o : SetOperator) : Script.chars o.row = o.sql.toList := by
  cases o <;> simp [row, sql, Glyph.chars, Keyword.text]

theorem NullPlacement.chars_row (p : NullPlacement) : Script.chars p.row = p.sql.toList := by
  cases p <;> simp [row, sql, Glyph.chars, Keyword.text]

theorem Direction.chars_word (d : Direction) : d.word.text.toList = d.sql.toList := by
  cases d <;> rfl

/-! ## Expressions and queries -/

mutual

def Expr.row : Expr → Script
  | .single conjunction => conjunction.row
  | .or left right => left.row ++ ([.blank, .keyword .OR, .blank] ++ right.row)

def Conjunction.row : Conjunction → Script
  | .single condition => condition.row
  | .and left right => left.row ++ ([.blank, .keyword .AND, .blank] ++ right.row)

def Condition.row : Condition → Script
  | .operand operand => operand.row
  | .comparison left operator right =>
    left.row ++ ([.blank, .symbol operator.symbol, .blank] ++ right.row)
  | .isNull left negated =>
    left.row ++ ([.blank, .keyword .IS, .blank] ++ (optionalWord negated .NOT ++ [.keyword .NULL]))
  | .same left negated right =>
    left.row ++ ([.blank, .keyword .IS, .blank] ++ (optionalWord negated .NOT ++ right.row))
  | .between left negated low high =>
    left.row ++ (.blank :: (optionalWord negated .NOT ++ ([.keyword .BETWEEN, .blank] ++
      (low.row ++ ([.blank, .keyword .AND, .blank] ++ high.row)))))
  | .oneOf left negated values =>
    left.row ++ (.blank :: (optionalWord negated .NOT ++ ([.keyword .IN, .blank, .symbol .leftParen]
      ++ (commaRow (Expr.rowAll values) ++ [.symbol .rightParen]))))
  | .oneOfQuery left negated query =>
    left.row ++ (.blank :: (optionalWord negated .NOT ++ ([.keyword .IN, .blank, .symbol .leftParen]
      ++ (query.row ++ [.symbol .rightParen]))))
  | .like left negated pattern =>
    left.row ++ (.blank :: (optionalWord negated .NOT ++ ([.keyword .LIKE, .blank] ++ pattern.row)))
  | .likeEscape left negated pattern escape =>
    left.row ++ (.blank :: (optionalWord negated .NOT ++ ([.keyword .LIKE, .blank] ++
      (pattern.row ++ ([.blank, .keyword .ESCAPE, .blank] ++ escape.row)))))
  | .regexp left negated pattern =>
    left.row ++ (.blank :: (optionalWord negated .NOT ++ ([.keyword .REGEXP, .blank] ++
      pattern.row)))
  | .existence query =>
    [.keyword .EXISTS, .blank, .symbol .leftParen] ++ (query.row ++ [.symbol .rightParen])
  | .negation inner => [.keyword .NOT, .blank] ++ inner.row

def Operand.row : Operand → Script
  | .single sum => sum.row
  | .concat left right => left.row ++ ([.blank, .symbol .concat, .blank] ++ right.row)

def Sum.row : Sum → Script
  | .single product => product.row
  | .add left operator right => left.row ++ ([.blank, .symbol operator.symbol, .blank] ++ right.row)

def Product.row : Product → Script
  | .single term => term.row
  | .mul left operator right => left.row ++ ([.blank, .symbol operator.symbol, .blank] ++ right.row)

def Term.row : Term → Script
  | .path path => path.row
  | .literal value => value.row
  | .parameter parameter => parameter.row
  | .placeholder placeholder => placeholder.row
  | .paren inner => .symbol .leftParen :: (inner.row ++ [.symbol .rightParen])
  | .subquery query => .symbol .leftParen :: (query.row ++ [.symbol .rightParen])
  | .case operand branches otherwise =>
    .keyword .CASE :: (Expr.rowAfter [.blank] operand ++ (Branch.rowAll branches ++
      (Expr.rowAfter [.blank, .keyword .ELSE, .blank] otherwise ++ [.blank, .keyword .END])))
  | .cast inner target => [.keyword .CAST, .symbol .leftParen] ++ (inner.row ++
      ([.blank, .keyword .AS, .blank] ++ (target.row ++ [.symbol .rightParen])))
  | .call function distinct arguments =>
    [.name function, .symbol .leftParen] ++ (optionalWord distinct .DISTINCT ++
      (commaRow (Expr.rowAll arguments) ++ [.symbol .rightParen]))
  | .callStar function =>
    [.name function, .symbol .leftParen, .symbol .star, .symbol .rightParen]
  | .signed negative inner => .symbol (signSymbol negative) :: inner.row

/-- The rows of several expressions. -/
def Expr.rowAll : List Expr → List Script
  | [] => []
  | e :: es => e.row :: Expr.rowAll es

/-- An optional expression after the glyphs that announce it. -/
def Expr.rowAfter (before : Script) : Option Expr → Script
  | none => []
  | some e => before ++ e.row

/-- The branches of a `CASE`. -/
def Branch.rowAll : List Branch → Script
  | [] => []
  | ⟨condition, result⟩ :: branches =>
    ([.blank, .keyword .WHEN, .blank] ++ (condition.row ++ ([.blank, .keyword .THEN, .blank] ++
      result.row))) ++ Branch.rowAll branches

def Select.row : Select → Script
  | ⟨recursive, tables, bodies, orderBy, limit, _⟩ =>
    (if tables.isEmpty then []
      else [.keyword .WITH, .blank] ++ (optionalWord recursive .RECURSIVE ++
        (commaRow (CommonTable.rowAll tables) ++ [.blank]))) ++
    (bodies.row ++
      ((if orderBy.isEmpty then []
        else [.blank, .keyword .ORDER, .blank, .keyword .BY, .blank] ++
          commaRow (OrderTerm.rowAll orderBy)) ++
      limit.row))

/-- The tables that a query defines. -/
def CommonTable.rowAll : List CommonTable → List Script
  | [] => []
  | ⟨name, columns, query⟩ :: tables =>
    (.name name :: ((if columns.isEmpty then [] else .symbol .leftParen ::
        (commaRow (columns.map fun c => [.name c]) ++ [.symbol .rightParen])) ++
      ([.blank, .keyword .AS, .blank, .symbol .leftParen] ++
        (query.row ++ [.symbol .rightParen])))) :: CommonTable.rowAll tables

def Bodies.row : Bodies → Script
  | .single body => body.row
  | .compound left operator right =>
    left.row ++ (.blank :: (operator.row ++ (.blank :: right.row)))

def Body.row : Body → Script
  | .select distinct columns source condition groupBy having =>
    [.keyword .SELECT, .blank] ++ (optionalWord distinct .DISTINCT ++
      (commaRow (ResultColumn.rowAll columns) ++
      (JoinClause.rowAfterFrom source ++
      (Expr.rowAfter [.blank, .keyword .WHERE, .blank] condition ++
      ((if groupBy.isEmpty then []
        else [.blank, .keyword .GROUP, .blank, .keyword .BY, .blank] ++
          commaRow (Expr.rowAll groupBy)) ++
      Expr.rowAfter [.blank, .keyword .HAVING, .blank] having)))))
  | .values rows => [.keyword .VALUES, .blank] ++ commaRow (Expr.rowRows rows)

/-- Rows of values. -/
def Expr.rowRows : List (List Expr) → List Script
  | [] => []
  | row :: rows =>
    (.symbol .leftParen :: (commaRow (Expr.rowAll row) ++ [.symbol .rightParen])) ::
      Expr.rowRows rows

def ResultColumn.row : ResultColumn → Script
  | .star => [.symbol .star]
  | .tableStar table => [.name table, .symbol .dot, .symbol .star]
  | .expr expr asName => expr.row ++ asNameRow asName

/-- The columns of a result. -/
def ResultColumn.rowAll : List ResultColumn → List Script
  | [] => []
  | column :: columns => column.row :: ResultColumn.rowAll columns

/-- The `FROM` of a body, if it has one. -/
def JoinClause.rowAfterFrom : Option JoinClause → Script
  | none => []
  | some clause => [.blank, .keyword .FROM, .blank] ++ clause.row

def JoinClause.row : JoinClause → Script
  | .single source => source.row
  | .join left operator right constraint =>
    left.row ++ (operator.row ++ (.blank :: (right.row ++ constraint.row)))

def JoinConstraint.row : JoinConstraint → Script
  | .none => []
  | .on condition => [.blank, .keyword .ON, .blank] ++ condition.row
  | .using columns => [.blank, .keyword .USING, .blank, .symbol .leftParen] ++
      (commaRow (columns.map fun c => [.name c]) ++ [.symbol .rightParen])

def Source.row : Source → Script
  | .table name asName => name.row ++ asNameRow asName
  | .subquery query asName =>
    .symbol .leftParen :: (query.row ++ (.symbol .rightParen :: asNameRow asName))
  | .nested clause => .symbol .leftParen :: (clause.row ++ [.symbol .rightParen])

/-- The keys of a sort. -/
def OrderTerm.rowAll : List OrderTerm → List Script
  | [] => []
  | ⟨key, direction, nulls⟩ :: terms =>
    (key.row ++ ([.blank, .keyword direction.word] ++
      ((nulls.map fun n => .blank :: n.row).getD []))) :: OrderTerm.rowAll terms

def Limit.row : Limit → Script
  | .none => []
  | .first count => [.blank, .keyword .LIMIT, .blank] ++ count.row
  | .window count offset => [.blank, .keyword .LIMIT, .blank] ++
      (count.row ++ ([.blank, .keyword .OFFSET, .blank] ++ offset.row))

end

/-! ## The text of a tree -/

mutual

theorem Expr.chars_row : ∀ e : Expr, Script.chars e.row = e.sql.toList
  | .single conjunction => by simp [Expr.row, Expr.sql, conjunction.chars_row]
  | .or left right => by
    simp [Expr.row, Expr.sql, left.chars_row, right.chars_row, Glyph.chars, Keyword.text]

theorem Conjunction.chars_row : ∀ c : Conjunction, Script.chars c.row = c.sql.toList
  | .single condition => by simp [Conjunction.row, Conjunction.sql, condition.chars_row]
  | .and left right => by
    simp [Conjunction.row, Conjunction.sql, left.chars_row, right.chars_row, Glyph.chars,
      Keyword.text]

theorem Condition.chars_row : ∀ c : Condition, Script.chars c.row = c.sql.toList
  | .operand operand => by simp [Condition.row, Condition.sql, operand.chars_row]
  | .comparison left operator right => by
    simp [Condition.row, Condition.sql, left.chars_row, right.chars_row, Glyph.chars,
      operator.chars_symbol]
  | .isNull left negated => by
    cases negated <;> simp [Condition.row, Condition.sql, left.chars_row, Glyph.chars,
      optionalWord, Keyword.text]
  | .same left negated right => by
    cases negated <;> simp [Condition.row, Condition.sql, left.chars_row, right.chars_row,
      Glyph.chars, optionalWord, Keyword.text]
  | .between left negated low high => by
    cases negated <;> simp [Condition.row, Condition.sql, left.chars_row, low.chars_row,
      high.chars_row, Glyph.chars, optionalWord, negatable, Keyword.text]
  | .oneOf left negated values => by
    have hValues := chars_commaRow (Expr.chars_rowAll values)
    cases negated <;> simp [Condition.row, Condition.sql, left.chars_row, hValues, Glyph.chars,
      optionalWord, negatable, Keyword.text, Symbol.written, Symbol.text]
  | .oneOfQuery left negated query => by
    cases negated <;> simp [Condition.row, Condition.sql, left.chars_row, query.chars_row,
      Glyph.chars, optionalWord, negatable, Keyword.text, Symbol.written, Symbol.text]
  | .like left negated pattern => by
    cases negated <;> simp [Condition.row, Condition.sql, left.chars_row, pattern.chars_row,
      Glyph.chars, optionalWord, negatable, Keyword.text]
  | .likeEscape left negated pattern escape => by
    cases negated <;> simp [Condition.row, Condition.sql, left.chars_row, pattern.chars_row,
      escape.chars_row, Glyph.chars, optionalWord, negatable, Keyword.text]
  | .regexp left negated pattern => by
    cases negated <;> simp [Condition.row, Condition.sql, left.chars_row, pattern.chars_row,
      Glyph.chars, optionalWord, negatable, Keyword.text]
  | .existence query => by
    simp [Condition.row, Condition.sql, query.chars_row, Glyph.chars, Keyword.text, Symbol.written,
      Symbol.text]
  | .negation inner => by
    simp [Condition.row, Condition.sql, inner.chars_row, Glyph.chars, Keyword.text]

theorem Operand.chars_row : ∀ o : Operand, Script.chars o.row = o.sql.toList
  | .single sum => by simp [Operand.row, Operand.sql, sum.chars_row]
  | .concat left right => by
    simp [Operand.row, Operand.sql, left.chars_row, right.chars_row, Glyph.chars, Symbol.written,
      Symbol.text]

theorem Sum.chars_row : ∀ s : Sum, Script.chars s.row = s.sql.toList
  | .single product => by simp [Sum.row, Sum.sql, product.chars_row]
  | .add left operator right => by
    simp [Sum.row, Sum.sql, left.chars_row, right.chars_row, Glyph.chars, operator.chars_symbol]

theorem Product.chars_row : ∀ p : Product, Script.chars p.row = p.sql.toList
  | .single term => by simp [Product.row, Product.sql, term.chars_row]
  | .mul left operator right => by
    simp [Product.row, Product.sql, left.chars_row, right.chars_row, Glyph.chars,
      operator.chars_symbol]

theorem Term.chars_row : ∀ t : Term, Script.chars t.row = t.sql.toList
  | .path path => by simp [Term.row, Term.sql, path.chars_row]
  | .literal value => by simp [Term.row, Term.sql, value.chars_row]
  | .parameter parameter => by simp [Term.row, Term.sql, parameter.chars_row]
  | .placeholder placeholder => by simp [Term.row, Term.sql, placeholder.chars_row]
  | .paren inner => by
    simp [Term.row, Term.sql, inner.chars_row, Glyph.chars, Symbol.written, Symbol.text]
  | .subquery query => by
    simp [Term.row, Term.sql, query.chars_row, Glyph.chars, Symbol.written, Symbol.text]
  | .case operand branches otherwise => by
    have hOperand := Expr.chars_rowAfter (show Script.chars [.blank] = " ".toList from rfl) operand
    have hOtherwise := Expr.chars_rowAfter
      (show Script.chars [.blank, .keyword .ELSE, .blank] = " ELSE ".toList from rfl) otherwise
    simp [Term.row, Term.sql, hOperand, hOtherwise, Branch.chars_rowAll branches, Glyph.chars,
      Keyword.text]
  | .cast inner target => by
    simp [Term.row, Term.sql, inner.chars_row, target.chars_row, Glyph.chars, Keyword.text,
      Symbol.written, Symbol.text]
  | .call function distinct arguments => by
    have hArguments := chars_commaRow (Expr.chars_rowAll arguments)
    cases distinct <;> simp [Term.row, Term.sql, hArguments, Glyph.chars, optionalWord,
      Keyword.text, Symbol.written, Symbol.text]
  | .callStar function => by
    simp [Term.row, Term.sql, Glyph.chars, Symbol.written, Symbol.text]
  | .signed negative inner => by
    cases negative <;> simp [Term.row, Term.sql, inner.chars_row, Glyph.chars, signSymbol,
      Symbol.written, Symbol.text]

theorem Expr.chars_rowAll : ∀ es : List Expr,
    (Expr.rowAll es).map Script.chars = (Expr.sqlAll es).map String.toList
  | [] => rfl
  | e :: es => by simp [Expr.rowAll, Expr.sqlAll, e.chars_row, Expr.chars_rowAll es]

theorem Expr.chars_rowAfter {before : Script} {words : String}
    (h : Script.chars before = words.toList) : ∀ o : Option Expr,
    Script.chars (Expr.rowAfter before o) = (Expr.sqlAfter words o).toList
  | none => rfl
  | some e => by simp [Expr.rowAfter, Expr.sqlAfter, e.chars_row, h]

theorem Branch.chars_rowAll : ∀ bs : List Branch,
    Script.chars (Branch.rowAll bs) = (Branch.sqlAll bs).toList
  | [] => rfl
  | ⟨condition, result⟩ :: branches => by
    simp [Branch.rowAll, Branch.sqlAll, condition.chars_row, result.chars_row,
      Branch.chars_rowAll branches, Glyph.chars, Keyword.text]

theorem Select.chars_row : ∀ q : Select, Script.chars q.row = q.sql.toList
  | ⟨recursive, tables, bodies, orderBy, limit, _⟩ => by
    have hTables := chars_commaRow (CommonTable.chars_rowAll tables)
    have hOrder := chars_commaRow (OrderTerm.chars_rowAll orderBy)
    cases recursive <;> cases tables <;> cases orderBy <;>
      simp [Select.row, Select.sql, hTables, hOrder, bodies.chars_row, limit.chars_row,
        Glyph.chars, optionalWord, Keyword.text]

theorem CommonTable.chars_rowAll : ∀ ts : List CommonTable,
    (CommonTable.rowAll ts).map Script.chars = (CommonTable.sqlAll ts).map String.toList
  | [] => rfl
  | ⟨name, columns, query⟩ :: tables => by
    have hColumns := chars_names columns
    have hRest := CommonTable.chars_rowAll tables
    cases hEmpty : columns.isEmpty <;> simp [CommonTable.rowAll, CommonTable.sqlAll, hColumns,
      hRest, hEmpty, query.chars_row, Glyph.chars, Keyword.text, Symbol.written, Symbol.text]

theorem Bodies.chars_row : ∀ b : Bodies, Script.chars b.row = b.sql.toList
  | .single body => by simp [Bodies.row, Bodies.sql, body.chars_row]
  | .compound left operator right => by
    simp [Bodies.row, Bodies.sql, left.chars_row, right.chars_row, operator.chars_row, Glyph.chars]

theorem Body.chars_row : ∀ b : Body, Script.chars b.row = b.sql.toList
  | .select distinct columns source condition groupBy having => by
    have hColumns := chars_commaRow (ResultColumn.chars_rowAll columns)
    have hGroups := chars_commaRow (Expr.chars_rowAll groupBy)
    have hCondition := Expr.chars_rowAfter
      (show Script.chars [.blank, .keyword .WHERE, .blank] = " WHERE ".toList from rfl) condition
    have hHaving := Expr.chars_rowAfter
      (show Script.chars [.blank, .keyword .HAVING, .blank] = " HAVING ".toList from rfl) having
    cases distinct <;> cases groupBy <;>
      simp [Body.row, Body.sql, hColumns, hGroups, hCondition, hHaving,
        JoinClause.chars_rowAfterFrom source, Glyph.chars, optionalWord, Keyword.text]
  | .values rows => by
    have hRows := chars_commaRow (Expr.chars_rowRows rows)
    simp [Body.row, Body.sql, hRows, Glyph.chars, Keyword.text]

theorem Expr.chars_rowRows : ∀ rows : List (List Expr),
    (Expr.rowRows rows).map Script.chars = (Expr.sqlRows rows).map String.toList
  | [] => rfl
  | row :: rows => by
    have hRow := chars_commaRow (Expr.chars_rowAll row)
    simp [Expr.rowRows, Expr.sqlRows, hRow, Expr.chars_rowRows rows, Glyph.chars, Symbol.written,
      Symbol.text]

theorem ResultColumn.chars_row : ∀ c : ResultColumn, Script.chars c.row = c.sql.toList
  | .star => rfl
  | .tableStar table => by
    simp [ResultColumn.row, ResultColumn.sql, Glyph.chars, Symbol.written, Symbol.text]
  | .expr expr asName => by
    simp [ResultColumn.row, ResultColumn.sql, expr.chars_row, chars_asNameRow]

theorem ResultColumn.chars_rowAll : ∀ cs : List ResultColumn,
    (ResultColumn.rowAll cs).map Script.chars = (ResultColumn.sqlAll cs).map String.toList
  | [] => rfl
  | column :: columns => by
    simp [ResultColumn.rowAll, ResultColumn.sqlAll, column.chars_row,
      ResultColumn.chars_rowAll columns]

theorem JoinClause.chars_rowAfterFrom : ∀ o : Option JoinClause,
    Script.chars (JoinClause.rowAfterFrom o) = (JoinClause.sqlAfterFrom o).toList
  | none => rfl
  | some clause => by
    simp [JoinClause.rowAfterFrom, JoinClause.sqlAfterFrom, clause.chars_row, Glyph.chars,
      Keyword.text]

theorem JoinClause.chars_row : ∀ c : JoinClause, Script.chars c.row = c.sql.toList
  | .single source => by simp [JoinClause.row, JoinClause.sql, source.chars_row]
  | .join left operator right constraint => by
    simp [JoinClause.row, JoinClause.sql, left.chars_row, operator.chars_row, right.chars_row,
      constraint.chars_row, Glyph.chars]

theorem JoinConstraint.chars_row : ∀ c : JoinConstraint, Script.chars c.row = c.sql.toList
  | .none => rfl
  | .on condition => by
    simp [JoinConstraint.row, JoinConstraint.sql, condition.chars_row, Glyph.chars, Keyword.text]
  | .using columns => by
    simp [JoinConstraint.row, JoinConstraint.sql, chars_names columns, Glyph.chars, Keyword.text,
      Symbol.written, Symbol.text]

theorem Source.chars_row : ∀ s : Source, Script.chars s.row = s.sql.toList
  | .table name asName => by simp [Source.row, Source.sql, name.chars_row, chars_asNameRow]
  | .subquery query asName => by
    simp [Source.row, Source.sql, query.chars_row, chars_asNameRow, Glyph.chars, Symbol.written,
      Symbol.text]
  | .nested clause => by
    simp [Source.row, Source.sql, clause.chars_row, Glyph.chars, Symbol.written, Symbol.text]

theorem OrderTerm.chars_rowAll : ∀ ts : List OrderTerm,
    (OrderTerm.rowAll ts).map Script.chars = (OrderTerm.sqlAll ts).map String.toList
  | [] => rfl
  | ⟨key, direction, nulls⟩ :: terms => by
    have hRest := OrderTerm.chars_rowAll terms
    cases nulls <;> simp [OrderTerm.rowAll, OrderTerm.sqlAll, key.chars_row, hRest, Glyph.chars,
      direction.chars_word, NullPlacement.chars_row]

theorem Limit.chars_row : ∀ l : Limit, Script.chars l.row = l.sql.toList
  | .none => rfl
  | .first count => by simp [Limit.row, Limit.sql, count.chars_row, Glyph.chars, Keyword.text]
  | .window count offset => by
    simp [Limit.row, Limit.sql, count.chars_row, offset.chars_row, Glyph.chars, Keyword.text]

end

end SqlKit
