import SqlKit.Proofs.Grammar.Placeholders
import SqlKit.Proofs.Rendering.Gaps

/-!
# Placeholders in the text of a query

The text of a query shows its placeholders in the order of its tree (`Select.marks_row`), and a
legal row is read with the question marks that it was written with
(`Script.Legal.placeholderNumbers_tokens`). In the tree the placeholders are counted up from left to
right, unless a limit holds them the other way round (`placeholders_sql`).
-/

namespace SqlKit

open Grammar

/-! ## Question marks of rows -/

/-- The number that touches the question mark of a glyph, if the glyph is one. -/
def Glyph.mark? : Glyph → Option (Option Nat)
  | .mark number => some number
  | .symbol .question => some none
  | _ => none

namespace Glyph

variable (text : String) (word : Keyword) (n : Nat) (number : Option Nat)

@[simp] theorem mark?_blank : Glyph.blank.mark? = none := rfl

@[simp] theorem mark?_name : (Glyph.name text).mark? = none := rfl

@[simp] theorem mark?_keyword : (Glyph.keyword word).mark? = none := rfl

@[simp] theorem mark?_integer : (Glyph.integer n).mark? = none := rfl

@[simp] theorem mark?_mark : (Glyph.mark number).mark? = some number := rfl

@[simp] theorem mark?_symbol {s : Symbol} (h : s ≠ .question) : (Glyph.symbol s).mark? = none := by
  cases s <;> first | rfl | exact absurd rfl h

end Glyph

namespace Script

/-- The question marks of a row, each with the number that touches it. -/
def marks (gs : Script) : List (Option Nat) := gs.filterMap Glyph.mark?

@[simp] theorem marks_nil : marks [] = [] := rfl

@[simp] theorem marks_append (gs hs : Script) : marks (gs ++ hs) = marks gs ++ marks hs :=
  List.filterMap_append

@[simp] theorem marks_cons (g : Glyph) (gs : Script) :
    marks (g :: gs) = g.mark?.toList ++ marks gs := by
  cases h : g.mark? with
  | none => exact List.filterMap_cons_none h
  | some n => exact List.filterMap_cons_some h

@[simp] theorem marks_commaRow (rows : List Script) :
    marks (commaRow rows) = rows.flatMap marks := by
  have hRest : ∀ rows : List Script,
      marks (rows.flatMap ([.symbol .comma, .blank] ++ ·)) = rows.flatMap marks := by
    intro rows
    induction rows with
    | nil => rfl
    | cons row rows ih =>
      rw [List.flatMap_cons, marks_append, ih, List.flatMap_cons]
      rfl
  cases rows with
  | nil => rfl
  | cons row rows => rw [commaRow, marks_append, hRest, List.flatMap_cons]

theorem marks_eq_nil {gs : Script} (h : ∀ g ∈ gs, g.mark? = none) : marks gs = [] :=
  List.filterMap_eq_nil_iff.mpr h

theorem marks_wordRow {between : Glyph} (h : between.mark? = none) (words : List String) :
    marks (wordRow between words) = [] := by
  refine marks_eq_nil fun g hg => ?_
  cases words with
  | nil => cases hg
  | cons word words =>
    rcases List.mem_cons.mp hg with rfl | hg
    · rfl
    · obtain ⟨w, -, hMem⟩ := List.mem_flatMap.mp hg
      rcases List.mem_cons.mp hMem with rfl | hMem
      · exact h
      · rw [List.mem_singleton.mp hMem]
        rfl

@[simp] theorem marks_optionalWord (present : Bool) (word : Keyword) :
    marks (optionalWord present word) = [] := by cases present <;> rfl

end Script

@[simp] theorem CompareOp.mark?_symbol (o : CompareOp) : (Glyph.symbol o.symbol).mark? = none := by
  cases o <;> rfl

@[simp] theorem AddOp.mark?_symbol (o : AddOp) : (Glyph.symbol o.symbol).mark? = none := by
  cases o <;> rfl

@[simp] theorem MulOp.mark?_symbol (o : MulOp) : (Glyph.symbol o.symbol).mark? = none := by
  cases o <;> rfl

@[simp] theorem mark?_sign (negative : Bool) :
    (Glyph.symbol (signSymbol negative)).mark? = none := by cases negative <;> rfl

@[simp] theorem Path.marks_row (p : Path) : Script.marks p.row = [] := by
  refine Script.marks_eq_nil fun g hg => ?_
  rcases List.mem_cons.mp hg with rfl | hg
  · rfl
  · obtain ⟨n, -, hMem⟩ := List.mem_flatMap.mp hg
    simp only [List.mem_cons, List.not_mem_nil, or_false] at hMem
    rcases hMem with rfl | rfl <;> rfl

@[simp] theorem Literal.marks_row (value : Literal) : Script.marks value.row = [] := by
  cases value with
  | integer value =>
    simp only [row, integerRow]
    split <;> rfl
  | float x =>
    cases x with
    | finite negative => cases negative <;> rfl
    | infinite negative => cases negative <;> rfl
    | notANumber => rfl
  | boolean value => cases value <;> rfl
  | _ => rfl

@[simp] theorem NamedParameter.marks_row (p : NamedParameter) : Script.marks p.row = [] := by
  have hType : Script.marks (dottedRow p.typeName) = [] := Script.marks_wordRow rfl _
  unfold row
  split <;> simp [hType]

@[simp] theorem ColumnType.marks_row (t : ColumnType) : Script.marks t.row = [] := by
  obtain ⟨name, length, scale⟩ := t
  have hName : Script.marks (typeNameRow name) = [] := Script.marks_wordRow rfl _
  cases length <;> cases scale <;> simp [row, argumentsRow, hName]

@[simp] theorem QualifiedName.marks_row (q : QualifiedName) : Script.marks q.row = [] := by
  obtain ⟨schema, name⟩ := q
  cases schema <;> rfl

@[simp] theorem JoinOperator.marks_row (o : JoinOperator) : Script.marks o.row = [] := by
  obtain ⟨natural, kind, outer⟩ := o
  cases kind <;> cases natural <;> cases outer <;> rfl

@[simp] theorem SetOperator.marks_row (o : SetOperator) : Script.marks o.row = [] := by
  cases o <;> rfl

@[simp] theorem marks_asNameRow (name : Option String) : Script.marks (asNameRow name) = [] := by
  cases name <;> rfl

@[simp] theorem NullPlacement.marks_row (p : NullPlacement) : Script.marks p.row = [] := by
  cases p <;> rfl

@[simp] theorem marks_names (names : List String) :
    (names.map fun n => [Glyph.name n]).flatMap Script.marks = [] := by
  simp

/-! ## Question marks of trees -/

/-- The numbers of the placeholders among some nodes. -/
def markNumbers (ns : List Node) : List (Option Nat) := (placeholdersOf ns).map (·.number)

@[simp] theorem markNumbers_nil : markNumbers [] = [] := rfl

@[simp] theorem markNumbers_append (ns ms : List Node) :
    markNumbers (ns ++ ms) = markNumbers ns ++ markNumbers ms := by simp [markNumbers]

@[simp] theorem markNumbers_cons (n : Node) (ns : List Node) :
    markNumbers (n :: ns) = (n.placeholder?.map (·.number)).toList ++ markNumbers ns := by
  cases h : n.placeholder? <;> simp [markNumbers, h]

attribute [local simp] Node.placeholder?

mutual

theorem Expr.marks_row : ∀ e : Expr, Script.marks e.row = markNumbers e.nodes
  | .single conjunction => by simp [Expr.row, Expr.nodes, conjunction.marks_row]
  | .or left right => by simp [Expr.row, Expr.nodes, left.marks_row, right.marks_row]

theorem Conjunction.marks_row : ∀ c : Conjunction, Script.marks c.row = markNumbers c.nodes
  | .single condition => by simp [Conjunction.row, Conjunction.nodes, condition.marks_row]
  | .and left right => by
    simp [Conjunction.row, Conjunction.nodes, left.marks_row, right.marks_row]

theorem Condition.marks_row : ∀ c : Condition, Script.marks c.row = markNumbers c.nodes
  | .operand operand => by simp [Condition.row, Condition.nodes, operand.marks_row]
  | .comparison left operator right => by
    simp [Condition.row, Condition.nodes, left.marks_row, right.marks_row]
  | .isNull left negated => by simp [Condition.row, Condition.nodes, left.marks_row]
  | .same left negated right => by
    simp [Condition.row, Condition.nodes, left.marks_row, right.marks_row]
  | .between left negated low high => by
    simp [Condition.row, Condition.nodes, left.marks_row, low.marks_row, high.marks_row]
  | .oneOf left negated values => by
    simp [Condition.row, Condition.nodes, left.marks_row, Expr.marks_rowAll values]
  | .oneOfQuery left negated query => by
    simp [Condition.row, Condition.nodes, left.marks_row, query.marks_row]
  | .like left negated pattern => by
    simp [Condition.row, Condition.nodes, left.marks_row, pattern.marks_row]
  | .likeEscape left negated pattern escape => by
    simp [Condition.row, Condition.nodes, left.marks_row, pattern.marks_row, escape.marks_row]
  | .regexp left negated pattern => by
    simp [Condition.row, Condition.nodes, left.marks_row, pattern.marks_row]
  | .existence query => by simp [Condition.row, Condition.nodes, query.marks_row]
  | .negation inner => by simp [Condition.row, Condition.nodes, inner.marks_row]

theorem Operand.marks_row : ∀ o : Operand, Script.marks o.row = markNumbers o.nodes
  | .single sum => by simp [Operand.row, Operand.nodes, sum.marks_row]
  | .concat left right => by simp [Operand.row, Operand.nodes, left.marks_row, right.marks_row]

theorem Sum.marks_row : ∀ s : Sum, Script.marks s.row = markNumbers s.nodes
  | .single product => by simp [Sum.row, Sum.nodes, product.marks_row]
  | .add left operator right => by
    simp [Sum.row, Sum.nodes, left.marks_row, right.marks_row]

theorem Product.marks_row : ∀ p : Product, Script.marks p.row = markNumbers p.nodes
  | .single term => by simp [Product.row, Product.nodes, term.marks_row]
  | .mul left operator right => by
    simp [Product.row, Product.nodes, left.marks_row, right.marks_row]

theorem Term.marks_row : ∀ t : Term, Script.marks t.row = markNumbers t.nodes
  | .path path => by simp [Term.row, Term.nodes]
  | .literal value => by simp [Term.row, Term.nodes]
  | .parameter parameter => by simp [Term.row, Term.nodes]
  | .placeholder placeholder => by simp [Term.row, Term.nodes, Placeholder.row]
  | .paren inner => by simp [Term.row, Term.nodes, inner.marks_row]
  | .subquery query => by simp [Term.row, Term.nodes, query.marks_row]
  | .case operand branches otherwise => by
    simp [Term.row, Term.nodes, Expr.marks_rowAfter [.blank] operand, Branch.marks_rowAll branches,
      Expr.marks_rowAfter [.blank, .keyword .ELSE, .blank] otherwise]
  | .cast inner target => by simp [Term.row, Term.nodes, inner.marks_row]
  | .call function distinct arguments => by
    simp [Term.row, Term.nodes, Expr.marks_rowAll arguments]
  | .callStar function => by simp [Term.row, Term.nodes]
  | .signed negative inner => by simp [Term.row, Term.nodes, inner.marks_row]

theorem Expr.marks_rowAll : ∀ es : List Expr,
    (Expr.rowAll es).flatMap Script.marks = markNumbers (Expr.nodesAll es)
  | [] => by simp [Expr.rowAll, Expr.nodesAll]
  | e :: es => by simp [Expr.rowAll, Expr.nodesAll, e.marks_row, Expr.marks_rowAll es]

theorem Expr.marks_rowAfter (before : Script) : ∀ o : Option Expr,
    Script.marks (Expr.rowAfter before o) = (if o.isSome then Script.marks before else []) ++
      markNumbers (Expr.nodesOption o)
  | none => by simp [Expr.rowAfter, Expr.nodesOption]
  | some e => by simp [Expr.rowAfter, Expr.nodesOption, e.marks_row]

theorem Branch.marks_rowAll : ∀ bs : List Branch,
    Script.marks (Branch.rowAll bs) = markNumbers (Branch.nodesAll bs)
  | [] => by simp [Branch.rowAll, Branch.nodesAll]
  | ⟨condition, result⟩ :: branches => by
    simp [Branch.rowAll, Branch.nodesAll, condition.marks_row, result.marks_row,
      Branch.marks_rowAll branches]

theorem Select.marks_row : ∀ q : Select, Script.marks q.row = markNumbers q.nodes
  | ⟨recursive, tables, bodies, orderBy, limit, _⟩ => by
    have hTables := CommonTable.marks_rowAll tables
    have hOrder := OrderTerm.marks_rowAll orderBy
    cases tables <;> cases orderBy <;>
      simp_all [Select.row, Select.nodes, bodies.marks_row, limit.marks_row, OrderTerm.nodesAll,
        CommonTable.nodesAll]

theorem CommonTable.marks_rowAll : ∀ ts : List CommonTable,
    (CommonTable.rowAll ts).flatMap Script.marks = markNumbers (CommonTable.nodesAll ts)
  | [] => by simp [CommonTable.rowAll, CommonTable.nodesAll]
  | ⟨name, columns, query⟩ :: tables => by
    cases columns <;>
      simp [CommonTable.rowAll, CommonTable.nodesAll, query.marks_row,
        CommonTable.marks_rowAll tables]

theorem Bodies.marks_row : ∀ b : Bodies, Script.marks b.row = markNumbers b.nodes
  | .single body => by simp [Bodies.row, Bodies.nodes, body.marks_row]
  | .compound left operator right => by
    simp [Bodies.row, Bodies.nodes, left.marks_row, right.marks_row]

theorem Body.marks_row : ∀ b : Body, Script.marks b.row = markNumbers b.nodes
  | .select distinct columns source condition groupBy having => by
    have hGroups := Expr.marks_rowAll groupBy
    cases groupBy <;>
      simp_all [Body.row, Body.nodes, ResultColumn.marks_rowAll columns,
        JoinClause.marks_rowAfterFrom source, Expr.nodesAll,
        Expr.marks_rowAfter [.blank, .keyword .WHERE, .blank] condition,
        Expr.marks_rowAfter [.blank, .keyword .HAVING, .blank] having]
  | .values rows => by simp [Body.row, Body.nodes, Expr.marks_rowRows rows]

theorem Expr.marks_rowRows : ∀ rows : List (List Expr),
    (Expr.rowRows rows).flatMap Script.marks = markNumbers (Expr.nodesRows rows)
  | [] => by simp [Expr.rowRows, Expr.nodesRows]
  | row :: rows => by
    simp [Expr.rowRows, Expr.nodesRows, Expr.marks_rowAll row, Expr.marks_rowRows rows]

theorem ResultColumn.marks_row : ∀ c : ResultColumn, Script.marks c.row = markNumbers c.nodes
  | .star => by simp [ResultColumn.row, ResultColumn.nodes]
  | .tableStar table => by simp [ResultColumn.row, ResultColumn.nodes]
  | .expr expr asName => by simp [ResultColumn.row, ResultColumn.nodes, expr.marks_row]

theorem ResultColumn.marks_rowAll : ∀ cs : List ResultColumn,
    (ResultColumn.rowAll cs).flatMap Script.marks = markNumbers (ResultColumn.nodesAll cs)
  | [] => by simp [ResultColumn.rowAll, ResultColumn.nodesAll]
  | column :: columns => by
    simp [ResultColumn.rowAll, ResultColumn.nodesAll, column.marks_row,
      ResultColumn.marks_rowAll columns]

theorem JoinClause.marks_rowAfterFrom : ∀ o : Option JoinClause,
    Script.marks (JoinClause.rowAfterFrom o) = markNumbers (JoinClause.nodesOption o)
  | none => by simp [JoinClause.rowAfterFrom, JoinClause.nodesOption]
  | some clause => by simp [JoinClause.rowAfterFrom, JoinClause.nodesOption, clause.marks_row]

theorem JoinClause.marks_row : ∀ c : JoinClause, Script.marks c.row = markNumbers c.nodes
  | .single source => by simp [JoinClause.row, JoinClause.nodes, source.marks_row]
  | .join left operator right constraint => by
    simp [JoinClause.row, JoinClause.nodes, left.marks_row, right.marks_row, constraint.marks_row]

theorem JoinConstraint.marks_row : ∀ c : JoinConstraint, Script.marks c.row = markNumbers c.nodes
  | .none => by simp [JoinConstraint.row, JoinConstraint.nodes]
  | .on condition => by simp [JoinConstraint.row, JoinConstraint.nodes, condition.marks_row]
  | .using columns => by simp [JoinConstraint.row, JoinConstraint.nodes]

theorem Source.marks_row : ∀ s : Source, Script.marks s.row = markNumbers s.nodes
  | .table name asName => by simp [Source.row, Source.nodes]
  | .subquery query asName => by simp [Source.row, Source.nodes, query.marks_row]
  | .nested clause => by simp [Source.row, Source.nodes, clause.marks_row]

theorem OrderTerm.marks_rowAll : ∀ ts : List OrderTerm,
    (OrderTerm.rowAll ts).flatMap Script.marks = markNumbers (OrderTerm.nodesAll ts)
  | [] => by simp [OrderTerm.rowAll, OrderTerm.nodesAll]
  | ⟨key, direction, nulls⟩ :: terms => by
    cases nulls <;>
      simp [OrderTerm.rowAll, OrderTerm.nodesAll, key.marks_row, OrderTerm.marks_rowAll terms]

theorem Limit.marks_row : ∀ l : Limit, Script.marks l.row = markNumbers l.nodes
  | .none => by simp [Limit.row, Limit.nodes]
  | .first count => by simp [Limit.row, Limit.nodes, count.marks_row]
  | .window count offset => by
    simp [Limit.row, Limit.nodes, count.marks_row, offset.marks_row]

end

/-! ## Question marks of texts -/

/-- No token starts in front of the place from which it is looked for. -/
theorem Cursor.offset_le_first {c after : Cursor} {t : Token} (h : c.next? = some (t, after)) :
    c.position.offset ≤ t.span.first.offset := by
  have hFirst : t.span.first = c.skipGap.position := Cursor.first_of_token? h
  rw [hFirst, Cursor.skipGap, Cursor.advance, Position.offset_advance]
  exact Nat.le_add_right _ _

namespace Script

theorem numberBehind?_of_ne_integer {mark t : Token} {ts : List Token}
    (h : ∀ m, t.kind ≠ .integer m) : numberBehind? mark (t :: ts) = none := by
  rw [numberBehind?]
  split
  · unfold unsigned?
    split
    · next m hKind => exact absurd hKind (h m)
    · rfl
  · rfl

/-- A question mark in front of a row that is detached is touched by no number. -/
theorem Legal.numberBehind?_tokens {gs : Script} (h : Legal gs) (hOpen : Detached gs)
    (mark : Token) :
    numberBehind? mark (Cursor.mk mark.span.last (chars gs)).tokens = none := by
  cases gs with
  | nil =>
    rw [chars_nil, Cursor.tokens_nil]
    rfl
  | cons g gs =>
    by_cases hBlank : g = .blank
    · rw [hBlank, chars_cons, show Glyph.blank.chars = [' '] from rfl, List.singleton_append,
        tokens_blank]
      cases hNext : (Cursor.mk (mark.span.last.step ' ' (chars gs)) (chars gs)).next? with
      | none =>
        rw [Cursor.tokens_of_none hNext]
        rfl
      | some result =>
        have hBehind := Cursor.offset_le_first hNext
        rw [Position.offset_step] at hBehind
        have hPositive : 0 < ' '.utf8Size := by decide
        rw [Cursor.tokens_of_some hNext, numberBehind?, if_neg (by omega)]
    · obtain ⟨s, rfl⟩ : ∃ s, g = .symbol s := by
        have hg : g.isOpen = true := hOpen g rfl
        unfold Glyph.isOpen at hg
        split at hg
        · exact absurd rfl hBlank
        all_goals first | exact ⟨_, rfl⟩ | cases hg
      obtain ⟨t, rest, hTokens, hKind, -⟩ := (h.spells mark.span.last).of_single rfl
      rw [hTokens]
      exact numberBehind?_of_ne_integer (by simp [hKind])

/-- The glyphs of a question mark, of one that a number touches, and of other tokens. -/
theorem mark?_cases {g : Glyph} (hBlank : g ≠ .blank) :
    (g.mark? = some none ∧ g.kinds = [.symbol .question] ∧ ∀ k, g.meets k = k.isOpen) ∨
      (∃ n, g = .mark (some n)) ∨
      (g.mark? = none ∧ ∃ kind, g.kinds = [kind] ∧ kind ≠ .symbol .question) := by
  cases g with
  | blank => exact absurd rfl hBlank
  | mark number =>
    cases number with
    | none => exact .inl ⟨rfl, rfl, fun k => by simp [Glyph.meets, Glyph.isOpen, Glyph.allows]⟩
    | some n => exact .inr (.inl ⟨n, rfl⟩)
  | symbol s =>
    by_cases hQuestion : s = .question
    · subst hQuestion
      exact .inl ⟨rfl, rfl, fun k => by simp [Glyph.meets, Glyph.isOpen, Glyph.allows]⟩
    · exact .inr (.inr ⟨Glyph.mark?_symbol hQuestion, _, rfl, by simpa using hQuestion⟩)
  | name text =>
    refine .inr (.inr ⟨rfl, _, rfl, ?_⟩)
    unfold wordKind
    split <;> simp
  | numeral n =>
    refine .inr (.inr ⟨rfl, _, rfl, ?_⟩)
    rcases n.kind_cases with ⟨m, -, hNumber⟩ | hNumber <;> simp [hNumber]
  | keyword | integer | string => exact .inr (.inr ⟨rfl, _, rfl, by simp [Glyph.integerKind]⟩)

/-- The question marks of a legal row are read from its text, each with the number that touches
it. -/
theorem Legal.placeholderNumbers_tokens {gs : Script} (h : Legal gs)
    (hNumbers : ∀ n, some n ∈ marks gs → n ≤ maxUnsigned) (p : Position) :
    placeholderNumbers (Cursor.mk p (chars gs)).tokens = marks gs := by
  induction gs generalizing p with
  | nil =>
    rw [chars_nil, Cursor.tokens_nil]
    rfl
  | cons g gs ih =>
    obtain ⟨hFits, hMeets, hLegal⟩ := legal_cons.mp h
    rw [marks_cons] at hNumbers
    have hRead := ih hLegal fun n hn => hNumbers n (List.mem_append_right _ hn)
    rw [chars_cons, marks_cons]
    by_cases hBlank : g = .blank
    · rw [hBlank, show Glyph.blank.chars = [' '] from rfl, List.singleton_append, tokens_blank,
        hRead]
      rfl
    have hClears := clears_chars hLegal.fits hMeets
    obtain ⟨ts, q, hTokens, -, hTouching, hSpells⟩ := exists_tokens hFits hBlank hClears p
    have hGlyph : Spells [g] ts := by
      have hNil := hSpells [] [] .nil
      rwa [List.append_nil] at hNil
    rw [hTokens]
    rcases mark?_cases hBlank
      with ⟨hMark, hKinds, hFollowing⟩ | ⟨n, rfl⟩ | ⟨hMark, kind, hKinds, hKind⟩
    · obtain ⟨t, rest, rfl, hQuestion, -, hRest⟩ := hGlyph.of_single hKinds
      obtain rfl := hRest.eq_nil
      obtain ⟨-, rfl⟩ := hTouching
      have hOpen : Detached gs := fun k hk => (hFollowing k).symm.trans (hMeets k hk)
      rw [List.singleton_append, placeholderNumbers, if_pos hQuestion,
        hLegal.numberBehind?_tokens hOpen, hRead, hMark]
      rfl
    · obtain ⟨t, u, rest, rfl, hQuestion, hNumber, hTouch, hRest⟩ := hGlyph.of_mark
      obtain rfl := hRest.eq_nil
      have hUnsigned : unsigned? u = some n :=
        unsigned?_of_kind (hNumbers n List.mem_cons_self) hNumber
      rw [List.cons_append, List.singleton_append, placeholderNumbers, if_pos hQuestion,
        numberBehind?,
        if_pos hTouch, hUnsigned, placeholderNumbers, if_neg (inert_of_unsigned? hUnsigned).2,
        hRead]
      rfl
    · obtain ⟨t, rest, rfl, hToken, -, hRest⟩ := hGlyph.of_single hKinds
      obtain rfl := hRest.eq_nil
      rw [List.singleton_append, placeholderNumbers, if_neg (hToken.trans_ne hKind), hRead, hMark]
      rfl

end Script

/-! ## Queries -/

theorem le_maxUnsigned_of_mem_placeholderNumbers {ts : List Token} {n : Nat}
    (h : some n ∈ placeholderNumbers ts) : n ≤ maxUnsigned := by
  induction ts with
  | nil => cases h
  | cons t ts ih =>
    rw [placeholderNumbers] at h
    split at h
    · rcases List.mem_cons.mp h with hHead | hTail
      · cases ts with
        | nil => cases hHead
        | cons u ts =>
          rw [numberBehind?] at hHead
          split at hHead
          · exact of_unsigned? hHead.symm
          · cases hHead
      · exact ih hTail
    · exact ih h

/-- The question marks in the text of a query are its placeholders, if no name of it was quoted and
no minus sign of it starts a comment. -/
theorem Select.placeholderNumbers_sql {s : Select} (hSound : Script.Sound s.row)
    (hNodes : NoneDoubled s.nodes)
    (hNumbers : ∀ n, some n ∈ markNumbers s.nodes → n ≤ maxUnsigned) :
    placeholderNumbers (tokensOf s.sql) = markNumbers s.nodes := by
  have hLegal : Script.Legal s.row := hSound.legal_iff.mpr (s.apart_row.mpr hNodes)
  have hMarks := hLegal.placeholderNumbers_tokens (s.marks_row ▸ hNumbers) .start
  rwa [s.chars_row, s.marks_row] at hMarks

/-- A segment that is read without an error holds its question marks as placeholders. -/
theorem Segment.read_placeholders {seg : Segment} {b : Bindings} (hEnd : seg.terminator.kind.IsEnd)
    (hWhole : seg.Whole) (hError : (seg.read b).1.error = none) :
    ∃ ps, Holds (seg.read b).1.statement.nodes ps ∧ Numbered 0 ps ∧
      ps.map (·.number) = placeholderNumbers seg.tokens :=
  after_statement_placeholders (s := seg.start b) (collects_upTo _) hEnd hWhole hError

/-- **The arguments of a query and of its text.** A query that is read without an error holds the
question marks of its statement, with positions that count up from one. Its text shows them in the
order of the tree, if no name of it was quoted and no minus sign of it starts a comment. This is the
order of their positions if and only if the placeholders of no limit count down. -/
theorem placeholders_sql {options : ParseOptions} {text : String} {s : Select}
    (h : .select s ∈ (parse options text).statements) :
    ∃ seg ∈ segments text, (∃ b, (seg.read b).1 = ⟨.select s, none⟩) ∧
      ∃ ps : List Placeholder, (placeholdersOf s.nodes).Perm ps ∧
        ps.map (·.position) = List.range' 1 ps.length ∧
        ps.map (·.number) = placeholderNumbers seg.tokens ∧
        (placeholdersOf s.nodes = ps ↔ InOrder s.nodes) ∧
        (s.UnquotedIn text → NoneDoubled s.nodes →
          placeholderNumbers (tokensOf s.sql) = (placeholdersOf s.nodes).map (·.number)) := by
  obtain ⟨seg, hSegment, b, hStatement, hError⟩ := mem_statements h
  obtain ⟨ps, hHolds, hNumbered, hNumbers⟩ :=
    Segment.read_placeholders (segments_isEnd hSegment) (segments_whole hSegment) hError
  have hNodes : (seg.read b).1.statement.nodes = s.nodes := congrArg Statement.nodes hStatement
  rw [hNodes] at hHolds
  refine ⟨seg, hSegment, ⟨b, ?_⟩, ps, hHolds.perm, hNumbered.positions, hNumbers, hHolds.order, ?_⟩
  · rw [← hStatement, ← hError]
  · intro hNames hMinus
    refine Select.placeholderNumbers_sql (Select.sound_row h hNames) hMinus fun n hn => ?_
    have hMem : some n ∈ placeholderNumbers seg.tokens :=
      hNumbers ▸ (hHolds.perm.map (·.number)).mem_iff.mp hn
    exact le_maxUnsigned_of_mem_placeholderNumbers hMem

/-- A query with placeholders in many places, one of them with a number, and in a limit whose
numbers stand in the order of the tree. -/
def samplePlaceholders : String :=
  "WITH c AS (SELECT ?) SELECT CASE ?2 WHEN 1 THEN @p:INT END FROM c JOIN t ON a = ? LIMIT ? OFFSET ?"

theorem placeholders_sql_samplePlaceholders :
    ∃ s, .select s ∈ (parse .standard samplePlaceholders).statements ∧
      s.UnquotedIn samplePlaceholders ∧ NoneDoubled s.nodes ∧
      ∃ seg ∈ segments samplePlaceholders, (∃ b, (seg.read b).1 = ⟨.select s, none⟩) ∧
        ∃ ps : List Placeholder, (placeholdersOf s.nodes).Perm ps ∧
          ps.map (·.position) = List.range' 1 ps.length ∧
          ps.map (·.number) = placeholderNumbers seg.tokens ∧
          (placeholdersOf s.nodes = ps ↔ InOrder s.nodes) ∧
          placeholderNumbers (tokensOf s.sql) = (placeholdersOf s.nodes).map (·.number) := by
  obtain ⟨s, hs, hNames, hMinus⟩ : ∃ s,
      .select s ∈ (parse .standard samplePlaceholders).statements ∧
        s.UnquotedIn samplePlaceholders ∧ NoneDoubled s.nodes := exists_select (by decide +kernel)
  obtain ⟨seg, hSegment, hRead, ps, hPerm, hPositions, hNumbers, hOrder, hText⟩ :=
    placeholders_sql hs
  exact ⟨s, hs, hNames, hMinus, seg, hSegment, hRead, ps, hPerm, hPositions, hNumbers, hOrder,
    hText hNames hMinus⟩

/-- In a limit with a comma the first placeholder is the number of rows to leave out, which is
written behind the number of rows: the text binds the two arguments the other way round. -/
theorem positions_of_comma_limit :
    ∃ s, .select s ∈ (parse .standard "SELECT a FROM t LIMIT ?, ?").statements ∧
      s.UnquotedIn "SELECT a FROM t LIMIT ?, ?" ∧ NoneDoubled s.nodes ∧
      s.sql = "SELECT a FROM t LIMIT ? OFFSET ?" ∧
      (placeholdersOf s.nodes).map (·.position) = [2, 1] := exists_select (by decide +kernel)

end SqlKit
