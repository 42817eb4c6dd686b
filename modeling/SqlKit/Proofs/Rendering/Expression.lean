import SqlKit.Proofs.Rendering.Term

/-!
# Expressions are read back

The layers of an expression from products up to disjunctions. Most of them are chains of operators
(`Faithful.layer`); a condition is an operand with a test behind it.
-/

namespace SqlKit.Grammar

open Parse

variable {n k : Nat} {s : State}

/-! ## Operands -/

def Print.product : Print Product := ⟨Product.row, Product.nodes⟩

def Print.sum : Print Sum := ⟨Sum.row, Sum.nodes⟩

def Print.operand : Print Operand := ⟨Operand.row, Operand.nodes⟩

/-- A part behind an operator, as a layer writes it. -/
def Print.behindOperator {α β : Type} (p : Print α) (symbol : β → Symbol) : Print (β × α) :=
  ⟨fun x => [.blank, .symbol (symbol x.1), .blank] ++ p.row x.2, fun x => p.nodes x.2⟩

theorem mulOp?_of_kind {t : Token} {o : MulOp} (h : t.kind = .symbol o.symbol) :
    mulOp? t = some o := by
  unfold mulOp?
  rw [h]
  cases o <;> rfl

theorem mulOp?_none (t : Token) (h : 2 ≤ closes t.kind) : mulOp? t = none := by
  unfold mulOp?
  split
  all_goals first | rfl | next hKind => exact absurd h (by rw [hKind]; decide)

theorem addOp?_of_kind {t : Token} {o : AddOp} (h : t.kind = .symbol o.symbol) :
    addOp? t = some o := by
  unfold addOp?
  rw [h]
  cases o <;> rfl

theorem addOp?_none (t : Token) (h : 3 ≤ closes t.kind) : addOp? t = none := by
  unfold addOp?
  split
  all_goals first | rfl | next hKind => exact absurd h (by rw [hKind]; decide)

/-- The multiplicative operators. -/
def mulOperators : Operators mulOp? Print.term (Print.term.behindOperator MulOp.symbol) 1 [.blank]
    Prod.mk where
  glyph o := .symbol o.symbol
  kind o := .symbol o.symbol
  kinds _ := rfl
  fits o := by cases o <;> simp [MulOp.symbol]
  accepts _ _ := mulOp?_of_kind
  ends o := by cases o <;> decide
  layout := Or.inl rfl
  row _ _ := rfl
  nodes _ _ := rfl
  like o _ _ := congrArg (Prod.mk o)

/-- The additive operators. -/
def addOperators : Operators addOp? Print.product (Print.product.behindOperator AddOp.symbol) 2
    [.blank] Prod.mk where
  glyph o := .symbol o.symbol
  kind o := .symbol o.symbol
  kinds _ := rfl
  fits o := by cases o <;> simp [AddOp.symbol]
  accepts _ _ := addOp?_of_kind
  ends o := by cases o <;> decide
  layout := Or.inl rfl
  row _ _ := rfl
  nodes _ _ := rfl
  like o _ _ := congrArg (Prod.mk o)

/-- An operator of one token in front of a part of its layer. -/
def oneOperator {α : Type} [Erasable α] (g : Glyph) (kind : TokenKind) (p : Print α) (level : Nat)
    (hKinds : g.kinds = [kind]) (hFits : g.Fits) (hLevel : level ≤ closes kind) :
    Operators (fun t => if t.kind = kind then some () else none) p
      (p.behind [.blank, g, .blank]) level [.blank] fun _ x => x where
  glyph _ := g
  kind _ := kind
  kinds _ := hKinds
  fits _ := hFits
  accepts _ _ h := if_pos h
  ends _ := hLevel
  layout := Or.inl rfl
  row _ _ := rfl
  nodes _ _ := rfl
  like _ _ _ h := h

theorem folds_product : Folds .term (Print.term.behindOperator MulOp.symbol) .product .single
    fun left entry => .mul left entry.1 entry.2 := by
  refine ⟨fun _ => rfl, fun _ => rfl, fun x y => ?_, fun _ _ => rfl,
    fun x y => congrArg Product.single, fun a b x y hab hxy => ?_⟩
  · simp [Print.product, Product.row, Print.behindOperator, Print.term]
  · simp_all [Like, Erasable.erase, Product.erase, Prod.map]

theorem folds_sum : Folds .product (Print.product.behindOperator AddOp.symbol) .sum .single
    fun left entry => .add left entry.1 entry.2 := by
  refine ⟨fun _ => rfl, fun _ => rfl, fun x y => ?_, fun _ _ => rfl, fun x y => congrArg Sum.single,
    fun a b x y hab hxy => ?_⟩
  · simp [Print.sum, Sum.row, Print.behindOperator, Print.product]
  · simp_all [Like, Erasable.erase, Sum.erase, Prod.map]

def concatOperators := oneOperator (.symbol .concat) (.symbol .concat) .sum 3 rfl (by simp) le_rfl

theorem folds_operand : Folds .sum (Print.sum.behind [.blank, .symbol .concat, .blank]) .operand
    .single .concat := by
  refine ⟨fun _ => rfl, fun _ => rfl, fun x y => ?_, fun _ _ => rfl,
    fun x y => congrArg Operand.single, fun a b x y hab hxy => ?_⟩
  · simp [Print.operand, Operand.row, Print.behind, Print.sum]
  · simp_all [Like, Erasable.erase, Operand.erase]

/-- Products are read back. -/
theorem Known.product (h : Known n) : Faithful n k .product product 2 Opens :=
  h.term.layer mulOperators folds_product (by decide) mulOp?_none

/-- Sums are read back. -/
theorem Known.sum (h : Known n) : Faithful n k .sum sum 3 Opens :=
  h.product.layer addOperators folds_sum (by decide) addOp?_none

/-- Operands are read back. -/
theorem Known.operand (h : Known n) : Faithful n k .operand operand 4 Opens :=
  h.sum.layer concatOperators folds_operand (by decide) (accept_none (by decide))

/-! ## Tests -/

/-- What stands in parentheses behind `IN`. -/
inductive Members where
  | list (values : List Expr)
  | query (query : Select)

/-- What a condition says of its operand, apart from the operand. -/
inductive Test where
  | nothing
  | comparison (operator : CompareOp) (right : Operand)
  | isNull (negated : Bool)
  | same (negated : Bool) (right : Operand)
  | between (negated : Bool) (bounds : Operand × Operand)
  | oneOf (negated : Bool) (members : Members)
  | like (negated : Bool) (pattern : Operand × Option Operand)
  | regexp (negated : Bool) (pattern : Operand)

/-- The condition that says something of an operand. -/
def Test.of (left : Operand) : Test → Condition
  | .nothing => .operand left
  | .comparison operator right => .comparison left operator right
  | .isNull negated => .isNull left negated
  | .same negated right => .same left negated right
  | .between negated (low, high) => .between left negated low high
  | .oneOf negated (.list values) => .oneOf left negated values
  | .oneOf negated (.query query) => .oneOfQuery left negated query
  | .like negated (pattern, none) => .like left negated pattern
  | .like negated (pattern, some escape) => .likeEscape left negated pattern escape
  | .regexp negated pattern => .regexp left negated pattern

section Readers

variable (rules : Rules)

/-- What stands between the bounds of `BETWEEN`, and the bounds. -/
def bounds : Parse (Operand × Operand) := do
  let low ← operand rules
  expectKeyword .AND
  return (low, ← operand rules)

/-- The list in the parentheses behind `IN`, and the closing one. -/
def memberList (empty : Bool) : Parse Members :=
  closed (if empty = true then pure (.list []) else .list <$> separated rules.expr)

/-- What stands in the parentheses behind `IN`, and the closing one. -/
def membersOf (query : Bool) : Parse Members :=
  if query = true then closed (.query <$> rules.select)
  else do memberList rules (← Parse.look fun s => s.current.kind == .symbol .rightParen)

/-- What stands in the parentheses behind `IN`, and the closing one. -/
def members : Parse Members := do
  membersOf rules (← Parse.look fun s => isQueryStart s.current.kind)

/-- A test that may be negated, behind its `NOT`. -/
def predicate (negated : Bool) : Parse Test := do
  if ← eatKeyword .BETWEEN then .between negated <$> bounds rules
  else if ← eatKeyword .IN then
    expect .leftParen
    .oneOf negated <$> members rules
  else if ← eatKeyword .LIKE then
    .like negated <$> both (operand rules) (after .ESCAPE (operand rules))
  else if ← eatKeyword .REGEXP then .regexp negated <$> operand rules
  else return .nothing

/-- What stands behind `IS`. -/
def sameness : Parse Test := do
  let negated ← eatKeyword .NOT
  if ← eatKeyword .NULL then return .isNull negated
  else .same negated <$> operand rules

/-- What a condition says of its operand. -/
def tests : Parse Test := do
  match ← take? compareOp? with
  | some operator => .comparison operator <$> operand rules
  | none =>
    if ← eatKeyword .IS then sameness rules
    else
      let negated ← predicateNot
      predicate rules negated

end Readers

variable {rules : Rules} {left : Operand} {negated : Bool}

theorem membership_eq : membership rules left negated = Test.of left <$> (do
    expect .leftParen
    Test.oneOf negated <$> members rules) := by
  simp only [membership, members, membersOf, memberList, closed, map_eq_pure_bind, bind_assoc]
  refine bind_congr fun _ => bind_congr fun query => ?_
  cases query with
  | true => rfl
  | false =>
    simp only [Bool.false_eq_true, ↓reduceIte, bind_assoc]
    refine bind_congr fun empty => ?_
    cases empty <;> rfl

theorem identity_eq : identity rules left = Test.of left <$> sameness rules := by
  simp only [identity, sameness, map_eq_pure_bind, bind_assoc]
  refine bind_congr fun negated => bind_congr fun null => ?_
  cases null <;> rfl

/-- A choice between readers, with something made of the result. -/
theorem bind_ite {α β : Type} {m : Parse Bool} {f : α → β} {a b : Parse β} {a' b' : Parse α}
    (h : a = f <$> a') (h' : b = f <$> b') :
    (m >>= fun c => if c = true then a else b) =
      f <$> (m >>= fun c => if c = true then a' else b') := by
  rw [map_bind]
  refine bind_congr fun c => ?_
  cases c
  · exact h'
  · exact h

theorem like_eq : (do
    let pattern ← operand rules
    match ← after .ESCAPE (operand rules) with
    | some escape => return .likeEscape left negated pattern escape
    | none => return .like left negated pattern) =
      Test.of left <$> Test.like negated <$> both (operand rules)
        (after .ESCAPE (operand rules)) := by
  simp only [both, map_eq_pure_bind, bind_assoc]
  refine bind_congr fun pattern => bind_congr fun escape => ?_
  cases escape <;> rfl

theorem test_eq : test rules left = Test.of left <$> tests rules := by
  simp only [test, tests, map_bind]
  refine bind_congr fun o => ?_
  cases o with
  | some operator => rfl
  | none =>
    refine bind_ite identity_eq ?_
    rw [map_bind]
    refine bind_congr fun negated => bind_ite rfl (bind_ite membership_eq (bind_ite like_eq ?_))
    exact bind_ite rfl rfl

/-! ## What tests are written as -/

def Members.erase (e : Erasure) : Members → Members
  | .list values => .list (values.map (Expr.erase e))
  | .query q => .query (q.erase e)

instance : Erasable Members := ⟨Members.erase⟩

def Test.erase (e : Erasure) : Test → Test
  | .nothing => .nothing
  | .comparison operator right => .comparison operator (right.erase e)
  | .isNull negated => .isNull negated
  | .same negated right => .same negated (right.erase e)
  | .between negated bounds => .between negated (Erasable.erase e bounds)
  | .oneOf negated members => .oneOf negated (members.erase e)
  | .like negated pattern => .like negated (Erasable.erase e pattern)
  | .regexp negated pattern => .regexp negated (pattern.erase e)

instance : Erasable Test := ⟨Test.erase⟩

/-- The bounds of a range. -/
def Print.bounds : Print (Operand × Operand) :=
  Print.operand.pair (Print.operand.behind [.blank, .keyword .AND, .blank])

/-- A pattern and the character that escapes in it. -/
def Print.pattern : Print (Operand × Option Operand) :=
  Print.operand.pair (Print.operand.afterWord .ESCAPE)

/-- Members behind the opening parenthesis. -/
def Print.members : Print Members where
  row
    | .list values => Print.expr.commas.row values ++ [.symbol .rightParen]
    | .query query => query.row ++ [.symbol .rightParen]
  nodes
    | .list values => Print.expr.commas.nodes values
    | .query query => query.nodes

/-- What stands in front of the part behind a test. -/
def Test.front : Test → Script
  | .nothing => []
  | .comparison operator _ => [.blank, .symbol operator.symbol, .blank]
  | .isNull negated =>
    .blank :: .keyword .IS :: .blank :: (optionalWord negated .NOT ++ [.keyword .NULL])
  | .same negated _ => .blank :: .keyword .IS :: .blank :: optionalWord negated .NOT
  | .between negated _ => .blank :: (optionalWord negated .NOT ++ [.keyword .BETWEEN, .blank])
  | .oneOf negated _ =>
    .blank :: (optionalWord negated .NOT ++ [.keyword .IN, .blank, .symbol .leftParen])
  | .like negated _ => .blank :: (optionalWord negated .NOT ++ [.keyword .LIKE, .blank])
  | .regexp negated _ => .blank :: (optionalWord negated .NOT ++ [.keyword .REGEXP, .blank])

/-- A test with a blank in front of it. -/
def Print.test : Print Test where
  row t := t.front ++
    match t with
    | .nothing | .isNull _ => []
    | .comparison _ right | .same _ right | .regexp _ right => right.row
    | .between _ bounds => Print.bounds.row bounds
    | .oneOf _ members => Print.members.row members
    | .like _ pattern => Print.pattern.row pattern
  nodes
    | .nothing | .isNull _ => []
    | .comparison _ right | .same _ right | .regexp _ right => right.nodes
    | .between _ bounds => Print.bounds.nodes bounds
    | .oneOf _ members => Print.members.nodes members
    | .like _ pattern => Print.pattern.nodes pattern

def Print.condition : Print Condition := ⟨Condition.row, Condition.nodes⟩

/-- A condition is written as its operand and its test. -/
theorem prints_condition : Prints (Print.operand.pair .test) .condition fun x => x.2.of x.1 where
  row := by
    rintro ⟨left, test⟩
    cases test with
    | oneOf negated members =>
      cases members <;> simp [Print.condition, Print.pair, Print.test, Test.of, Test.front,
        Condition.row, Print.operand, Print.members, rowAll_expressions]
    | like negated pattern =>
      obtain ⟨pattern, escape⟩ := pattern
      cases escape <;> simp [Print.condition, Print.pair, Print.test, Test.of, Test.front,
        Condition.row, Print.operand, Print.pattern, Print.afterWord, Print.option, Print.behind]
    | _ => simp [Print.condition, Print.pair, Print.test, Test.of, Test.front, Condition.row,
        Print.operand, Print.bounds, Print.behind]
  nodes := by
    rintro ⟨left, test⟩
    cases test with
    | oneOf negated members =>
      cases members with
      | list values => exact congrArg (left.nodes ++ ·) (nodesAll_expressions values)
      | query query => rfl
    | like negated pattern =>
      obtain ⟨pattern, escape⟩ := pattern
      cases escape with
      | none => exact congrArg (left.nodes ++ ·) (List.append_nil _).symm
      | some escape => rfl
    | nothing | isNull negated => exact (List.append_nil _).symm
    | _ => rfl
  like := by
    rintro ⟨left, test⟩ ⟨left', test'⟩ hLike
    obtain ⟨hLeft, hTest⟩ := Prod.mk.inj hLike
    have hErase : ∀ (left : Operand) (t : Test),
        (t.of left).erase .spans = (t.erase .spans).of (left.erase .spans) := by
      intro left t
      cases t with
      | oneOf negated members =>
        cases members <;> simp [Test.of, Test.erase, Condition.erase, Members.erase]
      | like negated pattern =>
        obtain ⟨pattern, escape⟩ := pattern
        cases escape <;> rfl
      | _ => rfl
    exact (hErase left test).trans ((congrArg₂ (fun t l => t.of l) hTest hLeft).trans
      (hErase left' test').symm)

/-! ## Tests are read back -/

section Negation

variable {α : Type} {level : Nat} {gs : Script} {ms : List ParamMark} {Q : α → Prop}
  {m : Rules → Bool → Parse α} {word : Keyword}

/-- What a reader behind a `NOT` goes on with, from what was seen. -/
def takeNot (sees : Bool) (next : TokenKind) : Parse Bool :=
  if (sees && isPredicateWord next) = true then (do advance; return true) else pure false

theorem predicateNot_eq : predicateNot = (do
    let sees ← Parse.look fun s => s.current.kind == .keyword .NOT
    let next ← Parse.look fun s => s.kindAt 1
    takeNot sees next) := rfl

/-- A `NOT` in front of the word of a predicate is taken. -/
theorem Reads.predicateNot_true (hWord : isPredicateWord (.keyword word) = true)
    (h : Reads (k + 1) (fun rules => m rules true) (.keyword word :: gs) ms level Q) :
    Reads k (fun rules => predicateNot >>= m rules)
      (.keyword .NOT :: .blank :: .keyword word :: gs) ms level Q := by
  simp only [predicateNot_eq, bind_assoc]
  refine Reads.look true (fun s more hs _ => ?_) (Reads.look (.keyword word) ?_ ?_)
  · rw [hs.current]
    rfl
  · intro s more hs _
    rw [State.kindAt, ← List.getElem?_map, ← hs.kinds]
    rfl
  · have hTake : takeNot true (.keyword word) = (do Parse.advance; return true) := by
      simp [takeNot, hWord]
    simp only [hTake, bind_assoc, pure_bind]
    exact Reads.advance (g := .keyword .NOT) (m := fun rules _ => m rules true) rfl h.blank

/-- Nothing is taken where no `NOT` is next. -/
theorem Reads.predicateNot_false (hNot : Leads level (fun ks => first ks ≠ .keyword .NOT) gs)
    (h : Reads k (fun rules => m rules false) gs ms level Q) :
    Reads k (fun rules => predicateNot >>= m rules) gs ms level Q := by
  simp only [predicateNot_eq, bind_assoc]
  refine Reads.look false (fun s more hs hMore => ?_) ?_
  · rw [hs.current]
    exact beq_eq_false_iff_ne.mpr (hNot more hMore)
  · exact fun _ _ _ _ hs hDepth hMore hMarks => h hs hDepth hMore hMarks

/-- From what stands behind its `NOT`, if it has one, it is known how a predicate is read. -/
theorem Reads.predicateNot {negated : Bool} (hWord : isPredicateWord (.keyword word) = true)
    (h : Reads k (fun rules => m rules negated) (.keyword word :: gs) ms level Q) :
    Reads k (fun rules => Grammar.predicateNot >>= m rules)
      (optionalWord negated .NOT ++ .keyword word :: gs) ms level Q := by
  cases negated with
  | true => exact Reads.predicateNot_true hWord (h.mono (Nat.le_succ k) le_rfl)
  | false =>
    refine Reads.predicateNot_false (fun more _ hKind => ?_) h
    obtain rfl := TokenKind.keyword.inj hKind
    cases hWord

end Negation

section Tests

variable {gs : Script} {ms : List ParamMark} {Q : Test → Prop} {word : Keyword} {negated : Bool}

theorem compareOp?_of_kind {t : Token} {o : CompareOp} (h : t.kind = .symbol o.symbol) :
    compareOp? t = some o := by
  unfold compareOp?
  rw [h]
  cases o <;> rfl

theorem compareOp?_keyword {t : Token} (h : t.kind = .keyword word) : compareOp? t = none := by
  unfold compareOp?
  rw [h]

theorem compareOp?_none {t : Token} (h : 5 ≤ closes t.kind) : compareOp? t = none := by
  unfold compareOp?
  split
  all_goals first | rfl | next hKind => exact absurd h (by rw [hKind]; decide)

variable (word) in
/-- A predicate is read back as a test. -/
theorem Reads.predicate (hWord : isPredicateWord (.keyword word) = true)
    (h : Reads k (fun rules => predicate rules negated) (.keyword word :: gs) ms 5 Q) :
    Reads k tests (.blank :: (optionalWord negated .NOT ++ .keyword word :: gs)) ms 5 Q := by
  have hFirst : ∃ w, w ≠ .IS ∧ ∀ more,
      first (Script.kinds ((optionalWord negated .NOT ++ .keyword word :: gs) ++ more)) =
      .keyword w := by
    cases negated with
    | true => exact ⟨.NOT, by simp, fun _ => rfl⟩
    | false =>
      refine ⟨word, ?_, fun _ => rfl⟩
      rintro rfl
      cases hWord
  obtain ⟨w, hIs, hFirst⟩ := hFirst
  refine Reads.blank (Reads.takeNone (fun more _ t ht => ?_) ?_)
  · exact compareOp?_keyword (ht.trans (hFirst more))
  · refine Reads.eatElse (fun more _ hKind => ?_) (Reads.predicateNot hWord h)
    exact hIs (TokenKind.keyword.inj ((hFirst more).symm.trans hKind))

/-- No test is read where none stands. -/
theorem Reads.noTest : Reads k tests [] [] 5 (Like .spans Test.nothing) := by
  have hNone : ∀ word, closes (.keyword word) = 4 →
      Leads 5 (fun ks => first ks ≠ .keyword word) [] := fun word hWord => leads_ne (by omega)
  refine Reads.takeNone (fun more hMore t ht => compareOp?_none ?_) ?_
  · rw [ht]
    exact hMore
  · refine Reads.eatElse (hNone .IS rfl) (Reads.predicateNot_false (hNone .NOT rfl) ?_)
    refine Reads.eatElse (hNone .BETWEEN rfl) (Reads.eatElse (hNone .IN rfl) ?_)
    refine Reads.eatElse (hNone .LIKE rfl) (Reads.eatElse (hNone .REGEXP rfl) ?_)
    exact Reads.pure rfl

theorem stops_front {t : Test} (h : t ≠ .nothing) : Stops 4 5 (t.front ++ gs) := by
  cases t with
  | nothing => exact absurd rfl h
  | comparison operator right =>
    exact stops_blank (stops_cons rfl (by cases operator <;> decide))
  | isNull negated | same negated right => exact stops_blank (stops_cons rfl le_rfl)
  | _ negated _ => cases negated <;> exact stops_blank (stops_cons rfl le_rfl)

theorem detached_front {t : Test} (h : t ≠ .nothing) : Script.Detached (t.front ++ gs) := by
  cases t with
  | nothing => exact absurd rfl h
  | _ => exact Script.detached_cons rfl

/-- A test in a row, from how its parts are written. -/
theorem tail_test (t : Test) (hTest : t ≠ .nothing) (hRow : Print.test.row t = t.front ++ gs)
    (hLegal : Script.Legal (t.front ++ gs))
    (hReads : Reads k tests (t.front ++ gs) (Print.test.marks t) 5 (Like .spans t)) :
    Tail k .test tests 4 5 t (t.front ++ gs) where
  row := hRow
  legal := hLegal
  leads := stops_front hTest
  reads := hReads
  detached := detached_front hTest

theorem tail_nothing : Tail k .test tests 4 5 .nothing [] where
  row := rfl
  legal := Script.legal_nil
  leads := stops_nil (by decide)
  reads := Reads.noTest
  detached := Script.detached_nil

variable {P : List TokenKind → Prop}

theorem legal_predicate (word : Keyword) :
    Script.Legal (optionalWord negated .NOT ++ .keyword word :: .blank :: gs) ↔
    Script.Legal gs := by
  cases negated <;> simp [optionalWord]

theorem tail_comparison {operator : CompareOp} {right : Operand}
    (h : Shown (k + 1) .operand operand 5 P right gs) :
    Tail k .test tests 4 5 (.comparison operator right)
      ((Test.comparison operator right).front ++ gs) := by
  refine tail_test _ (by simp) (by rw [← h.row]; rfl) ?_ ?_
  · have hFits : operator.symbol ≠ .semicolon := by cases operator <;> simp [CompareOp.symbol]
    simpa [Test.front, h.legal] using hFits
  · refine Reads.blank (Reads.take (b := operator) rfl (fun t ht _ => compareOp?_of_kind ht) ?_)
    exact h.reads.blank.map fun y hy => congrArg (Test.comparison operator) hy

/-! ### Behind `IS` -/

theorem Reads.is (h : Reads (k + 1) sameness gs ms 5 Q) :
    Reads k tests (.blank :: .keyword .IS :: .blank :: gs) ms 5 Q := by
  refine Reads.blank (Reads.takeNone (fun more _ t ht => compareOp?_keyword ht) ?_)
  exact Reads.eatThen rfl h.blank

/-- What is read behind `IS` and its `NOT`. -/
def samenessBehind (rules : Rules) (negated : Bool) : Parse Test := do
  if ← eatKeyword .NULL then return .isNull negated
  else .same negated <$> operand rules

theorem tail_isNull : Tail k .test tests 4 5 (.isNull negated) (Test.isNull negated).front := by
  rw [← List.append_nil (Test.isNull negated).front]
  refine tail_test _ (by simp) rfl ?_ ?_
  · cases negated <;> simp [Test.front, optionalWord]
  · rw [List.append_nil]
    refine Reads.is ?_
    cases negated with
    | true =>
      refine Reads.eat (m := samenessBehind) rfl (Reads.blank (Reads.eatThen rfl (Reads.pure rfl)))
    | false =>
      refine Reads.eatNone (m := samenessBehind) (fun _ _ hKind => nomatch hKind) ?_
      exact Reads.eatThen rfl (Reads.pure rfl)

theorem tail_same {right : Operand} (h : Shown (k + 1) .operand operand 5 P right gs)
    (hNull : ∀ ks, P ks → first ks ≠ .keyword .NULL)
    (hNot : negated = false → ∀ ks, P ks → first ks ≠ .keyword .NOT) :
    Tail k .test tests 4 5 (.same negated right) ((Test.same negated right).front ++ gs) := by
  have hBehind : ∀ j, k + 1 ≤ j → Reads j (fun rules => samenessBehind rules negated) gs
      (Print.operand.marks right) 5 (Like .spans (Test.same negated right)) := fun j hj =>
    Reads.eatElse (h.leads.imp hNull)
      ((h.reads.mono hj le_rfl).map fun y hy => congrArg (Test.same negated) hy)
  refine tail_test _ (by simp) (by rw [← h.row]; rfl) ?_ (Reads.is ?_)
  · cases negated <;> simp [Test.front, optionalWord, h.legal]
  · cases negated with
    | true =>
      exact Reads.eat (m := samenessBehind) rfl (Reads.blank (hBehind _ (by omega)))
    | false =>
      exact Reads.eatNone (m := samenessBehind) (h.leads.imp (hNot rfl)) (hBehind _ le_rfl)

/-! ### Predicates -/

theorem tail_between {x : Operand × Operand} (h : Shown (k + 1) .bounds bounds 5 P x gs) :
    Tail k .test tests 4 5 (.between negated x) ((Test.between negated x).front ++ gs) := by
  refine tail_test _ (by simp) (by rw [← h.row]; rfl) ?_ ?_
  · simp [Test.front, legal_predicate, h.legal]
  · simp only [Test.front, List.cons_append, List.append_assoc, List.nil_append]
    refine Reads.predicate .BETWEEN rfl (Reads.eatThen rfl ?_)
    exact h.reads.blank.map fun y hy => congrArg (Test.between negated) hy

theorem tail_oneOf {x : Members} (h : Shown (k + 1) .members members 5 P x gs) :
    Tail k .test tests 4 5 (.oneOf negated x) ((Test.oneOf negated x).front ++ gs) := by
  refine tail_test _ (by simp) (by rw [← h.row]; rfl) ?_ ?_
  · simp [Test.front, legal_predicate, h.legal]
  · simp only [Test.front, List.cons_append, List.append_assoc, List.nil_append]
    refine Reads.predicate .IN rfl (Reads.eatElse (fun _ _ hKind => nomatch hKind) ?_)
    refine Reads.eatThen rfl (Reads.blank (Reads.expect ?_))
    exact (h.reads.mono (by omega) le_rfl).map fun y hy => congrArg (Test.oneOf negated) hy

theorem tail_like {x : Operand × Option Operand}
    (h : Shown (k + 1) .pattern (fun rules => both (operand rules) (after .ESCAPE (operand rules)))
      5 P x gs) :
    Tail k .test tests 4 5 (.like negated x) ((Test.like negated x).front ++ gs) := by
  refine tail_test _ (by simp) (by rw [← h.row]; rfl) ?_ ?_
  · simp [Test.front, legal_predicate, h.legal]
  · simp only [Test.front, List.cons_append, List.append_assoc, List.nil_append]
    refine Reads.predicate .LIKE rfl (Reads.eatElse (fun _ _ hKind => nomatch hKind) ?_)
    refine Reads.eatElse (fun _ _ hKind => nomatch hKind) (Reads.eatThen rfl ?_)
    exact h.reads.blank.map fun y hy => congrArg (Test.like negated) hy

theorem tail_regexp {x : Operand} (h : Shown (k + 1) .operand operand 5 P x gs) :
    Tail k .test tests 4 5 (.regexp negated x) ((Test.regexp negated x).front ++ gs) := by
  refine tail_test _ (by simp) (by rw [← h.row]; rfl) ?_ ?_
  · simp [Test.front, legal_predicate, h.legal]
  · simp only [Test.front, List.cons_append, List.append_assoc, List.nil_append]
    refine Reads.predicate .REGEXP rfl (Reads.eatElse (fun _ _ hKind => nomatch hKind) ?_)
    refine Reads.eatElse (fun _ _ hKind => nomatch hKind) ?_
    refine Reads.eatElse (fun _ _ hKind => nomatch hKind) (Reads.eatThen rfl ?_)
    exact h.reads.blank.map fun y hy => congrArg (Test.regexp negated) hy

end Tests

/-! ## Conditions -/

theorem Known.bounds (h : Known n) : Faithful n k .bounds bounds 5 Opens :=
  h.operand.pair ((h.operand.mono le_rfl (by decide)).behindWord
    (by decide : 4 ≤ closes (.keyword .AND)))

theorem Known.pattern (h : Known n) : Faithful n k .pattern
    (fun rules => both (Grammar.operand rules) (after .ESCAPE (Grammar.operand rules))) 5 Opens :=
  h.operand.pair ((h.operand.mono le_rfl (by decide)).after
    (by decide : 4 ≤ closes (.keyword .ESCAPE)) (by decide))

section Members

variable {gs : Script} {P : List TokenKind → Prop}

theorem shown_noMembers : Shown k .members members 5 (fun _ => True) (.list [])
    [.symbol .rightParen] where
  row := rfl
  legal := by simp
  leads _ _ := trivial
  reads := by
    refine Reads.lookKind (f := isQueryStart) (m := membersOf) false (fun _ _ => rfl) ?_
    refine Reads.lookKind (f := fun kind => kind == .symbol .rightParen) (m := memberList) true
      (fun _ _ => rfl) ?_
    exact Reads.expect (m := fun _ _ => Pure.pure (Members.list [])) (Reads.pure rfl)

theorem shown_memberList {values : List Expr}
    (h : Shown k Print.expr.commas (fun rules => separated rules.expr) 11 P values gs)
    (hQuery : ∀ ks, P ks → isQueryStart (first ks) = false)
    (hParen : ∀ ks, P ks → first ks ≠ .symbol .rightParen) :
    Shown k .members members 5 (fun _ => True) (.list values) (gs ++ [.symbol .rightParen]) where
  row := (h.closed (by decide)).row
  legal := (h.closed (by decide)).legal
  leads _ _ := trivial
  reads := by
    have hLeads := (h.closed (by decide)).leads
    refine Reads.mono ?_ le_rfl (Nat.zero_le 5)
    refine Reads.lookKind (f := isQueryStart) (m := membersOf) false (hLeads.imp hQuery) ?_
    refine Reads.lookKind (f := fun kind => kind == .symbol .rightParen) (m := memberList) false
      (hLeads.imp fun ks hks => beq_eq_false_iff_ne.mpr (hParen ks hks)) ?_
    refine (h.reads.map fun y hy => ?_).bindLast (stops_cons rfl (by decide)) fun y hy =>
      Reads.expect (Reads.pure hy)
    exact congrArg Members.list hy

theorem shown_memberQuery {query : Select} (h : Shown k .select Rules.select 19 P query gs)
    (hQuery : ∀ ks, P ks → isQueryStart (first ks) = true) :
    Shown k .members members 5 (fun _ => True) (.query query) (gs ++ [.symbol .rightParen]) where
  row := (h.closed le_rfl).row
  legal := (h.closed le_rfl).legal
  leads _ _ := trivial
  reads := by
    refine Reads.mono ?_ le_rfl (Nat.zero_le 5)
    refine Reads.lookKind (f := isQueryStart) (m := membersOf) true
      ((h.closed le_rfl).leads.imp hQuery) ?_
    refine (h.reads.map fun y hy => ?_).bindLast (stops_cons rfl le_rfl) fun y hy =>
      Reads.expect (Reads.pure hy)
    exact congrArg Members.query hy

/-- The members behind `IN` are written as they are read. -/
theorem Known.members (h : Known n) :
    Faithful n 1 .members members 5 fun _ _ => True := by
  intro s hs
  refine After.look ?_
  cases hQuery : isQueryStart s.current.kind with
  | true =>
    refine After.bind (After.made (h.select s hs)) ?_
    rintro _ s₁ ⟨query, rfl, hInner⟩ -
    refine After.expect fun t rest _ _ => .pure fun hOkay => ?_
    obtain ⟨⟨gs, hShown⟩, hFollows⟩ := hInner hOkay
    refine ⟨⟨_, shown_memberQuery hShown fun ks hks => ?_⟩, hFollows⟩
    rw [hks, hQuery]
  | false =>
    refine After.look ?_
    cases hEmpty : (s.current.kind == .symbol .rightParen) with
    | true =>
      refine After.expect (f := fun _ => Pure.pure (Members.list [])) fun t rest _ _ => .pure ?_
      exact fun _ => ⟨⟨_, shown_noMembers⟩, .refl _⟩
    | false =>
      refine After.bind (After.made (h.expressions s hs)) ?_
      rintro _ s₁ ⟨values, rfl, hInner⟩ -
      refine After.expect fun t rest _ _ => .pure fun hOkay => ?_
      obtain ⟨⟨gs, hShown⟩, hFollows⟩ := hInner hOkay
      refine ⟨⟨_, shown_memberList hShown (fun ks hks => ?_) fun ks hks => ?_⟩, hFollows⟩
      · rw [hks.isQueryStart, hQuery]
      · exact hks.ne (beq_eq_false_iff_ne.mp hEmpty) rfl

end Members

/-- What was read behind a test is written behind its words. -/
def LegibleTest (k : Nat) (t : Test) (s s' : State) : Prop :=
  Legible .test (Tail k .test tests 4 5 t) t s s'

/-- What stands behind `IS` is written as it is read. -/
theorem Known.sameness (h : Known n) (hs : Room n (k + 1) s) :
    After (sameness (.upTo n)) s fun t s' => LegibleTest k t s s' := by
  have hBehind : ∀ (negated : Bool) (s₀ : State), s₀.scope = s.scope → Room n (k + 1) s₀ →
      (negated = false → s₀.current.kind ≠ .keyword .NOT) →
      After (samenessBehind (.upTo n) negated) s₀ fun t s' => LegibleTest k t s s' := by
    intro negated s₀ hScope hs₀ hNot
    refine After.eatIte (fun t rest hTokens _ => .pure fun _ => ⟨⟨_, tail_isNull⟩, hScope.symm⟩) ?_
    intro hNull
    have hNull' := hs₀.current_ne hNull (by simp) (by simp)
    have hRight := (h.operand.mono le_rfl (by decide : 4 ≤ 5)) s₀ hs₀
    refine After.imp (After.made hRight) ?_
    rintro _ s' ⟨right, rfl, hInner⟩
    refine hInner.made hScope rfl fun gs hgs => ⟨_, tail_same hgs (fun ks hks => ?_) ?_⟩
    · exact hks.ne hNull' rfl
    · exact fun hNegated ks hks => hks.ne (hNot hNegated) rfl
  refine After.eat (f := samenessBehind (.upTo n)) (fun t rest hTokens _ => ?_) fun hNot => ?_
  · exact hBehind true _ rfl ((hs.take hTokens).mono (by omega)) fun hFalse => nomatch hFalse
  · exact hBehind false s rfl hs fun _ => hs.current_ne hNot (by simp) (by simp)

/-- A predicate is written as it is read. -/
theorem Known.predicate (h : Known n) (hs : Room n k s) (negated : Bool) :
    After (predicate (.upTo n) negated) s fun t s' => LegibleTest k t s s' := by
  refine After.eatIte (fun t rest hTokens _ => ?_) fun _ => ?_
  · refine After.imp (After.made (h.bounds _ (hs.take hTokens))) ?_
    rintro _ s' ⟨x, rfl, hInner⟩
    exact hInner.made rfl rfl fun gs hgs => ⟨_, tail_between hgs⟩
  refine After.eatIte (fun t rest hTokens _ => ?_) fun _ => ?_
  · refine After.expect fun u rest' hTokens' _ => ?_
    have hTaken := ((hs.take hTokens).take hTokens').mono (by omega : 1 ≤ k + 1 + 1)
    refine After.imp (After.made (h.members _ hTaken)) ?_
    rintro _ s' ⟨x, rfl, hInner⟩
    exact hInner.made rfl rfl fun gs hgs => ⟨_, tail_oneOf (hgs.mono (by omega) le_rfl)⟩
  refine After.eatIte (fun t rest hTokens _ => ?_) fun _ => ?_
  · refine After.imp (After.made (h.pattern _ (hs.take hTokens))) ?_
    rintro _ s' ⟨x, rfl, hInner⟩
    exact hInner.made rfl rfl fun gs hgs => ⟨_, tail_like hgs⟩
  refine After.eatIte (fun t rest hTokens _ => ?_) fun _ => ?_
  · have hPattern := (h.operand.mono le_rfl (by decide : 4 ≤ 5)) _ (hs.take hTokens)
    refine After.imp (After.made hPattern) ?_
    rintro _ s' ⟨x, rfl, hInner⟩
    exact hInner.made rfl rfl fun gs hgs => ⟨_, tail_regexp hgs⟩
  · exact .pure fun _ => ⟨⟨_, tail_nothing⟩, .refl _⟩

theorem After.predicateNot {α : Type} {f : Bool → Parse α} {Q : α → State → Prop}
    (hs : Room n k s)
    (h : ∀ negated s', s'.scope = s.scope → Room n k s' → After (f negated) s' Q) :
    After (Grammar.predicateNot >>= f) s Q := by
  simp only [predicateNot_eq, bind_assoc]
  refine After.look (After.look ?_)
  unfold takeNot
  split
  · next hSees =>
    have hKind : s.current.kind = .keyword .NOT :=
      beq_iff_eq.mp (Bool.and_eq_true_iff.mp hSees).1
    obtain ⟨t, rest, hTokens, -⟩ := hs.exists_token (by simp [hKind]) (by simp [hKind])
    refine After.advance (f := fun _ => f true) hTokens ?_
    exact h true _ rfl ((hs.take hTokens).mono (Nat.le_succ k))
  · exact h false s rfl hs

/-- Tests are written as they are read. -/
theorem Known.tests (h : Known n) : FaithfulTail n k .test tests 4 5 := by
  intro s hs
  refine After.take (fun t rest operator hTokens _ => ?_) fun _ => ?_
  · have hRight := (h.operand.mono le_rfl (by decide : 4 ≤ 5)) _ (hs.take hTokens)
    refine After.imp (After.made hRight) ?_
    rintro _ s' ⟨right, rfl, hInner⟩
    exact hInner.made rfl rfl fun gs hgs => ⟨_, tail_comparison hgs⟩
  refine After.eatIte (fun t rest hTokens _ => ?_) fun _ => ?_
  · exact h.sameness (hs.take hTokens)
  · refine After.predicateNot hs fun negated s' hScope hs' => ?_
    refine After.imp (h.predicate hs' negated) fun t s'' ht => ?_
    exact ht.made (f := id) hScope rfl fun gs hgs => ⟨gs, hgs⟩

/-- An operand and its test are written as they are read. -/
theorem Known.tested (h : Known n) :
    Faithful n k .condition (fun rules => do
      let left ← Grammar.operand rules
      test rules left) 5 Opens := by
  have hPair := (h.operand.pair (k := k) h.tests).map prints_condition
  simp only [test_eq]
  exact hPair

/-! ## Expressions -/

theorem shown_existence {query : Select} {gs : Script} {P : List TokenKind → Prop}
    (hKind : s.current.kind = .keyword .EXISTS)
    (h : Shown (k + 1) Print.select.enclosed (fun rules => enclosed rules.select) 0 P query gs) :
    Shown k .condition plainCondition 5 (Opens s) (.existence query)
      (.keyword .EXISTS :: .blank :: gs) where
  row := by
    rw [← h.row]
    rfl
  legal := by simp [h.legal]
  leads more _ := by
    exact ⟨.keyword .EXISTS, Opening.of_not_name rfl (by decide) (by simp), Or.inl hKind.symm⟩
  reads := by
    refine Reads.mono (Reads.eatThen rfl ?_) le_rfl (Nat.zero_le 5)
    exact h.reads.blank.map fun y hy => congrArg Condition.existence hy

theorem shown_tested {x : Condition} {gs : Script} (hExists : s.current.kind ≠ .keyword .EXISTS)
    (h : Shown k .condition (fun rules => do
      let left ← operand rules
      test rules left) 5 (Opens s) x gs) :
    Shown k .condition plainCondition 5 (Opens s) x gs where
  row := h.row
  legal := h.legal
  leads := h.leads
  reads := Reads.eatElse (h.leads.imp fun _ hks => hks.ne hExists rfl) h.reads

/-- A condition that does not start with `NOT` is written as it is read. -/
theorem Known.plainCondition (h : Known n) : Faithful n k .condition plainCondition 5 Opens := by
  intro s hs
  refine After.eatIte (fun t rest hTokens hKind => ?_) fun hExists => ?_
  · have hCurrent : s.current.kind = .keyword .EXISTS := by
      rw [State.current_cons hTokens, hKind]
    have hSelect := h.select.mono (Nat.succ_le_succ (Nat.zero_le (k + 1))) le_rfl
    refine After.imp (After.made (hSelect.enclosed le_rfl _ (hs.take hTokens))) ?_
    rintro _ s' ⟨query, rfl, hInner⟩
    exact hInner.made rfl rfl fun gs hgs => ⟨_, shown_existence hCurrent hgs⟩
  · have hCurrent := hs.current_ne hExists (by simp) (by simp)
    refine After.imp (h.tested s hs) fun x s' hx => ?_
    exact hx.made (f := id) rfl rfl fun gs hgs => ⟨gs, shown_tested hCurrent hgs⟩

section Negations

variable {negations : List Unit} {x : Condition} {gs : Script}

/-- The word in front of a condition that is negated. -/
theorem leaders_not : Leaders (fun t => if t.kind = .keyword .NOT then some () else none)
    (fun _ => .keyword .NOT) fun _ => .keyword .NOT where
  kinds _ := rfl
  accepts _ _ h := if_pos h
  accepted _ t h := by
    by_cases hKind : t.kind = .keyword .NOT
    · exact hKind
    · rw [if_neg hKind] at h
      cases h
  inside _ := by simp

/-- A condition that is negated some times. -/
def negate (negations : List Unit) (x : Condition) : Condition :=
  negations.foldr (fun _ inner => .negation inner) x

def negateRow (negations : List Unit) : Script :=
  leadRow (fun _ => .keyword .NOT) [.blank] negations

theorem row_negate : (negate negations x).row = negateRow negations ++ x.row := by
  induction negations with
  | nil => rfl
  | cons _ negations ih =>
    rw [negate, List.foldr_cons, ← negate, Condition.row, ih, ← List.append_assoc]
    rfl

theorem nodes_negate : (negate negations x).nodes = x.nodes := by
  induction negations with
  | nil => rfl
  | cons _ negations ih => exact ih

theorem like_negate {y : Condition} (h : Like .spans x y) :
    Like .spans (negate negations x) (negate negations y) := by
  induction negations with
  | nil => exact h
  | cons _ negations ih => exact congrArg Condition.negation ih

theorem legal_negateRow (h : Script.Legal gs) : Script.Legal (negateRow negations ++ gs) := by
  induction negations with
  | nil => exact h
  | cons _ negations ih => exact (Script.legal_cons_blank _ _).mpr ⟨trivial, ih⟩

theorem shown_negate {s₁ : State} (h : Shown k .condition plainCondition 5 (Opens s₁) x gs)
    (hNot : s₁.current.kind ≠ .keyword .NOT)
    (hFirst : (negations = [] ∧ s₁ = s) ∨
      ∃ b rest, negations = b :: rest ∧ s.current.kind = .keyword .NOT) :
    Shown k .condition condition 5 (Opens s) (negate negations x) (negateRow negations ++ gs) where
  row := by
    have hRow : x.row = gs := h.row
    rw [← hRow]
    exact row_negate
  legal := legal_negateRow h.legal
  leads := by
    rcases hFirst with ⟨rfl, rfl⟩ | ⟨b, rest, rfl, hKind⟩
    · exact h.leads
    · intro _ _
      exact ⟨.keyword .NOT, Opening.of_not_name rfl (by decide) (by simp), Or.inl hKind.symm⟩
  reads := by
    have hMarks : Print.condition.marks (negate negations x) = Print.condition.marks x :=
      congrArg paramMarks nodes_negate
    rw [hMarks]
    exact Reads.leading (m := fun rules negations => negate negations <$> plainCondition rules)
      leaders_not (Or.inr rfl) (h.leads.imp fun ks hks _ => hks.ne hNot rfl)
      (h.reads.map fun y hy => like_negate hy)

/-- A condition is written as it is read. -/
theorem Known.condition (h : Known n) : Faithful n k .condition condition 5 Opens := by
  intro s hs
  refine After.bind (After.leading leaders_not hs) ?_
  rintro negations s₁ ⟨hScope, hNot, hFirst⟩ hMoves
  refine After.imp (After.made (f := negate negations) (h.plainCondition s₁ (hs.moves hMoves))) ?_
  rintro _ s₂ ⟨x, rfl, hx⟩
  exact hx.made hScope nodes_negate fun gs hgs => ⟨_, shown_negate hgs (hNot ()) hFirst⟩

end Negations

def Print.conjunction : Print Conjunction := ⟨Conjunction.row, Conjunction.nodes⟩

/-- A conjunction is written with `AND`, also where it was read with `&&`. -/
def andOperators :
    Operators andSign? Print.condition (Print.condition.behind [.blank, .keyword .AND, .blank]) 5
    [.blank] fun _ x => x where
  glyph _ := .keyword .AND
  kind _ := .keyword .AND
  kinds _ := rfl
  fits _ := trivial
  accepts _ t h := by
    unfold andSign?
    rw [h]
  ends _ := le_rfl
  layout := Or.inl rfl
  row _ _ := rfl
  nodes _ _ := rfl
  like _ _ _ h := h

theorem andSign?_none (t : Token) (h : 6 ≤ closes t.kind) : andSign? t = none := by
  unfold andSign?
  split
  all_goals first | rfl | next hKind => exact absurd h (by rw [hKind]; decide)

theorem folds_conjunction :
    Folds .condition (Print.condition.behind [.blank, .keyword .AND, .blank])
    .conjunction .single .and := by
  refine ⟨fun _ => rfl, fun _ => rfl, fun x y => ?_, fun _ _ => rfl,
    fun x y => congrArg Conjunction.single, fun a b x y hab hxy => ?_⟩
  · simp [Print.conjunction, Conjunction.row, Print.behind, Print.condition]
  · simp_all [Like, Erasable.erase, Conjunction.erase]

def orOperators := oneOperator (.keyword .OR) (.keyword .OR) .conjunction 6 rfl trivial le_rfl

theorem folds_expr : Folds .conjunction (Print.conjunction.behind [.blank, .keyword .OR, .blank])
    .expr .single .or := by
  refine ⟨fun _ => rfl, fun _ => rfl, fun x y => ?_, fun _ _ => rfl,
    fun x y => congrArg Expr.single, fun a b x y hab hxy => ?_⟩
  · simp [Print.expr, Expr.row, Print.behind, Print.conjunction]
  · simp_all [Like, Erasable.erase, Expr.erase]

/-- A conjunction is written as it is read. -/
theorem Known.conjunction (h : Known n) : Faithful n k .conjunction conjunction 6 Opens :=
  h.condition.layer andOperators folds_conjunction (by decide) andSign?_none

/-- An expression is written as it is read. -/
theorem Known.disjunction (h : Known n) : Faithful n k .expr Grammar.expr 7 Opens :=
  h.conjunction.layer orOperators folds_expr (by decide) (accept_none (by decide))

end SqlKit.Grammar
