import SqlKit.Proofs.Rendering.RoundTrip
import SqlKit.Proofs.Syntax.Placeless

/-!
# Parts that stand alone

Behind a part of a statement nothing may be chained, though more could be. A term alone is read back
as an operand (`shown_toOperand`), with a test behind it as a condition (`shown_condition`), and as
a result of a query (`shown_result`); the clauses of a query are read back as a whole query
(`shown_query`). Where these hold no places, the query has only its own (`Clauses.eq_query`).
-/

namespace SqlKit

namespace Grammar

open Parse

section Single

variable {α β γ ε : Type} [Erasable α] [Erasable γ] [Erasable ε] {k level next : Nat} {q : Print γ}
  {e : Print ε} {p : Print α} {accept : Token → Option β} {f : Rules → β → Parse ε}
  {m : Rules → Parse γ} {P : List TokenKind → Prop} {x : γ} {gs : Script}

/-- A first part without a chain behind it. -/
theorem Shown.single {start : γ → α} {make : α → ε → α} (h : Shown k q m level P x gs)
    (hFolds : Folds q e p start make) (hLevel : level ≤ next)
    (hStop : ∀ t : Token, next ≤ closes t.kind → accept t = none) :
    Shown k p (fun rules => do
      let x ← m rules
      let xs ← chain accept (f rules)
      return xs.foldl make (start x)) next P (start x) gs := by
  have hNone : Tail k e.all (fun rules => chain accept (f rules)) level next [] [] :=
    tail_nil hLevel hStop
  have hShown := hFolds.prints.shown (h.pair hNone)
  rw [List.append_nil] at hShown
  exact hShown

/-- One item is a list with commas. -/
theorem Shown.separated (h : Shown k q m level P x gs) (hLevel : level ≤ 10) :
    Shown k q.commas (fun rules => Parse.separated (m rules)) 11 P [x] gs := by
  obtain rfl := h.row
  have hShown := h.commas (List.forall_mem_nil _) hLevel
  rwa [show q.commas.row [x] = q.row x from List.append_nil _] at hShown

end Single

variable {k : Nat} {kind : TokenKind} {t : Term} {gs : Script}

/-- A state in which a token of some kind is next. -/
def nextState (kind : TokenKind) : State :=
  ⟨[], ⟨kind, .atStart, ""⟩, .atStart, [], false, [], 0, State.noted_nil⟩

/-- A term alone is an operand. -/
theorem shown_toOperand (h : Shown k .term term 1 (Opening kind) t gs) :
    Shown k .operand operand 4 (Opens (nextState kind)) t.toOperand gs := by
  have hOpens : ∀ ks, Opening kind ks → Opens (nextState kind) ks := fun ks hks =>
    ⟨kind, hks, .inl rfl⟩
  have hConcat : ∀ t : Token, 4 ≤ closes t.kind →
      (if t.kind = .symbol .concat then some () else none) = none := accept_none (by decide)
  have hProduct := (h.imp hOpens).single (f := fun rules o => Prod.mk o <$> term rules)
    folds_product (by decide : 1 ≤ 2) mulOp?_none
  have hSum := hProduct.single (f := fun rules o => Prod.mk o <$> product rules)
    folds_sum (by decide : 2 ≤ 3) addOp?_none
  exact hSum.single (f := fun rules _ => sum rules) folds_operand (by decide : 3 ≤ 4) hConcat

/-- An operand and what is said of it are a condition, unless the operand starts like one. -/
theorem shown_condition {s : State} {left : Operand} {x : Test} {hs : Script}
    (h : Shown k .operand operand 4 (Opens s) left gs) (hTest : Tail k .test tests 4 5 x hs)
    (hExists : s.current.kind ≠ .keyword .EXISTS) (hNot : s.current.kind ≠ .keyword .NOT) :
    Shown k .condition condition 5 (Opens s) (x.of left) (gs ++ hs) := by
  have hTested := prints_condition.shown (h.pair hTest)
  have hPlain : Shown k .condition plainCondition 5 (Opens s) (x.of left) (gs ++ hs) := by
    refine shown_tested hExists ?_
    simp only [test_eq]
    exact hTested
  have hNone : ([] : List Unit) = [] ∧ s = s := ⟨rfl, rfl⟩
  exact shown_negate hPlain hNot (.inl hNone)

/-- A conjunction alone is an expression. -/
theorem Shown.expr {x : Conjunction} {P : List TokenKind → Prop}
    (h : Shown k .conjunction conjunction 6 P x gs) : Shown k .expr expr 7 P (.single x) gs := by
  have hOr : ∀ t : Token, 7 ≤ closes t.kind →
      (if t.kind = .keyword .OR then some () else none) = none := accept_none (by decide)
  exact h.single (f := fun rules _ => conjunction rules) folds_expr (by decide : 6 ≤ 7) hOr

/-- A term alone is an expression, unless it starts like a condition. -/
theorem shown_toExpr (h : Shown k .term term 1 (Opening kind) t gs)
    (hExists : kind ≠ .keyword .EXISTS) (hNot : kind ≠ .keyword .NOT) :
    Shown k .expr expr 7 (Opens (nextState kind)) t.toExpr gs := by
  have hCondition := shown_condition (shown_toOperand h) tail_nothing hExists hNot
  rw [List.append_nil] at hCondition
  have hConjunction := hCondition.single (f := fun rules _ => condition rules)
    folds_conjunction (by decide : 5 ≤ 6) andSign?_none
  exact hConjunction.expr

/-- A term alone is a result, unless it starts like a condition or is `*`. -/
theorem shown_result (h : Shown k .term term 1 (Opening kind) t gs)
    (hExists : kind ≠ .keyword .EXISTS) (hNot : kind ≠ .keyword .NOT)
    (hStar : kind ≠ .symbol .star) :
    Shown k .resultColumn resultColumn 8 Fresh (.expr t.toExpr none) gs := by
  have hNoName : Tail k .asName (fun _ => asName?) 7 8 none [] := tail_asName nofun
  have hNamed := prints_value.shown ((shown_toExpr h hExists hNot).pair hNoName)
  rw [List.append_nil] at hNamed
  exact shown_value (s := nextState kind) hStar hNamed

/-- A body whose clauses hold no places holds none. -/
theorem Clauses.placeless_body {x : Clauses} (h : Placeless x) (d : Bool) :
    Placeless (x.body d) := by
  obtain ⟨⟨⟨⟨columns, source⟩, condition⟩, groupBy⟩, having⟩ := x
  intro y hy
  cases y with
  | values => cases hy
  | select d' columns' source' condition' groupBy' having' =>
    simp only [Like, Erasable.erase, Clauses.body, Body.erase, ResultColumn.eraseAll_eq_map,
      JoinClause.eraseOption_eq_map, Expr.eraseOption_eq_map, Expr.eraseAll_eq_map,
      Body.select.injEq] at hy
    obtain ⟨rfl, hColumns, hSource, hCondition, hGroupBy, hHaving⟩ := hy
    have hLike : Like .spans ((((columns, source), condition), groupBy), having)
        ((((columns', source'), condition'), groupBy'), having') := by
      simp only [Like, Erasable.erase, Prod.map_apply, Prod.mk.injEq]
      exact ⟨⟨⟨⟨hColumns, hSource⟩, hCondition⟩, hGroupBy⟩, hHaving⟩
    exact congrArg (Clauses.body d) (h _ hLike)

/-- The query of some clauses, without tables of its own, an order and a limit. -/
def Clauses.query (x : Clauses) (span : Span) : Select :=
  ⟨false, [], .single (x.body false), [], .none, span⟩

/-- A query whose clauses hold no places has only its own. -/
theorem Clauses.eq_query {x : Clauses} (h : Placeless x) {span : Span} {q : Select}
    (hLike : Like .spans (x.query span) q) : q = x.query q.span := by
  obtain ⟨r, tables, bodies, orderBy, limit, span'⟩ := q
  simp only [Like, Erasable.erase, query, Select.erase, CommonTable.eraseAll_eq_map, List.map_nil,
    OrderTerm.eraseAll_eq_map, Select.mk.injEq, Bool.false_eq, List.nil_eq, List.map_eq_nil_iff]
    at hLike
  obtain ⟨rfl, rfl, hBodies, rfl, hLimit, -⟩ := hLike
  cases bodies with
  | compound => cases hBodies
  | single body =>
    rw [x.placeless_body h false body (Bodies.single.inj hBodies)]
    cases limit with
    | none => rfl
    | _ => cases hLimit

theorem shown_query {x : Clauses} (h : Shown (k + 1) .clauses clauses 15 Fresh x gs) (span : Span) :
    Shown k .select select 19 (fun ks => first ks = .keyword .SELECT) (x.query span)
      (.keyword .SELECT :: .blank :: gs) := by
  have hNoOrder : Tail k (Print.orderTerm.listed .ORDER .BY)
      (fun rules => listed .ORDER .BY (orderTerm rules)) 16 17 [] [] :=
    tail_listedNil (by decide) (by decide)
  have hBodies := (shown_select (d := false) h).single (f := compound) folds_bodies
    (by decide : 15 ≤ 16) setOperator?_none
  have hParts := (hBodies.pair hNoOrder).pair tail_noLimit
  simp only [optionalWord, Bool.false_eq_true, ↓reduceIte, List.nil_append,
    List.append_nil] at hParts
  exact shown_bareSelect hParts fun ks hks => by simp [hks]

end Grammar

end SqlKit
