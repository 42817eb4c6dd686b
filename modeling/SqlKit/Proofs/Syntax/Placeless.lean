import SqlKit.Proofs.Syntax.Erasure
import SqlKit.Syntax.View

/-!
# Parts of trees without places

Trees are read back up to the places of their parts. A part that holds no place, as those do without
queries and named parameters in them, is then read back as it is (`Placeless`).
-/

namespace SqlKit

/-- Whatever is like this up to places is the same. -/
def Placeless {α : Type} [Erasable α] (x : α) : Prop := ∀ y, Like .spans x y → y = x

namespace Placeless

section Lists

variable {α β : Type} [Erasable α] [Erasable β] {x : α} {y : β} {xs : List α}

theorem list (h : ∀ x ∈ xs, Placeless x) : Placeless xs := by
  intro ys hys
  induction xs generalizing ys with
  | nil =>
    cases ys with
    | nil => rfl
    | cons y ys => cases hys
  | cons x xs ih =>
    cases ys with
    | nil => cases hys
    | cons y ys =>
      obtain ⟨hFirst, hRest⟩ := List.cons.inj hys
      obtain ⟨hx, hxs⟩ := List.forall_mem_cons.mp h
      rw [hx y hFirst, ih hxs ys hRest]

theorem none : Placeless (none : Option α) := by
  rintro (_ | y) hy
  · rfl
  · cases hy

theorem some (h : Placeless x) : Placeless (some x) := by
  rintro (_ | y) hy
  · cases hy
  · rw [h y (Option.some.inj hy)]

theorem pair (h : Placeless x) (h' : Placeless y) : Placeless (x, y) := by
  rintro ⟨x', y'⟩ hLike
  obtain ⟨hx, hy⟩ := Prod.mk.inj hLike
  rw [h x' hx, h' y' hy]

end Lists

/-! ## Terms -/

theorem path (p : Path) : Placeless (Term.path p) := by
  have hSame : ∀ q : Path, q.erase .spans = q := fun q => by simp [Path.erase, Erasure.spans]
  intro y hy
  cases y with
  | path q => rw [← hSame p, Term.path.inj hy, hSame q]
  | _ => cases hy

theorem literal (value : Literal) : Placeless (Term.literal value) := by
  intro y hy
  cases y with
  | literal => exact hy.symm
  | _ => cases hy

theorem placeholder (p : Placeholder) : Placeless (Term.placeholder p) := by
  intro y hy
  cases y with
  | placeholder => exact hy.symm
  | _ => cases hy

theorem callStar (function : String) : Placeless (Term.callStar function) := by
  intro y hy
  cases y with
  | callStar => exact hy.symm
  | _ => cases hy

theorem toOperand {t : Term} (h : Placeless t) : Placeless t.toOperand := by
  intro y hy
  match y with
  | .single (.single (.single u)) =>
    have hTerm : Like .spans t u := by
      simpa [Term.toOperand, Operand.erase, Sum.erase, Product.erase,
      Like, Erasable.erase] using hy
    rw [h u hTerm]
    rfl
  | .single (.single (.mul ..)) | .single (.add ..) | .concat .. =>
    simp [Term.toOperand, Operand.erase, Sum.erase, Product.erase, Like, Erasable.erase] at hy

/-! ## Conditions -/

section Conditions

variable {left right : Operand}

theorem comparison (h : Placeless left) (h' : Placeless right) (operator : CompareOp) :
    Placeless (Condition.comparison left operator right) := by
  intro y hy
  cases y with
  | comparison left' operator' right' =>
    obtain ⟨hLeft, rfl, hRight⟩ := Condition.comparison.inj hy
    rw [h left' hLeft, h' right' hRight]
  | _ => cases hy

theorem isNull (h : Placeless left) (negated : Bool) :
    Placeless (Condition.isNull left negated) := by
  intro y hy
  cases y with
  | isNull left' negated' =>
    obtain ⟨hLeft, rfl⟩ := Condition.isNull.inj hy
    rw [h left' hLeft]
  | _ => cases hy

theorem oneOf (h : Placeless left) {values : List Expr} (h' : ∀ e ∈ values, Placeless e)
    (negated : Bool) : Placeless (Condition.oneOf left negated values) := by
  intro y hy
  cases y with
  | oneOf left' negated' values' =>
    obtain ⟨hLeft, rfl, hValues⟩ := Condition.oneOf.inj hy
    rw [Expr.eraseAll_eq_map, Expr.eraseAll_eq_map] at hValues
    rw [h left' hLeft, list h' values' hValues]
  | _ => cases hy

theorem like (h : Placeless left) (h' : Placeless right) (negated : Bool) :
    Placeless (Condition.like left negated right) := by
  intro y hy
  cases y with
  | like left' negated' right' =>
    obtain ⟨hLeft, rfl, hRight⟩ := Condition.like.inj hy
    rw [h left' hLeft, h' right' hRight]
  | _ => cases hy

theorem operand (h : Placeless left) : Placeless (Condition.operand left) := by
  intro y hy
  cases y with
  | operand left' => rw [h left' (Condition.operand.inj hy)]
  | _ => cases hy

end Conditions

/-! ## Chains -/

theorem conjunction : ∀ {c : Conjunction}, (∀ x ∈ c.conditions, Placeless x) → Placeless c
  | .single x, h, y, hy => by
    cases y with
    | single x' => rw [h x (List.mem_singleton_self x) x' (Conjunction.single.inj hy)]
    | and => cases hy
  | .and left x, h, y, hy => by
    cases y with
    | single => cases hy
    | and left' x' =>
      obtain ⟨hLeft, hx⟩ := Conjunction.and.inj hy
      rw [conjunction (fun z hz => h z (List.mem_append_left _ hz)) left' hLeft,
        h x (List.mem_append_right _ (List.mem_singleton_self x)) x' hx]

theorem expr {c : Conjunction} (h : Placeless c) : Placeless (Expr.single c) := by
  intro y hy
  cases y with
  | single c' => rw [h c' (Expr.single.inj hy)]
  | or => cases hy

theorem toExpr {t : Term} (h : Placeless t) : Placeless t.toExpr :=
  expr (conjunction (by simpa [Conjunction.conditions] using h.toOperand.operand))

/-! ## Queries -/

theorem result {e : Expr} (h : Placeless e) : Placeless (ResultColumn.expr e .none) := by
  intro y hy
  cases y with
  | expr e' asName =>
    obtain ⟨hExpr, hName⟩ := ResultColumn.expr.inj hy
    rw [h e' hExpr, Option.map_eq_none_iff.mp hName.symm]
  | _ => cases hy

theorem star : Placeless ResultColumn.star := by
  intro y hy
  cases y with
  | star => rfl
  | _ => cases hy

/-- A table as the only source. -/
theorem table (q : QualifiedName) : Placeless (JoinClause.single (.table q .none)) := by
  have hSame : ∀ q : QualifiedName, q.erase .spans = q := fun q => by
    simp [QualifiedName.erase, Erasure.spans]
  intro y hy
  match y with
  | .single (.table q' asName) =>
    obtain ⟨hName, hNone⟩ := Source.table.inj (JoinClause.single.inj hy)
    rw [Option.map_eq_none_iff.mp hNone.symm, ← hSame q', ← hName, hSame q]
  | .single (.subquery ..) | .single (.nested ..) | .join .. => cases hy

end Placeless

end SqlKit
