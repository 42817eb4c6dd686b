import SqlKit.Schema.Basic
import Mathlib.Tactic.Common

/-!
# Marks of columns

What a column is a part of is told twice: by a mark of the column, and by the names that the keys of
its table list. `Agree mark holds cs` says that both tell the same of every column. For each way in
which columns change, a lemma says exactly when the agreement is kept:

* `Agree.append_iff`: one more column, which brings its own name into the keys;
* `Agree.renamed_iff`: another name for a column, in the keys as well.

Nothing is asked of the names. Several columns may have one name, of which a change concerns the
first, and a key may list a name that no column has; these are the cases that come apart.
-/

namespace SqlKit

open Text

/-! ## The first entry of a kind, and the others -/

/-- Of a list with its first entry of a kind changed: the changed entry, and the others. -/
theorem forall_mem_updateFirst_iff {α : Type} {P : α → Prop} {p : α → Bool} {f : α → α}
    {as : List α} : (∀ a ∈ updateFirst p f as, P a) ↔
      (∀ a ∈ as.find? p, P (f a)) ∧ ∀ a ∈ as.eraseP p, P a := by
  induction as with
  | nil => simp [updateFirst]
  | cons a as ih =>
    by_cases hp : p a
    · simp [updateFirst, hp]
    · simp only [updateFirst, hp, Bool.false_eq_true, ↓reduceIte, List.forall_mem_cons, ih,
        List.find?_cons, List.eraseP_cons, cond_false]
      exact and_left_comm

/-- What a change of the first entry of a kind keeps. -/
theorem forall_mem_updateFirst {α : Type} {P : α → Prop} {p : α → Bool} {f : α → α} {as : List α}
    (h : ∀ a ∈ as, P a) (hf : ∀ a, P a → P (f a)) : ∀ a ∈ updateFirst p f as, P a :=
  forall_mem_updateFirst_iff.mpr ⟨fun a ha => hf a (h a (List.mem_of_find?_eq_some ha)),
    fun a ha => h a (List.mem_of_mem_eraseP ha)⟩

/-- The entries of a list are the first one of a kind and the others. -/
theorem forall_mem_iff_find?_eraseP {α : Type} {P : α → Prop} (p : α → Bool) (as : List α) :
    (∀ a ∈ as, P a) ↔ (∀ a ∈ as.find? p, P a) ∧ ∀ a ∈ as.eraseP p, P a := by
  induction as with
  | nil => simp
  | cons a as ih =>
    by_cases hp : p a
    · simp [hp]
    · simp only [List.forall_mem_cons, ih, List.find?_cons, List.eraseP_cons, hp, cond_false]
      exact and_left_comm

/-- A change of an entry that something does not see. -/
theorem forall_mem_updateFirst_of_iff {α : Type} {P : α → Prop} {p : α → Bool} {f : α → α}
    (h : ∀ a, P (f a) ↔ P a) {as : List α} :
    (∀ a ∈ updateFirst p f as, P a) ↔ ∀ a ∈ as, P a := by
  rw [forall_mem_updateFirst_iff, forall_mem_iff_find?_eraseP p as]
  simp only [h]

/-! ## Lists of names -/

/-- Whether names are held does not depend on their letter case. -/
def CaseBlind (holds : String → Bool) : Prop :=
  ∀ ⦃a b : String⦄, sameName a b = true → holds a = holds b

theorem caseBlind_hasName (names : List String) : CaseBlind (hasName names) := by
  intro a b hSame
  have hOf : ∀ n, sameName n a = sameName n b := fun n => by
    rw [sameName, sameName, sameName_iff.mp hSame]
  simp only [hasName, hOf]

@[simp] theorem hasName_nil (n : String) : hasName [] n = false := rfl

@[simp] theorem hasName_cons (name : String) (names : List String) (n : String) :
    hasName (name :: names) n = (sameName name n || hasName names n) := rfl

@[simp] theorem hasName_append (names others : List String) (n : String) :
    hasName (names ++ others) n = (hasName names n || hasName others n) := List.any_append

/-- The names that are held once one of them is replaced. -/
def renamedHolds (holds : String → Bool) (column newName name : String) : Bool :=
  holds column && sameName newName name || holds name && !sameName name column

theorem hasName_replaceName (column newName : String) (names : List String) (n : String) :
    hasName (replaceName column newName names) n =
      renamedHolds (hasName names) column newName n := by
  induction names with
  | nil => rfl
  | cons name names ih =>
    have hReplaced : hasName (replaceName column newName (name :: names)) n =
        (sameName (if sameName name column then newName else name) n ||
          hasName (replaceName column newName names) n) := rfl
    rw [hReplaced, ih, renamedHolds, renamedHolds, hasName_cons, hasName_cons]
    by_cases hOld : sameName name column = true
    · have hSame : sameName name n = sameName n column := by
        rw [sameName_comm n, sameName, sameName, sameName_iff.mp hOld]
      rw [if_pos hOld, hOld, hSame]
      cases sameName newName n <;> cases sameName n column <;> simp
    · rw [if_neg hOld, Bool.eq_false_iff.mpr hOld]
      cases hSame : sameName name n with
      | false => simp
      | true =>
        have hNot : sameName n column = false := by
          rw [sameName, ← sameName_iff.mp hSame]
          exact Bool.eq_false_iff.mpr hOld
        simp [hNot]

/-- Without the entries for one name, the others are held as before. -/
theorem hasName_filter {name n : String} (hOther : sameName n name = false) (names : List String) :
    hasName (names.filter (!sameName · name)) n = hasName names n := by
  induction names with
  | nil => rfl
  | cons m names ih =>
    rw [List.filter_cons, hasName_cons]
    split
    · rw [hasName_cons, ih]
    · next hDropped =>
      have hName : sameName m name = true := by simpa using hDropped
      have hNot : sameName m n = false := by
        rw [← hOther, sameName, sameName, sameName_iff.mp hName, Bool.beq_comm]
      rw [ih, hNot, Bool.false_or]

/-! ## Tables

What changes of a table leave of its columns and of its primary key. -/

namespace Table

variable {t : Table}

@[simp] theorem addUniqueKey_columns (name : Option String) (columns : List String) :
    (t.addUniqueKey name columns).columns = t.columns := by
  unfold addUniqueKey
  split <;> rfl

@[simp] theorem addUniqueKey_primaryKey (name : Option String) (columns : List String) :
    (t.addUniqueKey name columns).primaryKey = t.primaryKey := by
  unfold addUniqueKey
  split <;> rfl

@[simp] theorem addColumn_columns (d : ColumnDefinition) :
    (t.addColumn d).columns = t.columns ++ [.ofDefinition d] := by
  unfold addColumn
  dsimp only
  split <;> split <;> simp

@[simp] theorem addUnique_primaryKey (name : Option String) (columns : List String) :
    (t.addUnique name columns).primaryKey = t.primaryKey := by
  unfold addUnique
  split <;> simp [updateColumn]

@[simp] theorem redefineColumn_columns (column : String) (d : ColumnDefinition) :
    (t.redefineColumn column d).columns =
      updateFirst (Column.isNamed column) (Column.redefined d) t.columns := by
  unfold redefineColumn
  split <;> simp [updateColumn]

@[simp] theorem redefineColumn_primaryKey (column : String) (d : ColumnDefinition) :
    (t.redefineColumn column d).primaryKey = t.primaryKey := by
  unfold redefineColumn
  split <;> simp [updateColumn]

end Table

/-! ## Agreement -/

/-- Every column is marked exactly if its name is held. -/
def Agree (mark : Column → Bool) (holds : String → Bool) (cs : List Column) : Prop :=
  ∀ c ∈ cs, mark c = holds c.name

/-- What a column must be like to stand behind others: it has the mark if its name is held already,
and where it brings its name along no other column has that name. -/
structure Joins (mark : Column → Bool) (holds : String → Bool) (cs : List Column) (c : Column) :
    Prop where
  marked : holds c.name = true → mark c = true
  alone : mark c = true → holds c.name = false → ∀ d ∈ cs, d.isNamed c.name = false

/-- What a new name must be like for the first column of a name: it is the old name in other
letters, or it is not held in place of the old one, no other column has the old name while that is
held, and none has the new name unless that is held too. -/
def Renames (holds : String → Bool) (cs : List Column) (column newName : String) : Prop :=
  sameName column newName = true ∨
    ((cs.find? (Column.isNamed column)).isSome → holds newName = true → holds column = true) ∧
    (holds column = true → ∀ c ∈ cs.eraseP (Column.isNamed column),
      c.isNamed column = false ∧ (c.isNamed newName = true → holds newName = true))

namespace Agree

variable {mark : Column → Bool} {holds : String → Bool} {cs : List Column}

/-- The names that are held once a column brings its own along. -/
def joinedHolds (mark : Column → Bool) (holds : String → Bool) (c : Column) (name : String) :
    Bool :=
  holds name || mark c && sameName c.name name

/-- A change of a column in other respects. -/
theorem changed (h : Agree mark holds cs) (p : Column → Bool) {f : Column → Column}
    (hf : ∀ c, (f c).name = c.name ∧ mark (f c) = mark c) : Agree mark holds (updateFirst p f cs) :=
  (forall_mem_updateFirst_of_iff fun c => by rw [(hf c).1, (hf c).2]).mpr h

/-- Without the columns of a name, and without the entries for that name. -/
theorem without {names : List String} (h : Agree mark (hasName names) cs) (name : String) :
    Agree mark (hasName (names.filter (!sameName · name))) (cs.filter (!·.isNamed name)) := by
  intro c hc
  obtain ⟨hMem, hOther⟩ := List.mem_filter.mp hc
  have hNot : sameName c.name name = false := by simpa [Column.isNamed] using hOther
  rw [hasName_filter hNot]
  exact h c hMem

/-- One more column, which brings its own name along if it is marked. -/
theorem append_iff (hBlind : CaseBlind holds) (h : Agree mark holds cs) (c : Column) :
    Agree mark (joinedHolds mark holds c) (cs ++ [c]) ↔ Joins mark holds cs c := by
  have hLast : mark c = joinedHolds mark holds c c.name ↔
      (holds c.name = true → mark c = true) := by
    cases hMark : mark c <;> cases hHeld : holds c.name <;> simp [joinedHolds, hMark, hHeld]
  have hOther : ∀ d ∈ cs, mark d = joinedHolds mark holds c d.name ↔
      (mark c = true → holds c.name = false → d.isNamed c.name = false) := by
    intro d hd
    rw [h d hd, joinedHolds, Column.isNamed, sameName_comm d.name]
    cases hSame : sameName c.name d.name with
    | false => simp
    | true =>
      rw [← hBlind hSame]
      cases hMark : mark c <;> cases hHeld : holds c.name <;> simp
  constructor
  · intro hAll
    refine ⟨hLast.mp (hAll c (by simp)), fun hMark hHeld d hd => ?_⟩
    exact (hOther d hd).mp (hAll d (List.mem_append_left _ hd)) hMark hHeld
  · intro hJoins
    refine List.forall_mem_append.mpr ⟨fun d hd => ?_, ?_⟩
    · exact (hOther d hd).mpr fun hMark hHeld => hJoins.alone hMark hHeld d hd
    · exact List.forall_mem_singleton.mpr (hLast.mpr hJoins.marked)

variable {column newName : String}

/-- The new name is held if the old one was, or if it was held before and is not the old one. -/
theorem renamedHolds_newName (hBlind : CaseBlind holds) :
    renamedHolds holds column newName newName = (holds column || holds newName) := by
  rw [renamedHolds, sameName_refl, Bool.and_true]
  cases hSame : sameName newName column with
  | false => simp
  | true => simp [hBlind hSame]

/-- In other letters the old name is held as it was. -/
theorem renamedHolds_sameName (hBlind : CaseBlind holds) (hCase : sameName column newName = true)
    (name : String) : renamedHolds holds column newName name = holds name := by
  have hNew : sameName newName name = sameName name column := by
    rw [sameName_comm name column, sameName, sameName, sameName_iff.mp hCase]
  rw [renamedHolds, hNew]
  cases hSame : sameName name column with
  | false => simp
  | true => simp [hBlind hSame]

/-- Under another name, a column that is not renamed is held as before unless it has one of the two
names. -/
theorem eq_renamedHolds_iff (hBlind : CaseBlind holds) (hCase : sameName column newName = false)
    (c : Column) : holds c.name = renamedHolds holds column newName c.name ↔
      (holds column = true → c.isNamed column = false ∧
        (c.isNamed newName = true → holds newName = true)) := by
  rw [renamedHolds, sameName_comm newName, Column.isNamed, Column.isNamed]
  cases hOld : sameName c.name column with
  | true =>
    have hNew : sameName c.name newName = false := by
      rw [Bool.eq_false_iff]
      intro hNew
      rw [sameName_comm] at hOld
      rw [sameName_trans hOld hNew] at hCase
      cases hCase
    simp [hNew, hBlind hOld]
  | false =>
    cases hNew : sameName c.name newName with
    | false => simp
    | true => simp [hBlind hNew]

/-- Another name for the first column of a name, here and among the names that are held. -/
theorem renamed_iff (hBlind : CaseBlind holds) (h : Agree mark holds cs)
    (hMark : ∀ c : Column, mark (c.renamed newName) = mark c) :
    Agree mark (renamedHolds holds column newName)
        (updateFirst (Column.isNamed column) (Column.renamed newName) cs) ↔
      Renames holds cs column newName := by
  have hHeld : ∀ c ∈ cs.find? (Column.isNamed column), mark c = holds column := fun c hc =>
    have hNamed : c.isNamed column = true := List.find?_some hc
    (h c (List.mem_of_find?_eq_some hc)).trans (hBlind hNamed)
  have hOthers : ∀ c ∈ cs.eraseP (Column.isNamed column), mark c = holds c.name :=
    ((forall_mem_iff_find?_eraseP _ _).mp h).2
  rw [Agree, forall_mem_updateFirst_iff, Renames]
  cases hCase : sameName column newName with
  | true =>
    refine iff_of_true ⟨fun c hc => ?_, fun c hc => ?_⟩ (Or.inl rfl)
    · rw [hMark, hHeld c hc, renamedHolds_sameName hBlind hCase]
      exact hBlind hCase
    · rw [hOthers c hc, renamedHolds_sameName hBlind hCase]
  | false =>
    rw [or_iff_right Bool.false_ne_true]
    refine and_congr ?_ ?_
    · have hName : ∀ c : Column, (c.renamed newName).name = newName := fun _ => rfl
      simp only [hMark, hName, renamedHolds_newName hBlind]
      cases hFind : cs.find? (Column.isNamed column) with
      | none => simp
      | some c => simp [hHeld c hFind]
    · constructor
      · intro hAll hOld c hc
        exact (eq_renamedHolds_iff hBlind hCase c).mp ((hOthers c hc).symm.trans (hAll c hc)) hOld
      · intro hAll c hc
        rw [hOthers c hc, eq_renamedHolds_iff hBlind hCase c]
        exact fun hOld => hAll hOld c hc

end Agree

end SqlKit
