import SqlKit.Batch
import SqlKit.Proofs.Schema.Runs

/-!
# Primary keys of schemas

A column is marked as a part of the primary key, and the key lists names of columns. Statements that
are read without an error can set the two against each other: a constraint may list a column that is
defined behind it, a second constraint replaces the list and leaves the marks of the first, and a
new definition marks a column without listing it. `Statement.KeepsKey` says of each statement, in
the schema that it meets, when it does not, and `Schema.keyAgrees_states_iff` says that the marks
and the lists agree after each statement of a run exactly if every statement keeps to that.
-/

namespace SqlKit

open Text

/-! ## Agreement of marks and key -/

/-- Every column of a table is marked as a part of the primary key exactly if the key lists it. -/
def Table.KeyAgrees (t : Table) : Prop :=
  ∀ c ∈ t.columns, c.primaryKey = true ↔ ∃ n ∈ t.primaryKey, sameName n c.name = true

namespace Table

variable {t : Table}

instance (t : Table) : Decidable t.KeyAgrees :=
  inferInstanceAs
    (Decidable (∀ c ∈ t.columns, c.primaryKey = true ↔
    ∃ n ∈ t.primaryKey, sameName n c.name = true))

theorem keyAgrees_iff : t.KeyAgrees ↔ Agree (·.primaryKey) (hasName t.primaryKey) t.columns := by
  refine forall₂_congr fun c _ => ?_
  rw [← List.any_eq_true, ← Bool.eq_iff_iff]
  rfl

/-- A column marked unique by a constraint is a part of the primary key as before. -/
theorem forall_addUnique_iff {P : Bool → String → Prop} (name : Option String)
    (columns : List String) :
    (∀ c ∈ (t.addUnique name columns).columns, P c.primaryKey c.name) ↔
      ∀ c ∈ t.columns, P c.primaryKey c.name := by
  unfold addUnique
  split
  · rw [addUniqueKey_columns]
    exact forall_mem_updateFirst_of_iff (P := fun c : Column => P c.primaryKey c.name)
      (f := fun c : Column => { c with unique := true }) fun _ => Iff.rfl
  · rw [addUniqueKey_columns]

/-- A column added to a table is listed by the key if it is marked. -/
theorem hasName_addColumn (d : ColumnDefinition) (n : String) :
    hasName (t.addColumn d).primaryKey n =
      Agree.joinedHolds (·.primaryKey) (hasName t.primaryKey) (.ofDefinition d) n := by
  have hKey : (t.addColumn d).primaryKey =
      if d.isPrimaryKey && !hasName t.primaryKey d.name then t.primaryKey ++ [d.name]
      else t.primaryKey := by
    have hDefinition : (Column.ofDefinition d).primaryKey = d.isPrimaryKey := rfl
    have hName : (Column.ofDefinition d).name = d.name := rfl
    unfold addColumn
    dsimp only
    rw [hDefinition, hName]
    split <;> split <;> simp
  rw [hKey]
  change _ = (hasName t.primaryKey n || d.isPrimaryKey && sameName d.name n)
  cases hMark : d.isPrimaryKey with
  | false => simp
  | true =>
    cases hThere : hasName t.primaryKey d.name with
    | false => simp [hasName]
    | true =>
      cases hSame : sameName d.name n with
      | false => simp
      | true => simp [← caseBlind_hasName _ hSame, hThere]

end Table

/-! ## What a definition says -/

namespace TableElement

/-- Whether an entry of a definition is a constraint that has the primary key list a name. -/
def keysName (name : String) : TableElement → Bool
  | .constraint ⟨_, .primaryKey _ columns, _⟩ => hasName columns name
  | _ => false

/-- The primary key after one more entry of a definition. -/
def keyAfter (key : List String) : TableElement → List String
  | .column d => if d.isPrimaryKey && !hasName key d.name then key ++ [d.name] else key
  | .constraint ⟨_, .primaryKey _ columns, _⟩ => columns
  | .constraint _ => key

end TableElement

/-- The primary key that a definition leaves: that of its last constraint for it, with the columns
behind that one that ask to be a part of it. -/
def statedKey (es : List TableElement) : List String := es.foldl TableElement.keyAfter []

/-- The primary key that a definition leaves lists a column exactly if the column asks for it, or a
constraint behind the column does. -/
def KeyStated (es : List TableElement) : Prop :=
  EachColumn (fun _ d behind => hasName (statedKey es) d.name = true ↔
    d.isPrimaryKey = true ∨ ∃ e ∈ behind, e.keysName d.name = true) es

namespace Table

variable {t : Table}

theorem addConstraint_key (c : Constraint) :
    (t.addConstraint c).primaryKey = (TableElement.constraint c).keyAfter t.primaryKey := by
  obtain ⟨name, demand, span⟩ := c
  cases demand with
  | unique columns => exact addUnique_primaryKey name columns
  | check | primaryKey | foreignKey => rfl

theorem forall_addConstraint_iff {P : Bool → String → Prop} (c : Constraint) :
    (∀ k ∈ (t.addConstraint c).columns, P k.primaryKey k.name) ↔
      ∀ k ∈ t.columns, P (k.primaryKey || (TableElement.constraint c).keysName k.name) k.name := by
  obtain ⟨name, demand, span⟩ := c
  have hSame : (∀ k ∈ t.columns, P k.primaryKey k.name) ↔
      ∀ k ∈ t.columns, P (k.primaryKey || false) k.name := by
    simp only [Bool.or_false]
  cases demand with
  | unique columns => exact (forall_addUnique_iff name columns).trans hSame
  | check | foreignKey => exact hSame
  | primaryKey hash columns =>
    refine List.forall_mem_map.trans (forall₂_congr fun k _ => ?_)
    change _ ↔ P (k.primaryKey || hasName columns k.name) k.name
    split
    · next hListed => simp [hListed, Column.asPrimaryKey]
    · next hListed => simp [hListed]

/-- What the entries of a definition make of the primary key. -/
theorem foldl_addElement_key (es : List TableElement) :
    (es.foldl addElement t).primaryKey = es.foldl TableElement.keyAfter t.primaryKey := by
  induction es generalizing t with
  | nil => rfl
  | cons e es ih =>
    have hFirst : (t.addElement e).primaryKey = e.keyAfter t.primaryKey := by
      cases e with
      | constraint c => exact addConstraint_key c
      | column d =>
        unfold addElement addColumn TableElement.keyAfter
        dsimp only [Column.ofDefinition]
        split <;> split <;> simp
    rw [List.foldl_cons, List.foldl_cons, ih, hFirst]

/-- What the entries of a definition make of the marks: a column has its mark by itself, or by a
constraint behind it. -/
theorem forall_foldl_addElement_iff {P : Bool → String → Prop} (es : List TableElement) :
    (∀ c ∈ (es.foldl addElement t).columns, P c.primaryKey c.name) ↔
      (∀ c ∈ t.columns, P (c.primaryKey || es.any (·.keysName c.name)) c.name) ∧
        EachColumn (fun _ d behind => P (d.isPrimaryKey || behind.any (·.keysName d.name)) d.name)
          es := by
  induction es generalizing t with
  | nil => simp [EachColumn]
  | cons e es ih =>
    rw [List.foldl_cons, ih, EachColumn, EachSplit.cons]
    cases e with
    | column d =>
      simp only [addElement, addColumn_columns, List.forall_mem_append, List.forall_mem_singleton,
        List.any_cons, TableElement.keysName, Bool.false_or, TableElement.column.injEq,
        forall_eq', and_assoc]
      rfl
    | constraint c =>
      have hFirst := forall_addConstraint_iff (t := t)
        (P := fun mark name => P (mark || es.any (·.keysName name)) name) c
      simp only [addElement, hFirst, List.any_cons, Bool.or_assoc, reduceCtorEq, false_implies,
        implies_true, true_and]

/-- In a table as it is defined, marks and key agree exactly if the definition says so of every
column. -/
theorem keyAgrees_ofCreateTable_iff (c : CreateTable) :
    (ofCreateTable c).KeyAgrees ↔ KeyStated c.elements := by
  have hKey : (ofCreateTable c).primaryKey = statedKey c.elements := foldl_addElement_key c.elements
  rw [keyAgrees_iff, hKey, Agree, ofCreateTable,
    forall_foldl_addElement_iff (P := fun mark name => mark = hasName (statedKey c.elements) name)]
  refine (and_iff_right (by simp)).trans (forall₄_congr fun _ _ _ _ => forall₂_congr fun d _ => ?_)
  dsimp only
  rw [← List.any_eq_true, ← Bool.or_eq_true, ← Bool.eq_iff_iff, eq_comm]

end Table

/-! ## What a change keeps -/

/-- When a change of a table leaves marks and primary key in agreement: a new column joins the key
under a name of its own, a constraint does not take a column out of the key, another name does not
stand for a second column, and a new definition does not ask for a key that the column is not in. -/
def AlterAction.KeepsKey (t : Table) : AlterAction → Prop
  | .addColumn d => Joins (·.primaryKey) (hasName t.primaryKey) t.columns (.ofDefinition d)
  | .addConstraint ⟨_, .primaryKey _ columns, _⟩ =>
    ∀ c ∈ t.columns, c.primaryKey = true → hasName columns c.name = true
  | .alterColumn column (.rename newName) | .renameColumn column newName =>
    Renames (hasName t.primaryKey) t.columns column newName
  | .alterColumn column (.redefine d) => (t.column? column).isSome →
    (hasName t.primaryKey d.name = true ↔
      hasName t.primaryKey column = true ∨ d.isPrimaryKey = true)
  | _ => True

/-- When a statement leaves marks and primary keys in agreement. -/
def Statement.KeepsKey (s : Schema) : Statement → Prop
  | .createTable c => KeyStated c.elements
  | .alterTable a => ∀ t ∈ s.table? a.table.name, a.action.KeepsKey t
  | _ => True

namespace Table.KeyAgrees

variable {t : Table}

theorem addColumn_iff (h : t.KeyAgrees) (d : ColumnDefinition) :
    (t.addColumn d).KeyAgrees ↔ (AlterAction.addColumn d).KeepsKey t := by
  rw [keyAgrees_iff, addColumn_columns, funext (hasName_addColumn d)]
  exact Agree.append_iff (caseBlind_hasName _) (keyAgrees_iff.mp h) _

theorem addConstraint_iff (h : t.KeyAgrees) (c : Constraint) :
    (t.addConstraint c).KeyAgrees ↔ (AlterAction.addConstraint c).KeepsKey t := by
  rw [keyAgrees_iff, addConstraint_key, Agree, forall_addConstraint_iff
    (P := fun mark name => mark = hasName ((TableElement.constraint c).keyAfter t.primaryKey) name)]
  obtain ⟨name, demand, span⟩ := c
  cases demand with
  | primaryKey hash columns =>
    refine forall₂_congr fun c _ => ?_
    change (c.primaryKey || hasName columns c.name) = hasName columns c.name ↔ _
    cases c.primaryKey <;> simp
  | unique | check | foreignKey =>
    refine iff_of_true (fun c hc => ?_) trivial
    exact (Bool.or_false _).trans (keyAgrees_iff.mp h c hc)

theorem renameColumn_iff (h : t.KeyAgrees) (column newName : String) :
    (t.renameColumn column newName).KeyAgrees ↔
      Renames (hasName t.primaryKey) t.columns column newName := by
  rw [keyAgrees_iff, renameColumn, funext (hasName_replaceName column newName t.primaryKey)]
  exact Agree.renamed_iff (caseBlind_hasName _) (keyAgrees_iff.mp h) fun _ => rfl

theorem redefineColumn_iff (h : t.KeyAgrees) (column : String) (d : ColumnDefinition) :
    (t.redefineColumn column d).KeyAgrees ↔
      (AlterAction.alterColumn column (.redefine d)).KeepsKey t := by
  rw [keyAgrees_iff] at h
  have hOthers := ((forall_mem_iff_find?_eraseP (Column.isNamed column) _).mp h).2
  rw [keyAgrees_iff, redefineColumn_columns, redefineColumn_primaryKey, Agree,
    forall_mem_updateFirst_iff, and_iff_left hOthers]
  have hRedefined : ∀ c : Column, (c.redefined d).name = d.name ∧
      (c.redefined d).primaryKey = (c.primaryKey || d.isPrimaryKey) := fun c => by
    unfold Column.redefined
    dsimp only
    split
    · next hMark => exact ⟨rfl, by simp [hMark, Column.asPrimaryKey]⟩
    · next hMark => exact ⟨rfl, by simp [hMark, Column.ofDefinition]⟩
  change _ ↔ ((t.columns.find? (Column.isNamed column)).isSome → _)
  cases hFind : t.columns.find? (Column.isNamed column) with
  | none => simp
  | some c =>
    have hNamed : c.isNamed column = true := List.find?_some hFind
    have hMark : c.primaryKey = hasName t.primaryKey column :=
      (h c (List.mem_of_find?_eq_some hFind)).trans (caseBlind_hasName _ hNamed)
    simp only [Option.mem_some_iff, forall_eq', hRedefined, hMark, Option.isSome_some, true_implies]
    rw [← Bool.or_eq_true, ← Bool.eq_iff_iff, eq_comm]

theorem updateColumn (h : t.KeyAgrees) (name : String) {f : Column → Column}
    (hf : ∀ c, (f c).name = c.name ∧ (f c).primaryKey = c.primaryKey) :
    (t.updateColumn name f).KeyAgrees :=
  keyAgrees_iff.mpr ((keyAgrees_iff.mp h).changed _ hf)

theorem dropPrimaryKey (t : Table) : t.dropPrimaryKey.KeyAgrees := by
  intro c hc
  obtain ⟨c, -, rfl⟩ := List.mem_map.mp hc
  simp [Table.dropPrimaryKey]

theorem alter_iff (h : t.KeyAgrees) (action : AlterAction) :
    (t.alter action).KeyAgrees ↔ action.KeepsKey t := by
  cases action with
  | addColumn d => exact h.addColumn_iff d
  | addConstraint c => exact h.addConstraint_iff c
  | renameColumn column newName => exact h.renameColumn_iff column newName
  | alterColumn column change =>
    cases change with
    | rename newName => exact h.renameColumn_iff column newName
    | redefine d => exact h.redefineColumn_iff column d
    | setNotNull | dropNotNull | setNull =>
      exact iff_of_true (h.updateColumn column fun _ => ⟨rfl, rfl⟩) trivial
    | setDefault | dropDefault => exact iff_of_true h trivial
  | dropColumn column =>
    exact iff_of_true (keyAgrees_iff.mpr ((keyAgrees_iff.mp h).without column)) trivial
  | dropPrimaryKey => exact iff_of_true (.dropPrimaryKey t) trivial
  | dropConstraint | renameTable => exact iff_of_true h trivial

end Table.KeyAgrees

/-! ## Runs -/

/-- After each statement of a run, every column is marked as a part of the primary key exactly if
the key of its table lists it, if and only if each statement leaves it so. -/
theorem Schema.keyAgrees_states_iff (xs : List Statement) :
    (∀ s ∈ empty.states xs, ∀ t ∈ s.tables, t.KeyAgrees) ↔
      empty.Throughout Statement.KeepsKey xs := by
  refine forall_states_iff (fun s x _ hs => ?_) (by simp [empty])
  cases x with
  | createTable c => exact Table.keyAgrees_ofCreateTable_iff c
  | alterTable a =>
    refine forall₂_congr fun t ht => ?_
    exact (hs t (List.mem_of_find?_eq_some ht)).alter_iff a.action
  | dropTable | insert | update | delete | select => exact Iff.rfl

/-- A key that is listed in front of its column leaves that column without the mark. -/
theorem Schema.not_keyAgrees_listed_before :
    (parse .standard "CREATE TABLE t (PRIMARY KEY (a), a INT NOT NULL)").errors = [] ∧
      ¬ ∀ s ∈ empty.states
          (parse .standard "CREATE TABLE t (PRIMARY KEY (a), a INT NOT NULL)").statements,
        ∀ t ∈ s.tables, t.KeyAgrees := by
  decide +kernel

end SqlKit
