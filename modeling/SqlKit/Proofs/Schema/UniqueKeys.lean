import SqlKit.Batch
import SqlKit.Proofs.Schema.Runs
import Mathlib.Data.List.Basic

/-!
# Unique keys of schemas

A column is marked as unique, and a key over that column alone stands among the unique keys of its
table. The two are told in different places: a constraint marks the first column of its name, if
there is one by then, and adds the key in any case; a constraint that is dropped takes its key along
and leaves the mark. `Statement.KeepsUnique` says of each statement, in the schema that it meets,
when marks and keys stay in agreement, and `Schema.uniqueAgrees_states_iff` says that they agree
after each statement of a run exactly if every statement keeps to that.
-/

namespace SqlKit

open Text

/-! ## Keys over one column -/

/-- The column of a key over one column. -/
def UniqueKey.single? (k : UniqueKey) : Option String :=
  match k.columns with
  | [name] => some name
  | _ => none

/-- The columns that have a unique key of their own. -/
def singleKeys (keys : List UniqueKey) : List String := keys.filterMap UniqueKey.single?

@[simp] theorem singleKeys_nil : singleKeys [] = [] := rfl

theorem singleKeys_cons (k : UniqueKey) (keys : List UniqueKey) :
    singleKeys (k :: keys) = k.single?.toList ++ singleKeys keys := by
  rw [singleKeys, List.filterMap_cons]
  cases k.single? <;> rfl

theorem UniqueKey.single?_eq_some {k : UniqueKey} {name : String} :
    k.single? = some name ↔ k.columns = [name] := by
  unfold single?
  split <;> simp_all

theorem sameNames_iff {as bs : List String} :
    sameNames as bs = true ↔ as.map String.toLower = bs.map String.toLower := by
  induction as generalizing bs with
  | nil => cases bs <;> simp [sameNames]
  | cons a as ih =>
    cases bs with
    | nil => simp [sameNames]
    | cons b bs => simp [sameNames, ih, sameName_iff]

/-- A key over one column is one that has the name of that column, up to letter case. -/
theorem UniqueKey.isOver_singleton {k : UniqueKey} {name : String} :
    k.isOver [name] = true ↔ ∃ n, k.single? = some n ∧ sameName n name = true := by
  rw [isOver, sameNames_iff]
  simp only [single?_eq_some, List.map_cons, List.map_nil, List.map_eq_singleton_iff, sameName_iff]

theorem hasName_singleKeys {keys : List UniqueKey} {name : String} :
    hasName (singleKeys keys) name = true ↔ ∃ k ∈ keys, k.isOver [name] = true := by
  simp only [hasName, singleKeys, List.any_eq_true, List.mem_filterMap, UniqueKey.isOver_singleton]
  constructor
  · rintro ⟨n, ⟨k, hk, hSingle⟩, hSame⟩
    exact ⟨k, hk, n, hSingle, hSame⟩
  · rintro ⟨k, hk, n, hSingle, hSame⟩
    exact ⟨n, ⟨k, hk, hSingle⟩, hSame⟩

/-- The keys over one column stay, in their order, where keys take a name. -/
theorem singleKeys_withName (p : UniqueKey → Bool) (name : Option String) (keys : List UniqueKey) :
    singleKeys (updateFirst p (·.withName name) keys) = singleKeys keys := by
  induction keys with
  | nil => rfl
  | cons k keys ih =>
    have hSingle : (k.withName name).single? = k.single? := rfl
    rw [updateFirst]
    split
    · rw [singleKeys_cons, singleKeys_cons, hSingle]
    · rw [singleKeys_cons, singleKeys_cons, ih]

theorem singleKeys_rename (column newName : String) (keys : List UniqueKey) :
    singleKeys (keys.map fun k => { k with columns := replaceName column newName k.columns }) =
      replaceName column newName (singleKeys keys) := by
  rw [singleKeys, List.filterMap_map, replaceName, singleKeys, List.map_filterMap]
  refine List.filterMap_congr fun k _ => ?_
  obtain ⟨name, _ | ⟨single, _ | ⟨second, rest⟩⟩⟩ := k <;> rfl

theorem singleKeys_dropColumn (column : String) (keys : List UniqueKey) :
    singleKeys (keys.filter (!hasName ·.columns column)) =
      (singleKeys keys).filter (!sameName · column) := by
  rw [singleKeys, List.filterMap_filter, singleKeys, List.filter_filterMap]
  refine List.filterMap_congr fun k _ => ?_
  obtain ⟨name, _ | ⟨single, _ | ⟨second, rest⟩⟩⟩ := k
  · rfl
  · change (if !(sameName single column || false) then some single else none) =
      Option.filter (!sameName · column) (some single)
    rw [Bool.or_false]
    rfl
  · exact ite_self none

/-- One more key, if it is over one column, adds that column to those with a key of their own. -/
theorem hasName_addUniqueKey (t : Table) (name : Option String) (columns : List String)
    (n : String) :
    hasName (singleKeys (t.addUniqueKey name columns).uniqueKeys) n =
      (hasName (singleKeys t.uniqueKeys) n || sameNames columns [n]) := by
  unfold Table.addUniqueKey
  split
  · next hThere =>
    obtain ⟨k, hk, hOver⟩ := List.any_eq_true.mp hThere
    have hHeld : sameNames columns [n] = true → hasName (singleKeys t.uniqueKeys) n = true := by
      intro hSingle
      refine hasName_singleKeys.mpr ⟨k, hk, ?_⟩
      exact sameNames_iff.mpr ((sameNames_iff.mp hOver).trans (sameNames_iff.mp hSingle))
    rw [singleKeys_withName]
    cases hSame : sameNames columns [n] with
    | false => simp
    | true => simp [hHeld hSame]
  · rw [Bool.eq_iff_iff, Bool.or_eq_true, hasName_singleKeys, hasName_singleKeys]
    simp [or_and_right, exists_or, UniqueKey.isOver]

/-! ## Agreement of marks and keys -/

/-- Every column of a table is marked as unique exactly if there is a unique key over it alone. -/
def Table.UniqueAgrees (t : Table) : Prop :=
  ∀ c ∈ t.columns, c.unique = true ↔
    ∃ k ∈ t.uniqueKeys, ∃ n, k.columns = [n] ∧ sameName n c.name = true

theorem Table.uniqueAgrees_iff {t : Table} :
    t.UniqueAgrees ↔ Agree (·.unique) (hasName (singleKeys t.uniqueKeys)) t.columns := by
  refine forall₂_congr fun c _ => (iff_congr Iff.rfl ?_).trans Bool.eq_iff_iff.symm
  simp only [hasName_singleKeys, UniqueKey.isOver_singleton, UniqueKey.single?_eq_some]

instance (t : Table) : Decidable t.UniqueAgrees :=
  decidable_of_iff (∀ c ∈ t.columns, c.unique = hasName (singleKeys t.uniqueKeys) c.name)
    Table.uniqueAgrees_iff.symm

/-! ## What a definition says -/

namespace TableElement

/-- Whether an entry of a definition is a column of this name. -/
def definesName (name : String) : TableElement → Bool
  | .column d => sameName d.name name
  | .constraint _ => false

/-- Whether an entry of a definition is a constraint that asks for unique values in a column. -/
def constrainsName (name : String) : TableElement → Bool
  | .constraint ⟨_, .unique [single], _⟩ => sameName single name
  | _ => false

theorem constrainsName_single {c : Constraint} {single : String} (h : c.demand = .unique [single])
    (name : String) : (TableElement.constraint c).constrainsName name = sameName single name := by
  obtain ⟨_, _, _⟩ := c
  cases h
  rfl

theorem constrainsName_other {c : Constraint} (h : ∀ single, c.demand ≠ .unique [single])
    (name : String) : (TableElement.constraint c).constrainsName name = false := by
  unfold constrainsName
  split
  · next single _ heq =>
    cases heq
    exact absurd rfl (h single)
  · rfl

/-- Whether an entry of a definition asks for unique values in a column. -/
def uniquesName (name : String) : TableElement → Bool
  | .column d => d.unique && sameName d.name name
  | .constraint c => (TableElement.constraint c).constrainsName name

end TableElement

/-- Where any entry of a definition asks for unique values in a column, the column does so itself,
or it is the first one of its name and a constraint behind it does. -/
def UniqueStated (es : List TableElement) : Prop :=
  EachColumn (fun before d behind => (∃ e ∈ es, e.uniquesName d.name = true) →
    d.unique = true ∨ (∀ e ∈ before, e.definesName d.name = false) ∧
      ∃ e ∈ behind, e.constrainsName d.name = true) es

/-- The names of the columns of a table with their marks. -/
def Table.marks (t : Table) : List (String × Bool) := t.columns.map fun c => (c.name, c.unique)

namespace Table

variable {t : Table}

theorem uniqueAgrees_iff_marks :
    t.UniqueAgrees ↔ ∀ m ∈ t.marks, m.2 = hasName (singleKeys t.uniqueKeys) m.1 := by
  rw [uniqueAgrees_iff, marks, List.forall_mem_map]
  rfl

theorem marks_addColumn (d : ColumnDefinition) :
    (t.addColumn d).marks = t.marks ++ [(d.name, d.unique)] := by
  rw [marks, addColumn_columns, List.map_append]
  rfl

/-- A constraint marks the first column of the name that it asks for. -/
theorem marks_updateColumn (single : String) :
    (t.updateColumn single fun c => { c with unique := true }).marks =
      updateFirst (fun m => sameName m.1 single) (fun m => (m.1, true)) t.marks := by
  unfold marks updateColumn
  dsimp only
  induction t.columns with
  | nil => rfl
  | cons c cs ih =>
    rw [updateFirst, List.map_cons, updateFirst, Column.isNamed]
    split
    · rfl
    · rw [List.map_cons, ih]

end Table

theorem any_updateFirst_fst (single name : String) (ms : List (String × Bool)) :
    (updateFirst (fun m => sameName m.1 single) (fun m => (m.1, true)) ms).any
        (sameName ·.1 name) = ms.any (sameName ·.1 name) := by
  induction ms with
  | nil => rfl
  | cons m ms ih =>
    rw [updateFirst]
    split
    · rfl
    · rw [List.any_cons, List.any_cons, ih]

/-- To mark the first column of a name is to mark each column in front of which no other one has
that name. `front` stands in front of them all and has no column of that name. -/
theorem eachSplit_updateFirst_iff {P : String → Bool → Prop} {X : String → Bool} {single : String}
    (front : List (String × Bool)) (hFront : front.any (sameName ·.1 single) = false)
    (ms : List (String × Bool)) :
    EachSplit (fun before m _ =>
        P m.1 (m.2 || !(front ++ before).any (sameName ·.1 m.1) && X m.1))
        (updateFirst (fun m => sameName m.1 single) (fun m => (m.1, true)) ms) ↔
      EachSplit (fun before m _ =>
        P m.1 (m.2 || !(front ++ before).any (sameName ·.1 m.1) && (sameName single m.1 || X m.1)))
        ms := by
  induction ms generalizing front with
  | nil => simp [updateFirst]
  | cons m ms ih =>
    rw [updateFirst, EachSplit.cons]
    by_cases hNamed : sameName m.1 single = true
    · have hOf : ∀ n, sameName n m.1 = sameName n single := fun n => by
        rw [sameName, sameName, sameName_iff.mp hNamed]
      rw [if_pos hNamed, EachSplit.cons]
      refine and_congr ?_ ?_
      · have hFirst : front.any (sameName ·.1 m.1) = false := by simpa only [hOf] using hFront
        simp [hFirst, sameName_comm single, hNamed]
      · -- behind the first column of the name, no other one is marked
        refine forall₄_congr fun before n behind _ => ?_
        dsimp only
        cases hSame : sameName single n.1 with
        | false => simp
        | true => simp [sameName_trans hNamed hSame]
    · rw [if_neg hNamed, EachSplit.cons]
      have hOther : sameName single m.1 = false := by
        rw [sameName_comm]
        exact Bool.eq_false_iff.mpr hNamed
      have hNext : (front ++ [m]).any (sameName ·.1 single) = false := by
        simp [hFront, Bool.eq_false_iff.mpr hNamed]
      refine and_congr (by rw [hOther, Bool.false_or]) ?_
      simpa only [List.append_assoc, List.singleton_append] using ih _ hNext

namespace Table

variable {t : Table}

/-- A constraint that asks for unique values in one column marks the first column of that name, and
no other constraint marks any. -/
theorem marks_addConstraint (c : Constraint) :
    (∃ single, c.demand = .unique [single] ∧ (t.addConstraint c).marks =
        updateFirst (fun m => sameName m.1 single) (fun m => (m.1, true)) t.marks) ∨
      (∀ single, c.demand ≠ .unique [single]) ∧ (t.addConstraint c).marks = t.marks := by
  obtain ⟨name, demand, span⟩ := c
  cases demand with
  | check | foreignKey => exact Or.inr ⟨nofun, rfl⟩
  | primaryKey hash columns =>
    refine Or.inr ⟨nofun, ?_⟩
    change (t.setPrimaryKey columns).marks = t.marks
    rw [marks, setPrimaryKey, List.map_map]
    refine List.map_congr_left fun c _ => ?_
    dsimp only [Function.comp_apply]
    split <;> rfl
  | unique columns =>
    have hMarks : ∀ u : Table, (u.addUniqueKey name columns).marks = u.marks := fun u => by
      rw [marks, addUniqueKey_columns, marks]
    rcases columns with _ | ⟨single, _ | ⟨second, rest⟩⟩
    · exact Or.inr ⟨nofun, hMarks t⟩
    · exact Or.inl ⟨single, rfl, (hMarks _).trans (marks_updateColumn single)⟩
    · exact Or.inr ⟨nofun, hMarks t⟩

/-- What a constraint makes of the marks, column by column. -/
theorem eachSplit_addConstraint_iff {P : String → Bool → Prop} {X : String → Bool}
    (c : Constraint) :
    EachSplit (fun before m _ => P m.1 (m.2 || !before.any (sameName ·.1 m.1) && X m.1))
        (t.addConstraint c).marks ↔
      EachSplit (fun before m _ => P m.1 (m.2 || !before.any (sameName ·.1 m.1) &&
        ((TableElement.constraint c).constrainsName m.1 || X m.1))) t.marks := by
  rcases marks_addConstraint (t := t) c with ⟨single, hDemand, hMarks⟩ | ⟨hOther, hMarks⟩
  · simp only [TableElement.constrainsName_single hDemand, hMarks]
    exact eachSplit_updateFirst_iff [] rfl t.marks
  · simp only [TableElement.constrainsName_other hOther, hMarks, Bool.false_or]

theorem any_marks_addConstraint (c : Constraint) (name : String) :
    (t.addConstraint c).marks.any (sameName ·.1 name) = t.marks.any (sameName ·.1 name) := by
  rcases marks_addConstraint (t := t) c with ⟨single, -, hMarks⟩ | ⟨-, hMarks⟩
  · rw [hMarks, any_updateFirst_fst]
  · rw [hMarks]

/-- What the entries of a definition make of the marks: a column has its mark by itself, or, if it
is the first one of its name, by a constraint behind it. -/
theorem forall_marks_foldl_iff {P : String → Bool → Prop} (es : List TableElement) :
    (∀ m ∈ (es.foldl addElement t).marks, P m.1 m.2) ↔
      EachSplit (fun before m _ => P m.1 (m.2 || !before.any (sameName ·.1 m.1) &&
          es.any (·.constrainsName m.1))) t.marks ∧
        EachColumn (fun before d behind => P d.name (d.unique ||
          !(t.marks.any (sameName ·.1 d.name) || before.any (·.definesName d.name)) &&
            behind.any (·.constrainsName d.name))) es := by
  induction es generalizing t with
  | nil =>
    have hNone := EachSplit.forall_iff (Q := fun m : String × Bool => P m.1 m.2) t.marks
    simpa [EachColumn] using hNone.symm
  | cons e es ih =>
    rw [List.foldl_cons, ih, EachColumn, EachColumn, EachSplit.cons]
    cases e with
    | column d =>
      rw [addElement, marks_addColumn, EachSplit.concat]
      simp [TableElement.constrainsName, TableElement.definesName, and_assoc, Bool.or_assoc]
    | constraint c =>
      rw [addElement, eachSplit_addConstraint_iff (X := fun name => es.any (·.constrainsName name))]
      simp [any_marks_addConstraint, TableElement.definesName]

/-- A column that is added brings a key along if it asks for one. -/
theorem addColumn_uniqueKeys (d : ColumnDefinition) : (t.addColumn d).uniqueKeys =
    if d.unique then (t.addUniqueKey none [d.name]).uniqueKeys else t.uniqueKeys := by
  unfold addColumn addUniqueKey Column.ofDefinition
  dsimp only
  split <;> split <;> (try split) <;> rfl

/-- A column that is added has a key over it alone if it asks for one. -/
theorem hasName_addColumn_single (d : ColumnDefinition) (n : String) :
    hasName (singleKeys (t.addColumn d).uniqueKeys) n =
      (hasName (singleKeys t.uniqueKeys) n || d.unique && sameName d.name n) := by
  rw [addColumn_uniqueKeys]
  split
  · next hUnique => rw [hasName_addUniqueKey, hUnique, sameNames, sameNames, Bool.and_true,
      Bool.true_and]
  · next hUnique => simp [hUnique]

theorem hasName_addConstraint (c : Constraint) (n : String) :
    hasName (singleKeys (t.addConstraint c).uniqueKeys) n =
      (hasName (singleKeys t.uniqueKeys) n || (TableElement.constraint c).constrainsName n) := by
  obtain ⟨name, demand, span⟩ := c
  cases demand with
  | check | primaryKey | foreignKey => exact (Bool.or_false _).symm
  | unique columns =>
    have hNone : ∀ a b rest, sameNames (a :: b :: rest) [n] = false := fun a b rest => by
      simp [sameNames]
    rcases columns with _ | ⟨single, _ | ⟨second, rest⟩⟩
    · exact hasName_addUniqueKey t name [] n
    · exact (hasName_addUniqueKey _ name [single] n).trans (congrArg _ (Bool.and_true _))
    · exact (hasName_addUniqueKey t name _ n).trans (congrArg _ (hNone _ _ _))

/-- So has a column with a new definition, if there is such a column. -/
theorem hasName_redefineColumn (column : String) (d : ColumnDefinition) (n : String) :
    hasName (singleKeys (t.redefineColumn column d).uniqueKeys) n =
      (hasName (singleKeys t.uniqueKeys) n ||
        ((t.column? column).isSome && d.unique) && sameName d.name n) := by
  unfold redefineColumn
  dsimp only
  split
  · next hUnique =>
    rw [hasName_addUniqueKey, hUnique, sameNames, sameNames, Bool.and_true, Bool.true_and]
    rfl
  · next hUnique => simp [hUnique, updateColumn]

/-- What the entries of a definition make of the keys over one column. -/
theorem hasName_foldl_addElement (es : List TableElement) (n : String) :
    hasName (singleKeys (es.foldl addElement t).uniqueKeys) n =
      (hasName (singleKeys t.uniqueKeys) n || es.any (·.uniquesName n)) := by
  induction es generalizing t with
  | nil => simp
  | cons e es ih =>
    have hFirst : hasName (singleKeys (t.addElement e).uniqueKeys) n =
        (hasName (singleKeys t.uniqueKeys) n || e.uniquesName n) := by
      cases e with
      | column d => exact hasName_addColumn_single d n
      | constraint c => exact hasName_addConstraint c n
    rw [List.foldl_cons, ih, hFirst, List.any_cons, Bool.or_assoc]

/-- In a table as it is defined, marks and keys agree exactly if the definition says so of every
column. -/
theorem uniqueAgrees_ofCreateTable_iff (c : CreateTable) :
    (ofCreateTable c).UniqueAgrees ↔ UniqueStated c.elements := by
  have hMarks : (ofCreateTable c).UniqueAgrees ↔ ∀ m ∈ (ofCreateTable c).marks,
      m.2 = c.elements.any (·.uniquesName m.1) := by
    rw [uniqueAgrees_iff_marks, ofCreateTable]
    simp only [hasName_foldl_addElement, singleKeys_nil, hasName_nil, Bool.false_or]
  rw [hMarks, ofCreateTable,
    forall_marks_foldl_iff (P := fun name mark => mark = c.elements.any (·.uniquesName name))]
  refine (and_iff_right (by simp [marks])).trans ?_
  refine forall₄_congr fun before e behind hSplit => forall₂_congr fun d he => ?_
  subst he
  have hMarked : (d.unique || !(before.any (·.definesName d.name)) &&
      behind.any (·.constrainsName d.name)) = true ↔ d.unique = true ∨
        (∀ e ∈ before, e.definesName d.name = false) ∧
        ∃ e ∈ behind, e.constrainsName d.name = true := by
    simp
  have hKeyed : (d.unique || !(before.any (·.definesName d.name)) &&
      behind.any (·.constrainsName d.name)) = true →
        c.elements.any (·.uniquesName d.name) = true := by
    rw [hMarked, List.any_eq_true, hSplit]
    rintro (hUnique | ⟨-, e, he, hAsks⟩)
    · exact ⟨.column d, by simp, by simp [TableElement.uniquesName, hUnique]⟩
    · refine ⟨e, by simp [he], ?_⟩
      cases e with
      | column d => cases hAsks
      | constraint c => exact hAsks
  refine Bool.eq_iff_iff.trans ⟨fun h hHeld => ?_, fun h => ⟨hKeyed, fun hHeld => ?_⟩⟩
  · exact hMarked.mp (h.mpr (List.any_eq_true.mpr hHeld))
  · exact hMarked.mpr (h (List.any_eq_true.mp hHeld))

end Table

/-! ## What a change keeps -/

/-- When a change of a table leaves marks and unique keys in agreement: a column that is new, or
newly defined, brings a key along only under a name of its own, a constraint does not bring one for
a second column, another name does not stand for a second column, and a constraint that is dropped
is not the only one that makes a column unique. -/
def AlterAction.KeepsUnique (t : Table) : AlterAction → Prop
  | .addColumn d => Joins (·.unique) (hasName (singleKeys t.uniqueKeys)) t.columns (.ofDefinition d)
  | .addConstraint c => ∀ single, c.demand = .unique [single] →
    ∀ c ∈ t.columns.eraseP (Column.isNamed single),
      c.isNamed single = true → hasName (singleKeys t.uniqueKeys) single = true
  | .alterColumn column (.rename newName) | .renameColumn column newName =>
    Renames (hasName (singleKeys t.uniqueKeys)) t.columns column newName
  | .alterColumn column (.redefine d) => (t.column? column).isSome →
    Joins (·.unique) (hasName (singleKeys t.uniqueKeys)) (t.columns.eraseP (Column.isNamed column))
      (.ofDefinition d)
  | .dropConstraint name => ∀ c ∈ t.columns, c.unique = true →
    ∃ k ∈ t.uniqueKeys, k.isOver [c.name] = true ∧ isCalled name k.name = false
  | _ => True

/-- When a statement leaves marks and unique keys in agreement. -/
def Statement.KeepsUnique (s : Schema) : Statement → Prop
  | .createTable c => UniqueStated c.elements
  | .alterTable a => ∀ t ∈ s.table? a.table.name, a.action.KeepsUnique t
  | _ => True

namespace Table.UniqueAgrees

variable {t : Table}

theorem addColumn_iff (h : t.UniqueAgrees) (d : ColumnDefinition) :
    (t.addColumn d).UniqueAgrees ↔ (AlterAction.addColumn d).KeepsUnique t := by
  rw [uniqueAgrees_iff, addColumn_columns, funext (hasName_addColumn_single d)]
  exact Agree.append_iff (caseBlind_hasName _) (uniqueAgrees_iff.mp h) _

theorem addConstraint_iff (h : t.UniqueAgrees) (c : Constraint) :
    (t.addConstraint c).UniqueAgrees ↔ (AlterAction.addConstraint c).KeepsUnique t := by
  rw [uniqueAgrees_iff_marks] at h
  rw [uniqueAgrees_iff_marks, funext (hasName_addConstraint c)]
  rcases marks_addConstraint (t := t) c with ⟨single, hDemand, hMarks⟩ | ⟨hOther, hMarks⟩
  · have hOthers := ((forall_mem_iff_find?_eraseP (fun m => sameName m.1 single) _).mp h).2
    have hColumns : t.marks.eraseP (fun m => sameName m.1 single) =
        (t.columns.eraseP (Column.isNamed single)).map fun c => (c.name, c.unique) :=
          List.eraseP_map
    have hKeeps : (AlterAction.addConstraint c).KeepsUnique t ↔
        ∀ m ∈ t.marks.eraseP (fun m => sameName m.1 single),
          sameName m.1 single = true → hasName (singleKeys t.uniqueKeys) single = true := by
      rw [hColumns, List.forall_mem_map]
      simp only [AlterAction.KeepsUnique, hDemand, Demand.unique.injEq, List.cons.injEq, and_true,
        forall_eq']
      rfl
    rw [hKeeps, hMarks, forall_mem_updateFirst_iff]
    simp only [TableElement.constrainsName_single hDemand]
    refine (and_iff_right fun m hm => ?_).trans (forall₂_congr fun m hm => ?_)
    · have hNamed : sameName m.1 single = true :=
        List.find?_some (p := fun m : String × Bool => sameName m.1 single) hm
      rw [sameName_comm single, hNamed, Bool.or_true]
    · rw [hOthers m hm, sameName_comm single]
      cases hSame : sameName m.1 single with
      | false => simp
      | true => rw [caseBlind_hasName _ hSame]; simp
  · refine iff_of_true ?_ fun single hDemand => absurd hDemand (hOther single)
    simpa only [hMarks, TableElement.constrainsName_other hOther, Bool.or_false] using h

theorem renameColumn_iff (h : t.UniqueAgrees) (column newName : String) :
    (t.renameColumn column newName).UniqueAgrees ↔
      Renames (hasName (singleKeys t.uniqueKeys)) t.columns column newName := by
  rw [uniqueAgrees_iff, renameColumn, singleKeys_rename, funext (hasName_replaceName _ _ _)]
  exact Agree.renamed_iff (caseBlind_hasName _) (uniqueAgrees_iff.mp h) fun _ => rfl

theorem redefineColumn_iff (h : t.UniqueAgrees) (column : String) (d : ColumnDefinition) :
    (t.redefineColumn column d).UniqueAgrees ↔
      (AlterAction.alterColumn column (.redefine d)).KeepsUnique t := by
  rw [uniqueAgrees_iff] at h
  have hOthers := ((forall_mem_iff_find?_eraseP (Column.isNamed column) _).mp h).2
  change _ ↔ ((t.columns.find? (Column.isNamed column)).isSome → _)
  rw [uniqueAgrees_iff, funext (hasName_redefineColumn column d), redefineColumn_columns, Agree,
    forall_mem_updateFirst_iff]
  cases hFind : t.columns.find? (Column.isNamed column) with
  | none => simpa [column?, hFind] using hOthers
  | some c =>
    have hRedefined : (c.redefined d).name = d.name ∧ (c.redefined d).unique = d.unique := by
      unfold Column.redefined
      dsimp only
      split <;> exact ⟨rfl, rfl⟩
    have hJoins := Agree.append_iff (caseBlind_hasName _) hOthers (.ofDefinition d)
    rw [Agree, List.forall_mem_append, List.forall_mem_singleton, and_comm] at hJoins
    simp only [column?, hFind, Option.mem_some_iff, forall_eq', hRedefined, Option.isSome_some,
      Bool.true_and, true_implies]
    exact hJoins

theorem dropConstraint_iff (h : t.UniqueAgrees) (name : String) :
    (t.dropConstraint name).UniqueAgrees ↔ (AlterAction.dropConstraint name).KeepsUnique t := by
  refine forall₂_congr fun c hc => ⟨fun hAgree hUnique => ?_, fun hKept => ⟨fun hUnique => ?_, ?_⟩⟩
  · obtain ⟨k, hk, n, hSingle, hSame⟩ := hAgree.mp hUnique
    obtain ⟨hMem, hCalled⟩ := List.mem_filter.mp hk
    refine ⟨k, hMem, UniqueKey.isOver_singleton.mpr ⟨n, ?_, hSame⟩, by simpa using hCalled⟩
    exact UniqueKey.single?_eq_some.mpr hSingle
  · obtain ⟨k, hk, hOver, hCalled⟩ := hKept hUnique
    obtain ⟨n, hSingle, hSame⟩ := UniqueKey.isOver_singleton.mp hOver
    refine ⟨k, List.mem_filter.mpr ⟨hk, by simp [hCalled]⟩, n, ?_, hSame⟩
    exact UniqueKey.single?_eq_some.mp hSingle
  · rintro ⟨k, hk, hSingle⟩
    exact (h c hc).mpr ⟨k, List.mem_of_mem_filter hk, hSingle⟩

theorem updateColumn (h : t.UniqueAgrees) (name : String) {f : Column → Column}
    (hf : ∀ c, (f c).name = c.name ∧ (f c).unique = c.unique) :
    (t.updateColumn name f).UniqueAgrees :=
  uniqueAgrees_iff.mpr ((uniqueAgrees_iff.mp h).changed _ hf)

theorem alter_iff (h : t.UniqueAgrees) (action : AlterAction) :
    (t.alter action).UniqueAgrees ↔ action.KeepsUnique t := by
  cases action with
  | addColumn d => exact h.addColumn_iff d
  | addConstraint c => exact h.addConstraint_iff c
  | renameColumn column newName => exact h.renameColumn_iff column newName
  | alterColumn column change =>
    cases change with
    | rename newName => exact h.renameColumn_iff column newName
    | redefine d => exact h.redefineColumn_iff column d
    | setNotNull | dropNotNull | setNull =>
      exact iff_of_true (h.updateColumn column fun _ => ⟨rfl, rfl⟩) trivial
    | setDefault | dropDefault => exact iff_of_true h trivial
  | dropColumn column =>
    have hKeys := singleKeys_dropColumn column t.uniqueKeys
    refine iff_of_true (uniqueAgrees_iff.mpr (hKeys ▸ ?_)) trivial
    exact (uniqueAgrees_iff.mp h).without column
  | dropConstraint name => exact h.dropConstraint_iff name
  | dropPrimaryKey =>
    refine iff_of_true (fun c hc => ?_) trivial
    obtain ⟨c, hMem, rfl⟩ := List.mem_map.mp hc
    exact h c hMem
  | renameTable => exact iff_of_true h trivial

end Table.UniqueAgrees

/-! ## Runs -/

/-- After each statement of a run, every column is marked as unique exactly if there is a unique key
over it alone, if and only if each statement leaves it so. -/
theorem Schema.uniqueAgrees_states_iff (xs : List Statement) :
    (∀ s ∈ empty.states xs, ∀ t ∈ s.tables, t.UniqueAgrees) ↔
      empty.Throughout Statement.KeepsUnique xs := by
  refine forall_states_iff (fun s x _ hs => ?_) (by simp [empty])
  cases x with
  | createTable c => exact Table.uniqueAgrees_ofCreateTable_iff c
  | alterTable a =>
    refine forall₂_congr fun t ht => ?_
    exact (hs t (List.mem_of_find?_eq_some ht)).alter_iff a.action
  | dropTable | insert | update | delete | select => exact Iff.rfl

/-- A constraint that is dropped takes its key along and leaves its mark. -/
theorem Schema.not_uniqueAgrees_dropped :
    (parse .standard
      "CREATE TABLE t (a INT, CONSTRAINT u UNIQUE (a)); ALTER TABLE t DROP CONSTRAINT u"
      ).errors = [] ∧
    ¬ ∀ s ∈ empty.states (parse .standard
        "CREATE TABLE t (a INT, CONSTRAINT u UNIQUE (a)); ALTER TABLE t DROP CONSTRAINT u"
        ).statements,
      ∀ t ∈ s.tables, t.UniqueAgrees := by
  decide +kernel

end SqlKit
