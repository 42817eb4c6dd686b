import SqlKit.Proofs.Schema.KeyColumns
import SqlKit.Proofs.Schema.TableNames
import SqlKit.Proofs.Schema.UniqueKeys

/-!
# Unique keys over different columns

A second unique key over the same columns would say nothing new. Columns and constraints that ask
for unique values add a key unless one over these columns is there, so that none of them brings in a
second one. A constraint with a name gives it to the key that is there, if that has none
(`Table.addConstraint_unnamed`).

Another name for a column is written into the keys without a look at what they are over then. Two
keys may come to be over the same columns, as those over `a` and over `b` when `a` is renamed to
`b`. Where no key lists the new name it can be undone (`sameNames_replaceName_back`), and keys that
differ still do. `Schema.distinctKeys_states` draws the conclusion for the runs that rename so.
-/

namespace SqlKit

open Text

/-! ## Names that are replaced -/

theorem hasName_eq_false_iff {names : List String} {n : String} :
    hasName names n = false ↔ ∀ m ∈ names, sameName m n = false := by
  rw [hasName, List.any_eq_false]
  simp only [Bool.not_eq_true]

/-- Up to letter case, a name is replaced wherever it stands. -/
theorem toLower_replaceName (column newName : String) (names : List String) :
    (replaceName column newName names).map String.toLower =
      (names.map String.toLower).map fun n =>
        if n = column.toLower then newName.toLower else n := by
  rw [replaceName, List.map_map, List.map_map]
  refine List.map_congr_left fun n _ => ?_
  simp only [Function.comp_apply, ← sameName_iff]
  split <;> rfl

theorem sameNames_replaceName {as bs : List String} (h : sameNames as bs = true)
    (column newName : String) :
    sameNames (replaceName column newName as) (replaceName column newName bs) = true := by
  rw [sameNames_iff, toLower_replaceName, toLower_replaceName, sameNames_iff.mp h]

/-- A name in other letters makes no difference. -/
theorem sameNames_replaceName_self {column newName : String}
    (hCase : sameName newName column = true)
    (names : List String) : sameNames (replaceName column newName names) names = true := by
  rw [sameNames_iff, toLower_replaceName, sameName_iff.mp hCase]
  refine (List.map_congr_left fun n _ => ?_).trans (List.map_id _)
  rw [id_eq]
  split
  · next hOld => exact hOld.symm
  · rfl

/-- A name that was not in use can be replaced by the old one. -/
theorem sameNames_replaceName_back {column newName : String} {names : List String}
    (hFree : hasName names newName = false) :
    sameNames (replaceName newName column (replaceName column newName names)) names = true := by
  rw [sameNames_iff, toLower_replaceName, toLower_replaceName, List.map_map, List.map_map]
  refine List.map_congr_left fun n hn => ?_
  have hOther : n.toLower ≠ newName.toLower := fun hSame =>
    absurd (sameName_iff.mpr hSame) (Bool.eq_false_iff.mp (hasName_eq_false_iff.mp hFree n hn))
  by_cases hOld : n.toLower = column.toLower
  · simp [hOld]
  · simp [hOld, hOther]

theorem sameNames_of_replaceName {column newName : String} {as bs : List String}
    (ha : hasName as newName = false) (hb : hasName bs newName = false)
    (h : sameNames (replaceName column newName as) (replaceName column newName bs) = true) :
    sameNames as bs = true := by
  have hBack := sameNames_iff.mp (sameNames_replaceName h newName column)
  rw [sameNames_iff]
  calc as.map String.toLower
      = (replaceName newName column (replaceName column newName as)).map String.toLower :=
        (sameNames_iff.mp (sameNames_replaceName_back ha)).symm
    _ = (replaceName newName column (replaceName column newName bs)).map String.toLower := hBack
    _ = bs.map String.toLower := sameNames_iff.mp (sameNames_replaceName_back hb)

/-! ## Keys that differ -/

/-- No two unique keys of a table are over the same columns, up to letter case. -/
def Table.DistinctKeys (t : Table) : Prop :=
  t.uniqueKeys.Pairwise fun k l => sameNames k.columns l.columns = false

/-- Another name for a column is the old one in other letters, or one that no unique key lists.
Columns and other keys may have it. -/
def Table.AllowsRename (t : Table) (column newName : String) : Prop :=
  sameName newName column = true ∨ ∀ k ∈ t.uniqueKeys, hasName k.columns newName = false

namespace Table

variable {t : Table}

/-- Only the columns of the keys matter. -/
theorem distinctKeys_iff : t.DistinctKeys ↔
    (t.uniqueKeys.map (·.columns)).Pairwise fun as bs => sameNames as bs = false := by
  rw [DistinctKeys, List.pairwise_map]

theorem addUniqueKey_uniqueKeys (name : Option String) (columns : List String) :
    (t.addUniqueKey name columns).uniqueKeys =
      if t.uniqueKeys.any (·.isOver columns) then
        updateFirst (·.isOver columns) (·.withName name) t.uniqueKeys
      else t.uniqueKeys ++ [⟨name, columns⟩] := by
  unfold addUniqueKey
  split <;> rfl

/-- The mark of a column is no part of the keys. -/
theorem addUnique_uniqueKeys (name : Option String) (columns : List String) :
    (t.addUnique name columns).uniqueKeys = (t.addUniqueKey name columns).uniqueKeys := by
  unfold addUnique
  split
  · rw [addUniqueKey_uniqueKeys, addUniqueKey_uniqueKeys]
    rfl
  · rfl

namespace DistinctKeys

/-- Keys may take other names. -/
theorem of_columns (h : t.DistinctKeys) {u : Table}
    (hColumns : u.uniqueKeys.map (·.columns) = t.uniqueKeys.map (·.columns)) : u.DistinctKeys := by
  rw [distinctKeys_iff] at h ⊢
  rwa [hColumns]

theorem addUniqueKey (h : t.DistinctKeys) (name : Option String) (columns : List String) :
    (t.addUniqueKey name columns).DistinctKeys := by
  unfold Table.addUniqueKey
  split
  · exact h.of_columns (map_updateFirst (f := UniqueKey.withName name) (fun _ _ => rfl) _)
  · next hNone =>
    have hOther : ∀ k ∈ t.uniqueKeys, k.isOver columns = false := by simpa using hNone
    refine List.pairwise_append.mpr ⟨h, List.pairwise_singleton _ _, fun k hk l hl => ?_⟩
    rw [List.mem_singleton.mp hl]
    exact hOther k hk

theorem addColumn (h : t.DistinctKeys) (d : ColumnDefinition) : (t.addColumn d).DistinctKeys := by
  rw [DistinctKeys, addColumn_uniqueKeys]
  split
  · exact h.addUniqueKey none [d.name]
  · exact h

theorem addConstraint (h : t.DistinctKeys) (c : Constraint) : (t.addConstraint c).DistinctKeys := by
  unfold Table.addConstraint
  split
  · exact h
  · rw [DistinctKeys, addUnique_uniqueKeys]
    exact h.addUniqueKey _ _
  · exact h
  · exact h

/-- Keys that differ still do under a name that is not in use. -/
theorem renameColumn (h : t.DistinctKeys) {column newName : String}
    (hNew : t.AllowsRename column newName) : (t.renameColumn column newName).DistinctKeys := by
  refine List.pairwise_map.mpr (List.Pairwise.imp_of_mem (fun {k l} hk hl hOther => ?_) h)
  rw [Bool.eq_false_iff] at hOther ⊢
  refine fun hSame => hOther ?_
  rcases hNew with hCase | hUnlisted
  · have hk := sameNames_iff.mp (sameNames_replaceName_self hCase k.columns)
    have hl := sameNames_iff.mp (sameNames_replaceName_self hCase l.columns)
    exact sameNames_iff.mpr (hk.symm.trans ((sameNames_iff.mp hSame).trans hl))
  · exact sameNames_of_replaceName (hUnlisted k hk) (hUnlisted l hl) hSame

theorem redefineColumn (h : t.DistinctKeys) (column : String) (d : ColumnDefinition) :
    (t.redefineColumn column d).DistinctKeys := by
  have hChanged : (t.updateColumn column (·.redefined d)).DistinctKeys := h
  unfold Table.redefineColumn
  split
  · exact hChanged.addUniqueKey none [d.name]
  · exact hChanged

end DistinctKeys

theorem distinctKeys_ofCreateTable (c : CreateTable) : (ofCreateTable c).DistinctKeys := by
  refine List.foldlRecOn c.elements addElement (by simp [DistinctKeys]) fun t ht e _ => ?_
  cases e with
  | column d => exact ht.addColumn d
  | constraint constraint => exact ht.addConstraint constraint

/-- Of keys that differ one is over these columns. -/
theorem DistinctKeys.exists_split (h : t.DistinctKeys) {k : UniqueKey} (hk : k ∈ t.uniqueKeys)
    {columns : List String} (hOver : k.isOver columns = true) :
    ∃ before behind, t.uniqueKeys = before ++ k :: behind ∧
      (∀ l ∈ before, l.isOver columns = false) ∧ ∀ l ∈ behind, l.isOver columns = false := by
  obtain ⟨before, behind, hKeys⟩ := List.append_of_mem hk
  rw [DistinctKeys, hKeys, List.pairwise_append, List.pairwise_cons] at h
  obtain ⟨-, ⟨hBehind, -⟩, hBefore⟩ := h
  have hColumns := sameNames_iff.mp hOver
  refine ⟨before, behind, hKeys, fun l hl => ?_, fun l hl => ?_⟩
  · have hOther := Bool.eq_false_iff.mp (hBefore l hl k List.mem_cons_self)
    refine Bool.eq_false_iff.mpr fun hSame => hOther (sameNames_iff.mpr ?_)
    exact (sameNames_iff.mp hSame).trans hColumns.symm
  · have hOther := Bool.eq_false_iff.mp (hBehind l hl)
    refine Bool.eq_false_iff.mpr fun hSame => hOther (sameNames_iff.mpr ?_)
    exact hColumns.trans (sameNames_iff.mp hSame).symm

/-- A constraint with a name over the columns of a key that has none gives its name to that key. -/
theorem addConstraint_unnamed (h : t.DistinctKeys) {k : UniqueKey} (hk : k ∈ t.uniqueKeys)
    (hUnnamed : k.name = none) {c : Constraint} {name : String} {columns : List String}
    (hName : c.name = some name) (hDemand : c.demand = .unique columns)
    (hOver : k.isOver columns = true) :
    (t.addConstraint c).uniqueKeys.filter (·.isOver columns) = [{ k with name := some name }] := by
  obtain ⟨before, behind, hKeys, hBefore, hBehind⟩ := h.exists_split hk hOver
  have hThere : t.uniqueKeys.any (·.isOver columns) = true := List.any_eq_true.mpr ⟨k, hk, hOver⟩
  have hNamed : k.withName (some name) = { k with name := some name } := by
    rw [UniqueKey.withName, hUnnamed, Option.none_or]
  have hAdded :
    (t.addConstraint c).uniqueKeys = before ++ { k with name := some name } :: behind := by
    rw [addConstraint, hDemand]
    dsimp only
    rw [hName, addUnique_uniqueKeys, addUniqueKey_uniqueKeys, if_pos hThere, hKeys,
      updateFirst_append_cons hBefore hOver, hNamed]
  have hNone : ∀ keys : List UniqueKey, (∀ l ∈ keys, l.isOver columns = false) →
      keys.filter (·.isOver columns) = [] := fun keys hAll =>
    List.filter_eq_nil_iff.mpr fun l hl => Bool.eq_false_iff.mp (hAll l hl)
  have hSelf : UniqueKey.isOver columns { k with name := some name } = true := hOver
  rw [hAdded, List.filter_append, List.filter_cons_of_pos hSelf, hNone _ hBefore, hNone _ hBehind,
    List.nil_append]

end Table

/-! ## What a change keeps -/

/-- When a change gives no column a name that a unique key lists. -/
def AlterAction.RenamesFreely (t : Table) : AlterAction → Prop
  | .renameColumn column newName | .alterColumn column (.rename newName) =>
    t.AllowsRename column newName
  | _ => True

/-- When a statement gives no column a name that a unique key lists. -/
def Statement.RenamesFreely (s : Schema) : Statement → Prop
  | .alterTable a => ∀ t ∈ s.table? a.table.name, a.action.RenamesFreely t
  | _ => True

theorem Table.DistinctKeys.alter {t : Table} (h : t.DistinctKeys) {action : AlterAction}
    (hAction : action.RenamesFreely t) : (t.alter action).DistinctKeys := by
  cases action with
  | addColumn d => exact h.addColumn d
  | addConstraint c => exact h.addConstraint c
  | renameColumn column newName => exact h.renameColumn hAction
  | alterColumn column change =>
    cases change with
    | rename newName => exact h.renameColumn hAction
    | redefine d => exact h.redefineColumn column d
    | setNotNull | dropNotNull | setNull | setDefault | dropDefault => exact h
  | dropColumn column => exact h.filter _
  | dropConstraint name => exact h.filter _
  | dropPrimaryKey | renameTable => exact h

/-! ## Runs -/

/-- **Unique keys are not doubled.** In every table after each statement of a run no two unique keys
are over the same columns, if no column of a table is given a name that a unique key lists already,
but for the letter case of its own. And where no two keys are over the same columns, a constraint
with a name over the columns of a key without one leaves a single key over them, which has that
name. -/
theorem Schema.distinctKeys_states {xs : List Statement}
    (h : empty.Throughout Statement.RenamesFreely xs) :
    (∀ s ∈ empty.states xs, ∀ t ∈ s.tables, t.DistinctKeys) ∧
    ∀ t : Table, t.DistinctKeys → ∀ k ∈ t.uniqueKeys, k.name = none →
      ∀ (c : Constraint) (name : String) (columns : List String), c.name = some name →
        c.demand = .unique columns → k.isOver columns = true →
        (t.addConstraint c).uniqueKeys.filter (·.isOver columns) =
          [{ k with name := some name }] := by
  refine ⟨forall_states (fun s x hs hx => ?_) (by simp [empty]) h, ?_⟩
  · cases x with
    | createTable c => exact Table.distinctKeys_ofCreateTable c
    | alterTable a => exact fun t ht => (hs t (List.mem_of_find?_eq_some ht)).alter (hx t ht)
    | dropTable | insert | update | delete | select => trivial
  · intro t ht k hk hUnnamed c name columns hName hDemand hOver
    exact Table.addConstraint_unnamed ht hk hUnnamed hName hDemand hOver

/-- A definition with two unique keys, neither of them with a name. -/
def sampleKeyed : CreateTable where
  temporary := false
  ifNotExists := false
  name := ⟨none, "t"⟩
  elements := [.column (sampleColumn "a"), .column { sampleColumn "b" with unique := true },
    .constraint ⟨none, .unique ["A", "b"], .atStart⟩]
  withoutRowid := false
  span := .atStart

/-- The table that it describes. -/
def sampleKeyedTable : Table where
  name := "t"
  schema := none
  columns := [⟨"a", "a", "INT", true, false, false, false⟩,
    ⟨"b", "b", "INT", true, false, true, false⟩]
  primaryKey := []
  uniqueKeys := [⟨none, ["b"]⟩, ⟨none, ["A", "b"]⟩]
  foreignKeys := []

/-- A column of it takes another name, and a constraint gives a name to one of its keys. -/
theorem Schema.distinctKeys_states_sampleKeyed :
    let xs : List Statement := [.createTable sampleKeyed,
      .alterTable ⟨⟨none, "T"⟩, .renameColumn "b" "c", .atStart⟩]
    empty.Throughout Statement.RenamesFreely xs ∧
    (∀ s ∈ empty.states xs, ∀ t ∈ s.tables, t.DistinctKeys) ∧
    (sampleKeyedTable.addConstraint ⟨some "u", .unique ["a", "B"], .atStart⟩).uniqueKeys.filter
      (·.isOver ["a", "B"]) = [⟨some "u", ["A", "b"]⟩] := by
  intro xs
  have hLetters : ∀ x ∈ [("t", "T"), ("A", "a"), ("b", "B")],
      x.1.toLower.toList = x.2.toLower.toList := by decide +kernel
  have hSame : ∀ x ∈ [("t", "T"), ("A", "a"), ("b", "B")], sameName x.1 x.2 = true := fun x hx =>
    sameName_iff.mpr (String.toList_inj.mp (hLetters x hx))
  have hDefined : empty.apply (.createTable sampleKeyed) = ⟨[sampleKeyedTable]⟩ := by
    decide +kernel
  have hUnlisted : ∀ k ∈ sampleKeyedTable.uniqueKeys, hasName k.columns "c" = false := by
    decide +kernel
  have hTable : (empty.apply (.createTable sampleKeyed)).table? "T" = some sampleKeyedTable := by
    rw [hDefined, table?, List.find?_cons_of_pos]
    exact hSame ("t", "T") (by simp)
  have hRenames : empty.Throughout Statement.RenamesFreely xs := by
    refine ⟨trivial, fun t ht => ?_, trivial⟩
    obtain rfl := Option.some.inj (hTable.symm.trans ht)
    exact .inr hUnlisted
  obtain ⟨hDistinct, hNamed⟩ := distinctKeys_states hRenames
  refine ⟨hRenames, hDistinct, ?_⟩
  have hKeyed : sampleKeyedTable.DistinctKeys :=
    hDistinct _ List.mem_cons_self sampleKeyedTable (List.mem_of_find?_eq_some hTable)
  have hOver : UniqueKey.isOver ["a", "B"] ⟨none, ["A", "b"]⟩ = true := by
    have hFirst := hSame ("A", "a") (by simp)
    have hSecond := hSame ("b", "B") (by simp)
    simp only [UniqueKey.isOver, sameNames, hFirst, hSecond, Bool.and_self]
  exact hNamed sampleKeyedTable hKeyed ⟨none, ["A", "b"]⟩ (by simp [sampleKeyedTable]) rfl
    ⟨some "u", .unique ["a", "B"], .atStart⟩ "u" ["a", "B"] rfl rfl hOver

end SqlKit
