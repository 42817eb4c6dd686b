import SqlKit.Proofs.Schema.Runs

/-!
# Columns that keys list

The primary key, the unique keys and the foreign keys of a table list columns by name. No change of
a table leaves a name behind that no column answers to: a key goes with a column that is dropped,
and another name for a column is written into the keys. Names that no column answers to come in
through statements alone, where a constraint lists them (`Statement.ListsColumns`). So the keys of
all tables resolve after each statement of a run in which no constraint does
(`Schema.keysResolve_states`).

Several columns may have one name. A change of the first one leaves the others, and a key that
listed the name follows the first one; both names resolve then.
-/

namespace SqlKit

open Text

/-! ## Names of columns -/

theorem map_updateFirst {α β : Type} {p : α → Bool} {f : α → α} {g : α → β}
    (h : ∀ a, p a = true → g (f a) = g a) (as : List α) :
    (updateFirst p f as).map g = as.map g := by
  induction as with
  | nil => rfl
  | cons a as ih =>
    rw [updateFirst]
    split
    · next ha => rw [List.map_cons, h a ha, List.map_cons]
    · rw [List.map_cons, ih, List.map_cons]

/-- Where the entry that is changed keeps its name up to letter case, the same names are held. -/
theorem hasName_map_updateFirst {p : Column → Bool} {f : Column → Column}
    (h : ∀ c, p c = true → sameName (f c).name c.name = true) (cs : List Column) (n : String) :
    hasName ((updateFirst p f cs).map (·.name)) n = hasName (cs.map (·.name)) n := by
  induction cs with
  | nil => rfl
  | cons c cs ih =>
    rw [updateFirst]
    split
    · next hc =>
      simp only [List.map_cons, hasName_cons]
      rw [sameName, sameName_iff.mp (h c hc), ← sameName]
    · simp only [List.map_cons, hasName_cons, ih]

theorem mem_updateFirst_of_find? {α : Type} {p : α → Bool} {as : List α} {a : α}
    (h : as.find? p = some a) (f : α → α) : f a ∈ updateFirst p f as := by
  induction as with
  | nil => cases h
  | cons b as ih =>
    rw [updateFirst]
    rw [List.find?_cons] at h
    split at h
    · next hb =>
      obtain rfl := Option.some.inj h
      rw [if_pos hb]
      exact List.mem_cons_self
    · next hb =>
      rw [if_neg (Bool.eq_false_iff.mp hb)]
      exact List.mem_cons_of_mem _ (ih h)

theorem mem_updateFirst_of_not {α : Type} {p : α → Bool} {as : List α} {a : α} (h : a ∈ as)
    (ha : p a = false) (f : α → α) : a ∈ updateFirst p f as := by
  induction as with
  | nil => cases h
  | cons b as ih =>
    rw [updateFirst]
    rcases List.mem_cons.mp h with rfl | hTail
    · rw [ha, if_neg Bool.false_ne_true]
      exact List.mem_cons_self
    · split
      · exact List.mem_cons_of_mem _ hTail
      · exact List.mem_cons_of_mem _ (ih hTail)

namespace Table

variable {t : Table}

/-- The names of the columns. -/
def columnNames (t : Table) : List String := t.columns.map (·.name)

/-- The names that keys and foreign keys list. -/
def listedNames (t : Table) : List String :=
  t.primaryKey ++
    ((t.uniqueKeys.map (·.columns)).flatten ++ (t.foreignKeys.map (·.columns)).flatten)

theorem isSome_column? (n : String) : (t.column? n).isSome = hasName t.columnNames n := by
  rw [column?, columnNames, hasName, List.any_map, Bool.eq_iff_iff, List.find?_isSome,
    List.any_eq_true]
  rfl

/-- Every name that a key lists is the name of a column. -/
structure KeysResolve (t : Table) : Prop where
  primaryKey : ∀ n ∈ t.primaryKey, (t.column? n).isSome
  uniqueKeys : ∀ k ∈ t.uniqueKeys, ∀ n ∈ k.columns, (t.column? n).isSome
  foreignKeys : ∀ k ∈ t.foreignKeys, ∀ n ∈ k.columns, (t.column? n).isSome

theorem keysResolve_iff : t.KeysResolve ↔ ∀ n ∈ t.listedNames, hasName t.columnNames n = true := by
  simp only [listedNames, List.forall_mem_append, List.forall_mem_flatten, List.forall_mem_map,
    ← isSome_column?]
  exact ⟨fun h => ⟨h.primaryKey, h.uniqueKeys, h.foreignKeys⟩, fun h => ⟨h.1, h.2.1, h.2.2⟩⟩

/-! ## Keys and columns that come in -/

theorem mem_listedNames_addUniqueKey {name : Option String} {columns : List String} {n : String}
    (h : n ∈ (t.addUniqueKey name columns).listedNames) : n ∈ t.listedNames ∨ n ∈ columns := by
  have hSame : (updateFirst (·.isOver columns) (·.withName name) t.uniqueKeys).map (·.columns) =
      t.uniqueKeys.map (·.columns) :=
    map_updateFirst (f := UniqueKey.withName name) (fun _ _ => rfl) _
  unfold addUniqueKey at h
  split at h
  · simp only [listedNames, hSame] at h
    exact .inl h
  · simp only [listedNames, List.map_append, List.flatten_append, List.mem_append, List.map_cons,
      List.map_nil, List.flatten_cons, List.flatten_nil, List.append_nil] at h ⊢
    tauto

theorem mem_listedNames_addColumn {d : ColumnDefinition} {n : String}
    (h : n ∈ (t.addColumn d).listedNames) : n ∈ t.listedNames ∨ n = d.name := by
  have hKey : ∀ b : Bool, n ∈ (if b then { t with primaryKey := t.primaryKey ++ [d.name] }
      else t).listedNames → n ∈ t.listedNames ∨ n = d.name := by
    rintro (_ | _) hn
    · exact .inl hn
    · simp only [listedNames, ↓reduceIte, List.mem_append, List.mem_singleton] at hn ⊢
      tauto
  have hUnique : ∀ (b : Bool) (u : Table), n ∈ (if b then u.addUniqueKey none [d.name]
      else u).listedNames → n ∈ u.listedNames ∨ n = d.name := by
    rintro (_ | _) u hn
    · exact .inl hn
    · exact (mem_listedNames_addUniqueKey hn).imp_right List.mem_singleton.mp
  rcases hUnique (Column.ofDefinition d).unique _ h with hListed | hName
  · exact hKey _ hListed
  · exact .inr hName

theorem mem_listedNames_addConstraint {c : Constraint} {n : String}
    (h : n ∈ (t.addConstraint c).listedNames) : n ∈ t.listedNames ∨ n ∈ c.demand.columns := by
  obtain ⟨name, demand, span⟩ := c
  cases demand with
  | check => exact .inl h
  | primaryKey hash columns =>
    change n ∈ (t.setPrimaryKey columns).listedNames at h
    simp only [setPrimaryKey, listedNames, List.mem_append] at h ⊢
    exact h.symm.imp_left .inr
  | unique columns =>
    change n ∈ (t.addUnique name columns).listedNames at h
    unfold addUnique at h
    split at h
    · next single =>
      let marked := t.updateColumn single fun c => { c with unique := true }
      exact mem_listedNames_addUniqueKey (t := marked) h
    · exact mem_listedNames_addUniqueKey h
  | foreignKey columns r =>
    change n ∈ listedNames
      { t with foreignKeys := t.foreignKeys ++ [foreignKey name columns r] } at h
    simp only [listedNames, List.map_append, List.flatten_append, List.mem_append, List.map_cons,
      List.map_nil, List.flatten_cons, List.flatten_nil, List.append_nil] at h ⊢
    exact (or_assoc.trans (or_congr_right or_assoc)).mpr h

@[simp] theorem columnNames_addColumn (d : ColumnDefinition) :
    (t.addColumn d).columnNames = t.columnNames ++ [d.name] := by
  rw [columnNames, addColumn_columns, List.map_append]
  rfl

@[simp] theorem columnNames_updateColumn (name : String) {f : Column → Column}
    (h : ∀ c, (f c).name = c.name) : (t.updateColumn name f).columnNames = t.columnNames :=
  map_updateFirst (fun c _ => h c) t.columns

@[simp] theorem columnNames_addConstraint (c : Constraint) :
    (t.addConstraint c).columnNames = t.columnNames := by
  obtain ⟨name, demand, span⟩ := c
  cases demand with
  | check | foreignKey => rfl
  | primaryKey hash columns =>
    change (t.setPrimaryKey columns).columnNames = _
    rw [columnNames, setPrimaryKey, List.map_map]
    refine List.map_congr_left fun c _ => ?_
    dsimp only [Function.comp_apply]
    split <;> rfl
  | unique columns =>
    change (t.addUnique name columns).columnNames = _
    unfold addUnique
    split
    · rw [columnNames, addUniqueKey_columns]
      exact columnNames_updateColumn _ fun _ => rfl
    · rw [columnNames, addUniqueKey_columns, columnNames]

end Table

/-! ## Tables as they are defined -/

namespace Table

variable {t : Table}

/-- What the entries of a definition make of the names of columns and of those that keys list. -/
theorem columnNames_foldl (es : List TableElement) : (es.foldl addElement t).columnNames =
    t.columnNames ++ (es.filterMap fun
      | .column d => some d
      | .constraint _ => none).map (·.name) := by
  induction es generalizing t with
  | nil => simp
  | cons e es ih =>
    rw [List.foldl_cons, ih]
    cases e with
    | column d => simp [addElement]
    | constraint c => simp [addElement]

theorem columnNames_ofCreateTable (c : CreateTable) :
    (ofCreateTable c).columnNames = c.columns.map (·.name) :=
  columnNames_foldl c.elements

theorem isSome_column?_ofCreateTable (c : CreateTable) (n : String) :
    ((ofCreateTable c).column? n).isSome = (c.column? n).isSome := by
  rw [isSome_column?, columnNames_ofCreateTable, hasName, List.any_map, Bool.eq_iff_iff,
    CreateTable.column?, List.find?_isSome, List.any_eq_true]
  rfl

/-- The names that an entry of a definition has keys list. -/
theorem mem_listedNames_foldl {es : List TableElement} {n : String}
    (h : n ∈ (es.foldl addElement t).listedNames) : n ∈ t.listedNames ∨
      (∃ d, .column d ∈ es ∧ n = d.name) ∨ ∃ c, .constraint c ∈ es ∧ n ∈ c.demand.columns := by
  induction es generalizing t with
  | nil => exact .inl h
  | cons e es ih =>
    rcases ih h with hFirst | ⟨d, hd, hName⟩ | ⟨c, hc, hListed⟩
    · cases e with
      | column d =>
        exact (mem_listedNames_addColumn hFirst).imp_right fun hName =>
          .inl ⟨d, List.mem_cons_self, hName⟩
      | constraint c =>
        exact (mem_listedNames_addConstraint hFirst).imp_right fun hListed =>
          .inr ⟨c, List.mem_cons_self, hListed⟩
    · exact .inr (.inl ⟨d, List.mem_cons_of_mem _ hd, hName⟩)
    · exact .inr (.inr ⟨c, List.mem_cons_of_mem _ hc, hListed⟩)

/-- The keys of a table resolve as it is defined, if its constraints list columns of the
definition. -/
theorem keysResolve_ofCreateTable {c : CreateTable}
    (h : ∀ constraint ∈ c.constraints, ∀ n ∈ constraint.demand.columns, (c.column? n).isSome) :
    (ofCreateTable c).KeysResolve := by
  refine keysResolve_iff.mpr fun n hn => ?_
  rw [← isSome_column?, isSome_column?_ofCreateTable]
  rcases mem_listedNames_foldl hn with hNone | ⟨d, hd, rfl⟩ | ⟨constraint, hConstraint, hListed⟩
  · cases hNone
  · exact List.find?_isSome.mpr ⟨d, List.mem_filterMap.mpr ⟨_, hd, rfl⟩, sameName_refl _⟩
  · exact h constraint (List.mem_filterMap.mpr ⟨_, hConstraint, rfl⟩) n hListed

end Table

/-! ## What a change keeps -/

/-- When a change brings no name into the keys of a table that no column has: a constraint lists
columns of the table, and a new definition of a column keeps the name. -/
def AlterAction.ListsColumns (t : Table) : AlterAction → Prop
  | .addConstraint c => ∀ n ∈ c.demand.columns, (t.column? n).isSome
  | .alterColumn column (.redefine d) => sameName d.name column = true
  | _ => True

/-- When a statement brings no name into the keys of a table that no column has. -/
def Statement.ListsColumns (s : Schema) : Statement → Prop
  | .createTable c =>
    ∀ constraint ∈ c.constraints, ∀ n ∈ constraint.demand.columns, (c.column? n).isSome
  | .alterTable a => ∀ t ∈ s.table? a.table.name, a.action.ListsColumns t
  | _ => True

instance (t : Table) : (action : AlterAction) → Decidable (action.ListsColumns t)
  | .addConstraint c =>
    inferInstanceAs (Decidable (∀ n ∈ c.demand.columns, (t.column? n).isSome))
  | .alterColumn column (.redefine d) => inferInstanceAs (Decidable (sameName d.name column = true))
  | .alterColumn _ (.rename _) | .alterColumn _ (.setDefault _) | .alterColumn _ .dropDefault
  | .alterColumn _ .setNotNull | .alterColumn _ .dropNotNull | .alterColumn _ .setNull
  | .addColumn _ | .dropColumn _ | .dropConstraint _ | .dropPrimaryKey | .renameTable _
  | .renameColumn _ _ => isTrue trivial

instance (s : Schema) : (x : Statement) → Decidable (x.ListsColumns s)
  | .createTable c => inferInstanceAs (Decidable (∀ constraint ∈ c.constraints,
      ∀ n ∈ constraint.demand.columns, (c.column? n).isSome))
  | .alterTable a =>
    inferInstanceAs (Decidable (∀ t ∈ s.table? a.table.name, a.action.ListsColumns t))
  | .dropTable _ | .insert _ | .update _ | .delete _ | .select _ => isTrue trivial

namespace Table.KeysResolve

variable {t : Table}

/-- Keys resolve where columns keep their names and keys list no more than before. -/
theorem mono (h : t.KeysResolve) {u : Table} (hColumns : u.columnNames = t.columnNames)
    (hListed : ∀ n ∈ u.listedNames, n ∈ t.listedNames) : u.KeysResolve :=
  keysResolve_iff.mpr fun n hn => hColumns ▸ keysResolve_iff.mp h n (hListed n hn)

theorem addColumn (h : t.KeysResolve) (d : ColumnDefinition) : (t.addColumn d).KeysResolve := by
  refine keysResolve_iff.mpr fun n hn => ?_
  rw [columnNames_addColumn, hasName_append, Bool.or_eq_true]
  rcases mem_listedNames_addColumn hn with hListed | rfl
  · exact .inl (keysResolve_iff.mp h n hListed)
  · exact .inr (by simp)

theorem addConstraint (h : t.KeysResolve) {c : Constraint}
    (hc : ∀ n ∈ c.demand.columns, (t.column? n).isSome) : (t.addConstraint c).KeysResolve := by
  refine keysResolve_iff.mpr fun n hn => ?_
  rw [columnNames_addConstraint]
  rcases mem_listedNames_addConstraint hn with hListed | hNew
  · exact keysResolve_iff.mp h n hListed
  · rw [← isSome_column?]
    exact hc n hNew

/-- A column is dropped with all columns of its name, and with all keys that list it. -/
theorem dropColumn (h : t.KeysResolve) (name : String) : (t.dropColumn name).KeysResolve := by
  have hStays : ∀ n, sameName n name = false → (t.column? n).isSome →
      ((t.dropColumn name).column? n).isSome := by
    intro n hOther hThere
    obtain ⟨c, hc, hNamed⟩ := List.find?_isSome.mp hThere
    refine List.find?_isSome.mpr ⟨c, List.mem_filter.mpr ⟨hc, ?_⟩, hNamed⟩
    have hName : c.isNamed name = sameName n name := by
      rw [Column.isNamed, sameName, sameName, sameName_iff.mp hNamed]
    rw [hName, hOther, Bool.not_false]
  have hUnlisted : ∀ names : List String, (!hasName names name) = true →
      ∀ n ∈ names, sameName n name = false := by
    intro names hNames n hn
    simp only [Bool.not_eq_true', hasName, List.any_eq_false] at hNames
    exact Bool.eq_false_iff.mpr (hNames n hn)
  refine ⟨fun n hn => ?_, fun k hk n hn => ?_, fun k hk n hn => ?_⟩
  · obtain ⟨hMem, hOther⟩ := List.mem_filter.mp hn
    exact hStays n (by simpa using hOther) (h.primaryKey n hMem)
  · obtain ⟨hMem, hOther⟩ := List.mem_filter.mp hk
    exact hStays n (hUnlisted _ hOther n hn) (h.uniqueKeys k hMem n hn)
  · obtain ⟨hMem, hOther⟩ := List.mem_filter.mp hk
    exact hStays n (hUnlisted _ hOther n hn) (h.foreignKeys k hMem n hn)

/-- Another name for a column is written into the keys. A key that lists another column still
does. -/
theorem renameColumn (h : t.KeysResolve) (column newName : String) :
    (t.renameColumn column newName).KeysResolve := by
  have hFollows : ∀ n, (t.column? n).isSome →
      ((t.renameColumn column newName).column?
      (if sameName n column then newName else n)).isSome := by
    intro n hThere
    obtain ⟨c, hc, hNamed⟩ := List.find?_isSome.mp hThere
    split
    · next hOld =>
      have hFound : (t.column? column).isSome :=
        List.find?_isSome.mpr ⟨c, hc, sameName_trans hNamed hOld⟩
      obtain ⟨first, hFirst⟩ := Option.isSome_iff_exists.mp hFound
      exact List.find?_isSome.mpr ⟨_, mem_updateFirst_of_find? hFirst _, sameName_refl newName⟩
    · next hOther =>
      have hNot : c.isNamed column = false := by
        rw [Column.isNamed, sameName, sameName_iff.mp hNamed]
        exact Bool.eq_false_iff.mpr hOther
      exact List.find?_isSome.mpr ⟨c, mem_updateFirst_of_not hc hNot _, hNamed⟩
  have hReplaced : ∀ names : List String, (∀ n ∈ names, (t.column? n).isSome) →
      ∀ n ∈ replaceName column newName names,
        ((t.renameColumn column newName).column? n).isSome :=
    fun names hNames => List.forall_mem_map.mpr fun n hn => hFollows n (hNames n hn)
  exact ⟨hReplaced _ h.primaryKey,
    List.forall_mem_map.mpr fun k hk => hReplaced _ (h.uniqueKeys k hk),
    List.forall_mem_map.mpr fun k hk => hReplaced _ (h.foreignKeys k hk)⟩

/-- A column keeps its name under a new definition, and a key over it lists that name. -/
theorem redefineColumn (h : t.KeysResolve) {column : String} {d : ColumnDefinition}
    (hName : sameName d.name column = true) : (t.redefineColumn column d).KeysResolve := by
  have hRedefined : ∀ c : Column, (c.redefined d).name = d.name := fun c => by
    unfold Column.redefined
    split <;> rfl
  have hNames :
    ∀ n, hasName (t.redefineColumn column d).columnNames n = hasName t.columnNames n := by
    intro n
    rw [columnNames, redefineColumn_columns, columnNames]
    refine hasName_map_updateFirst (fun c hc => ?_) t.columns n
    rw [hRedefined, sameName, sameName_iff.mp hc, ← sameName]
    exact hName
  refine keysResolve_iff.mpr fun n hn => ?_
  rw [hNames]
  have hListed : n ∈ t.listedNames ∨ (t.column? column).isSome ∧ n = d.name := by
    unfold Table.redefineColumn at hn
    split at hn
    · next hUnique =>
      have hThere : (t.column? column).isSome = true := (Bool.and_eq_true_iff.mp hUnique).1
      exact (mem_listedNames_addUniqueKey hn).imp_right fun hNew =>
        ⟨hThere, List.mem_singleton.mp hNew⟩
    · exact .inl hn
  rcases hListed with hOld | ⟨hThere, rfl⟩
  · exact keysResolve_iff.mp h n hOld
  · rw [caseBlind_hasName _ hName, ← isSome_column?]
    exact hThere

theorem alterColumn (h : t.KeysResolve) {column : String} {change : ColumnChange}
    (hChange : (AlterAction.alterColumn column change).ListsColumns t) :
    (t.alterColumn column change).KeysResolve := by
  cases change with
  | rename newName => exact h.renameColumn column newName
  | redefine d => exact h.redefineColumn hChange
  | setNotNull | dropNotNull | setNull =>
    exact h.mono (columnNames_updateColumn column fun _ => rfl) fun _ hn => hn
  | setDefault | dropDefault => exact h

theorem alter (h : t.KeysResolve) {action : AlterAction} (hAction : action.ListsColumns t) :
    (t.alter action).KeysResolve := by
  cases action with
  | addColumn d => exact h.addColumn d
  | addConstraint c => exact h.addConstraint hAction
  | alterColumn column change => exact h.alterColumn hAction
  | dropColumn column => exact h.dropColumn column
  | renameColumn column newName => exact h.renameColumn column newName
  | renameTable => exact ⟨h.primaryKey, h.uniqueKeys, h.foreignKeys⟩
  | dropConstraint name =>
    exact ⟨h.primaryKey, fun k hk => h.uniqueKeys k (List.mem_filter.mp hk).1,
      fun k hk => h.foreignKeys k (List.mem_filter.mp hk).1⟩
  | dropPrimaryKey =>
    refine h.mono (List.map_map.trans rfl) fun n hn => ?_
    exact List.mem_append_right _ hn

end Table.KeysResolve

/-! ## Runs -/

/-- **No key lists a column that is not there.** After each statement of a run, every name that a
key or a foreign key of a table lists is the name of one of its columns, if the constraints of the
run list columns that their tables have, and new definitions keep the names of columns. -/
theorem Schema.keysResolve_states {xs : List Statement}
    (h : empty.Throughout Statement.ListsColumns xs) :
    ∀ s ∈ empty.states xs, ∀ t ∈ s.tables, t.KeysResolve := by
  refine forall_states (fun s x hs hx => ?_) (by simp [empty]) h
  cases x with
  | createTable c => exact Table.keysResolve_ofCreateTable hx
  | alterTable a => exact fun t ht => (hs t (List.mem_of_find?_eq_some ht)).alter (hx t ht)
  | dropTable | insert | update | delete | select => trivial

/-- A column of which nothing is said but its name and type. -/
def sampleColumn (name : String) : ColumnDefinition where
  name := name
  type := ⟨"INT", none, none⟩
  default := none
  nullability := .unstated
  numbering := .none
  unique := false
  primaryKey := .none
  check := none
  span := .atStart

/-- A table whose key stands in front of its column and is spelled in another letter case. The
column takes another name. -/
def sampleHistory : List Statement :=
  [.createTable ⟨false, false, ⟨none, "t"⟩, [.constraint ⟨none, .primaryKey false ["A"], .atStart⟩,
      .column (sampleColumn "a")], false, .atStart⟩,
    .alterTable ⟨⟨none, "t"⟩, .renameColumn "a" "t", .atStart⟩]

theorem Schema.keysResolve_states_sampleHistory :
    empty.Throughout Statement.ListsColumns sampleHistory ∧
      ∀ s ∈ empty.states sampleHistory, ∀ t ∈ s.tables, t.KeysResolve := by
  have hLists : empty.Throughout Statement.ListsColumns sampleHistory := by decide +kernel
  exact ⟨hLists, keysResolve_states hLists⟩

end SqlKit
