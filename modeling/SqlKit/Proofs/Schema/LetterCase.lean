import SqlKit.Proofs.Batch.LetterCase
import SqlKit.Proofs.Schema.UniqueKeys

/-!
# Schemas of a text in another letter case

A schema looks up names without regard to letter case. So a text and the same text in another letter
case make the same tables, columns, marks and keys, in the same order, up to the case of names
(`Schema.Alike`). One question is asked of the spelling itself: a column that is given another name
takes its property along if the property is spelled as the name is (`Column.renamed`). A new
definition can spell the name in other letters and leaves the property as it was, so that the
properties of two such texts can come apart. `Schema.alike_recased_iff` says when they do not.
-/

namespace SqlKit

open Text

/-! ## Alike lists -/

section Lists

variable {α β : Type} {R : α → β → Prop} {p : α → Bool} {q : β → Bool} {as : List α} {bs : List β}

theorem any_eq_of_forall₂ (h : List.Forall₂ R as bs) (hp : ∀ a b, R a b → p a = q b) :
    as.any p = bs.any q := by
  induction h with
  | nil => rfl
  | cons hHead _ ih => rw [List.any_cons, List.any_cons, hp _ _ hHead, ih]

theorem isSome_find?_eq (h : List.Forall₂ R as bs) (hp : ∀ a b, R a b → p a = q b) :
    (as.find? p).isSome = (bs.find? q).isSome := by
  rw [List.isSome_find?, List.isSome_find?, any_eq_of_forall₂ h hp]

theorem rel_find? (h : List.Forall₂ R as bs) (hp : ∀ a b, R a b → p a = q b) :
    ∀ a ∈ as.find? p, ∀ b ∈ bs.find? q, R a b := by
  induction h with
  | nil => simp
  | cons hHead _ ih =>
    rw [List.find?_cons, List.find?_cons, hp _ _ hHead]
    cases q _ with
    | true => simpa using hHead
    | false => exact ih

theorem forall₂_eraseP (h : List.Forall₂ R as bs) (hp : ∀ a b, R a b → p a = q b) :
    List.Forall₂ R (as.eraseP p) (bs.eraseP q) := by
  induction h with
  | nil => exact .nil
  | cons hHead hTail ih =>
    rw [List.eraseP_cons, List.eraseP_cons, hp _ _ hHead]
    cases q _ with
    | true => exact hTail
    | false => exact .cons hHead ih

theorem forall₂_filter (h : List.Forall₂ R as bs) (hp : ∀ a b, R a b → p a = q b) :
    List.Forall₂ R (as.filter p) (bs.filter q) :=
  List.rel_filter (fun a b hab => iff_of_eq (congrArg (· = true) (hp a b hab))) h

/-- Of two lists with their first entry of a kind changed only these entries count. -/
theorem forall₂_updateFirst_iff {f : α → α} {g : β → β} (h : List.Forall₂ R as bs)
    (hp : ∀ a b, R a b → p a = q b) :
    List.Forall₂ R (updateFirst p f as) (updateFirst q g bs) ↔
      ∀ a ∈ as.find? p, ∀ b ∈ bs.find? q, R (f a) (g b) := by
  induction h with
  | nil => simp [updateFirst]
  | cons hHead hTail ih =>
    rw [updateFirst, updateFirst, List.find?_cons, List.find?_cons, hp _ _ hHead]
    cases q _ with
    | true => simp [hTail]
    | false => simpa [hHead] using ih

theorem forall₂_updateFirst {f : α → α} {g : β → β} (h : List.Forall₂ R as bs)
    (hp : ∀ a b, R a b → p a = q b) (hf : ∀ a b, R a b → R (f a) (g b)) :
    List.Forall₂ R (updateFirst p f as) (updateFirst q g bs) := by
  exact (forall₂_updateFirst_iff h hp).mpr fun a ha b hb => hf a b (rel_find? h hp a ha b hb)

end Lists

section Like

variable {e : Erasure} {α : Type} [Erasable α] {as bs : List α}

theorem like_iff_forall₂ : Like e as bs ↔ List.Forall₂ (Like e) as bs := by
  rw [Like, ← List.forall₂_eq_eq_eq]
  exact List.forall₂_map_left_iff.trans List.forall₂_map_right_iff

theorem Like.filter {p q : α → Bool} (h : Like e as bs) (hp : ∀ a b, Like e a b → p a = q b) :
    Like e (as.filter p) (bs.filter q) :=
  like_iff_forall₂.mpr (forall₂_filter (like_iff_forall₂.mp h) hp)

theorem Like.map {f g : α → α} (h : Like e as bs) (hf : ∀ a b, Like e a b → Like e (f a) (g b)) :
    Like e (as.map f) (bs.map g) :=
  like_iff_forall₂.mpr (List.rel_map hf (like_iff_forall₂.mp h))

theorem Like.updateFirst {p q : α → Bool} {f g : α → α} (h : Like e as bs)
    (hp : ∀ a b, Like e a b → p a = q b) (hf : ∀ a b, Like e a b → Like e (f a) (g b)) :
    Like e (updateFirst p f as) (updateFirst q g bs) :=
  like_iff_forall₂.mpr (forall₂_updateFirst (like_iff_forall₂.mp h) hp hf)

end Like

/-! ## Alike names -/

section Names

variable {a b c d : String} {as bs : List String}

theorem sameName_congr (h : Like .letterCase a b) (h' : Like .letterCase c d) :
    sameName a c = sameName b d := by
  have hLeft : a.toLower = b.toLower := h
  have hRight : c.toLower = d.toLower := h'
  rw [sameName, sameName, hLeft, hRight]

theorem hasName_congr (h : Like .letterCase as bs) (h' : Like .letterCase a b) :
    hasName as a = hasName bs b :=
  any_eq_of_forall₂ (like_iff_forall₂.mp h) fun _ _ hName => sameName_congr hName h'

theorem isCalled_congr {name name' : Option String} (h : Like .letterCase name name')
    (h' : Like .letterCase a b) : isCalled a name = isCalled b name' := by
  cases name <;> cases name'
  · rfl
  · cases h
  · cases h
  · exact sameName_congr (Option.some.inj h) h'

theorem like_replaceName (h : Like .letterCase as bs) (h' : Like .letterCase a b)
    (hNew : Like .letterCase c d) : Like .letterCase (replaceName a c as) (replaceName b d bs) := by
  refine h.map fun n m hName => ?_
  rw [sameName_congr hName h']
  split
  · exact hNew
  · exact hName

end Names

/-! ## Alike tables -/

instance : Erasable UniqueKey :=
  ⟨fun e k => ⟨k.name.map e.name, k.columns.map e.name⟩⟩

instance : Erasable ForeignKey :=
  ⟨fun e k => { k with name := k.name.map e.name, columns := k.columns.map e.name,
                       table := e.name k.table,
                       referencedColumns := k.referencedColumns.map e.name }⟩

/-- Two columns that are equal up to letter case, with properties that are alike in their own
way. -/
structure Column.Alike (Q : String → String → Prop) (c d : Column) : Prop where
  property : Q c.property d.property
  name : Like .letterCase c.name d.name
  typeName : Like .letterCase c.typeName d.typeName
  nullable : c.nullable = d.nullable
  primaryKey : c.primaryKey = d.primaryKey
  unique : c.unique = d.unique
  numbered : c.numbered = d.numbered

/-- Two tables that are equal up to letter case, with properties that are alike in their own way. -/
structure Table.Alike (Q : String → String → Prop) (t u : Table) : Prop where
  name : Like .letterCase t.name u.name
  schema : Like .letterCase t.schema u.schema
  columns : List.Forall₂ (Column.Alike Q) t.columns u.columns
  primaryKey : Like .letterCase t.primaryKey u.primaryKey
  uniqueKeys : Like .letterCase t.uniqueKeys u.uniqueKeys
  foreignKeys : Like .letterCase t.foreignKeys u.foreignKeys

/-- Two schemas with alike tables in the same order. -/
def Schema.Alike (Q : String → String → Prop) (s s' : Schema) : Prop :=
  List.Forall₂ (Table.Alike Q) s.tables s'.tables

section

variable {Q : String → String → Prop}

/-! ### Keys -/

theorem isOver_congr {k k' : UniqueKey} {columns columns' : List String} (h : Like .letterCase k k')
    (h' : Like .letterCase columns columns') : k.isOver columns = k'.isOver columns' := by
  have hKey : k.columns.map String.toLower = k'.columns.map String.toLower :=
    congrArg UniqueKey.columns h
  have hColumns : columns.map String.toLower = columns'.map String.toLower := h'
  rw [UniqueKey.isOver, UniqueKey.isOver, Bool.eq_iff_iff, sameNames_iff, sameNames_iff, hKey,
    hColumns]

theorem like_withName {k k' : UniqueKey} {name name' : Option String} (h : Like .letterCase k k')
    (h' : Like .letterCase name name') :
    Like .letterCase (k.withName name) (k'.withName name') := by
  obtain ⟨own, columns⟩ := k
  obtain ⟨own', columns'⟩ := k'
  obtain ⟨hOwn, hColumns⟩ := UniqueKey.mk.inj h
  refine congrArg₂ UniqueKey.mk ?_ hColumns
  cases own <;> cases own'
  · exact h'
  · cases hOwn
  · cases hOwn
  · exact hOwn

/-! ### Changes of tables -/

namespace Table.Alike

variable {t u : Table}

theorem updateColumn (h : t.Alike Q u) {name name' : String} (hName : Like .letterCase name name')
    {f g : Column → Column} (hChanged : ∀ c d, c.Alike Q d → (f c).Alike Q (g d)) :
    (t.updateColumn name f).Alike Q (u.updateColumn name' g) :=
  { h with
    columns := forall₂_updateFirst h.columns (fun _ _ hAlike => sameName_congr hAlike.name hName)
      hChanged }

theorem addUniqueKey (h : t.Alike Q u) {name name' : Option String} {columns columns' : List String}
    (hName : Like .letterCase name name') (hColumns : Like .letterCase columns columns') :
    (t.addUniqueKey name columns).Alike Q (u.addUniqueKey name' columns') := by
  have hThere : t.uniqueKeys.any (·.isOver columns) = u.uniqueKeys.any (·.isOver columns') :=
    any_eq_of_forall₂ (like_iff_forall₂.mp h.uniqueKeys) fun _ _ hKey => isOver_congr hKey hColumns
  unfold Table.addUniqueKey
  rw [hThere]
  split
  · have hKeys := h.uniqueKeys.updateFirst (fun _ _ hKey => isOver_congr hKey hColumns)
      fun _ _ hKey => like_withName hKey hName
    exact { h with uniqueKeys := hKeys }
  · have hNew : Like .letterCase (UniqueKey.mk name columns) ⟨name', columns'⟩ :=
      congrArg₂ UniqueKey.mk hName hColumns
    exact { h with uniqueKeys := h.uniqueKeys.append (hNew.cons rfl) }

theorem setPrimaryKey (h : t.Alike Q u) {columns columns' : List String}
    (hColumns : Like .letterCase columns columns') :
    (t.setPrimaryKey columns).Alike Q (u.setPrimaryKey columns') := by
  refine { h with primaryKey := hColumns, columns := List.rel_map (fun c d hAlike => ?_) h.columns }
  rw [hasName_congr hColumns hAlike.name]
  split
  · exact { hAlike with nullable := rfl, primaryKey := rfl }
  · exact hAlike

theorem addUnique (h : t.Alike Q u) {name name' : Option String} {columns columns' : List String}
    (hName : Like .letterCase name name') (hColumns : Like .letterCase columns columns') :
    (t.addUnique name columns).Alike Q (u.addUnique name' columns') := by
  cases like_iff_forall₂.mp hColumns with
  | nil => exact h.addUniqueKey hName hColumns
  | cons hSingle hRest =>
    cases hRest with
    | nil =>
      have hMarked := h.updateColumn hSingle (f := fun c => { c with unique := true })
        (g := fun c => { c with unique := true }) fun _ _ hAlike => { hAlike with unique := rfl }
      exact hMarked.addUniqueKey hName hColumns
    | cons => exact h.addUniqueKey hName hColumns

theorem addConstraint (h : t.Alike Q u) {c c' : Constraint} (hConstraint : Like .letterCase c c') :
    (t.addConstraint c).Alike Q (u.addConstraint c') := by
  obtain ⟨name, demand, span⟩ := c
  obtain ⟨name', demand', span'⟩ := c'
  obtain ⟨hName, hDemand, -⟩ := Constraint.mk.inj hConstraint
  cases demand with
  | check condition =>
    cases demand' with
    | check condition' => exact h
    | unique | foreignKey | primaryKey => cases hDemand
  | unique columns =>
    cases demand' with
    | unique columns' => exact h.addUnique hName (Demand.unique.inj hDemand)
    | check | foreignKey | primaryKey => cases hDemand
  | foreignKey columns r =>
    cases demand' with
    | foreignKey columns' r' =>
      obtain ⟨hColumns, hReference⟩ := Demand.foreignKey.inj hDemand
      obtain ⟨hTable, hReferenced, hDelete, hUpdate⟩ := Reference.mk.inj hReference
      have hKey : Like .letterCase (foreignKey name columns r) (foreignKey name' columns' r') :=
        (ForeignKey.mk.injEq ..).mpr
        ⟨hName, hColumns, congrArg QualifiedName.name hTable, hReferenced,
          congrArg (fun action => action.getD ReferentialAction.restrict) hDelete,
          congrArg (fun action => action.getD ReferentialAction.restrict) hUpdate⟩
      exact { h with foreignKeys := h.foreignKeys.append (hKey.cons rfl) }
    | check | unique | primaryKey => cases hDemand
  | primaryKey hash columns =>
    cases demand' with
    | primaryKey hash' columns' => exact h.setPrimaryKey (Demand.primaryKey.inj hDemand).2
    | check | unique | foreignKey => cases hDemand

theorem dropColumn (h : t.Alike Q u) {name name' : String} (hName : Like .letterCase name name') :
    (t.dropColumn name).Alike Q (u.dropColumn name') where
  name := h.name
  schema := h.schema
  columns := forall₂_filter h.columns fun _ _ hAlike =>
    congrArg not (sameName_congr hAlike.name hName)
  primaryKey := h.primaryKey.filter fun _ _ hColumn => congrArg not (sameName_congr hColumn hName)
  uniqueKeys := h.uniqueKeys.filter fun _ _ hKey =>
    congrArg not (hasName_congr (congrArg UniqueKey.columns hKey) hName)
  foreignKeys := h.foreignKeys.filter fun _ _ hKey =>
    congrArg not (hasName_congr (congrArg ForeignKey.columns hKey) hName)

theorem dropConstraint (h : t.Alike Q u) {name name' : String}
    (hName : Like .letterCase name name') :
    (t.dropConstraint name).Alike Q (u.dropConstraint name') :=
  { h with
    uniqueKeys := h.uniqueKeys.filter fun _ _ hKey =>
      congrArg not (isCalled_congr (congrArg UniqueKey.name hKey) hName)
    foreignKeys := h.foreignKeys.filter fun _ _ hKey =>
      congrArg not (isCalled_congr (congrArg ForeignKey.name hKey) hName) }

theorem dropPrimaryKey (h : t.Alike Q u) : t.dropPrimaryKey.Alike Q u.dropPrimaryKey :=
  { h with
    primaryKey := rfl
    columns := List.rel_map (fun _ _ hAlike => { hAlike with primaryKey := rfl }) h.columns }

/-- Of columns that are renamed only the properties can come apart. -/
theorem renameColumn_iff (h : t.Alike Q u) {column column' newName newName' : String}
    (hColumn : Like .letterCase column column') (hNew : Like .letterCase newName newName') :
    (t.renameColumn column newName).Alike Q (u.renameColumn column' newName') ↔
      ∀ c ∈ t.column? column, ∀ d ∈ u.column? column',
        Q (c.renamed newName).property (d.renamed newName').property := by
  have hNamed : ∀ c d : Column, c.Alike Q d → c.isNamed column = d.isNamed column' :=
    fun _ _ hAlike => sameName_congr hAlike.name hColumn
  constructor
  · intro hRenamed c hc d hd
    exact ((forall₂_updateFirst_iff h.columns hNamed).mp hRenamed.columns c hc d hd).property
  · intro hProperties
    refine { h with
      columns := (forall₂_updateFirst_iff h.columns hNamed).mpr fun c hc d hd => ?_
      primaryKey := like_replaceName h.primaryKey hColumn hNew
      uniqueKeys := h.uniqueKeys.map fun k k' hKey => ?_
      foreignKeys := h.foreignKeys.map fun k k' hKey => ?_ }
    · have hAlike := rel_find? h.columns hNamed c hc d hd
      exact { hAlike with property := hProperties c hc d hd, name := hNew }
    · obtain ⟨hName, hColumns⟩ := UniqueKey.mk.inj hKey
      exact congrArg₂ UniqueKey.mk hName (like_replaceName hColumns hColumn hNew)
    · obtain ⟨hName, hColumns, hTarget⟩ := ForeignKey.mk.inj hKey
      exact (ForeignKey.mk.injEq ..).mpr
        ⟨hName, like_replaceName hColumns hColumn hNew, hTarget⟩

end Table.Alike

section

variable (hQ : ∀ {a b}, Like .letterCase a b → Q a b)
include hQ

theorem Column.alike_ofDefinition {d d' : ColumnDefinition} (h : Like .letterCase d d') :
    (Column.ofDefinition d).Alike Q (.ofDefinition d') := by
  have hErased : d.erase .letterCase = d'.erase .letterCase := h
  have hKey : d.primaryKey = d'.primaryKey := (congrArg ColumnDefinition.primaryKey hErased :)
  have hNullability : d.nullability = d'.nullability :=
    (congrArg ColumnDefinition.nullability hErased :)
  have hNumbering : d.numbering = d'.numbering := (congrArg ColumnDefinition.numbering hErased :)
  have hName : Like .letterCase d.name d'.name := congrArg ColumnDefinition.name hErased
  constructor
  · exact hQ hName
  · exact hName
  · exact congrArg (fun d : ColumnDefinition => d.type.name) hErased
  · simp only [Column.ofDefinition, ColumnDefinition.isNullable, ColumnDefinition.isPrimaryKey,
      hKey, hNullability]
  · simp only [Column.ofDefinition, ColumnDefinition.isPrimaryKey, hKey]
  · exact (congrArg ColumnDefinition.unique hErased :)
  · simp only [Column.ofDefinition, ColumnDefinition.isNumbered, hNumbering]

namespace Column.Alike

variable {c d : Column}

theorem redefined (h : c.Alike Q d) {new new' : ColumnDefinition}
    (hNew : Like .letterCase new new') :
    (c.redefined new).Alike Q (d.redefined new') := by
  have hDefined := Column.alike_ofDefinition hQ hNew
  unfold Column.redefined
  dsimp only
  rw [h.primaryKey]
  split
  · exact { hDefined with property := h.property, nullable := rfl, primaryKey := rfl }
  · exact { hDefined with property := h.property }

end Column.Alike

theorem Table.Alike.addColumn {t u : Table} (h : t.Alike Q u) {d d' : ColumnDefinition}
    (hDefined : Like .letterCase d d') : (t.addColumn d).Alike Q (u.addColumn d') := by
  have hColumn := Column.alike_ofDefinition hQ hDefined
  have hNames : Like .letterCase [(Column.ofDefinition d).name] [(Column.ofDefinition d').name] :=
    hColumn.name.cons rfl
  have hKeyed : ((Column.ofDefinition d).primaryKey &&
      !hasName t.primaryKey (Column.ofDefinition d).name) =
      ((Column.ofDefinition d').primaryKey &&
        !hasName u.primaryKey (Column.ofDefinition d').name) := by
    rw [hColumn.primaryKey, hasName_congr h.primaryKey hColumn.name]
  have hKey : Table.Alike Q { t with primaryKey := t.primaryKey ++ [(Column.ofDefinition d).name] }
      { u with primaryKey := u.primaryKey ++ [(Column.ofDefinition d').name] } :=
    { h with primaryKey := h.primaryKey.append hNames }
  have hAdded : ∀ {v w : Table}, v.Alike Q w → Table.Alike Q
      { v with columns := v.columns ++ [.ofDefinition d] }
      { w with columns := w.columns ++ [.ofDefinition d'] } := fun hv =>
    { hv with columns := List.rel_append hv.columns (.cons hColumn .nil) }
  unfold Table.addColumn
  dsimp only
  rw [hKeyed, hColumn.unique]
  split <;> split
  · exact hAdded (hKey.addUniqueKey rfl hNames)
  · exact hAdded (h.addUniqueKey rfl hNames)
  · exact hAdded hKey
  · exact hAdded h

theorem Table.Alike.redefineColumn {t u : Table} (h : t.Alike Q u) {column column' : String}
    (hColumn : Like .letterCase column column') {d d' : ColumnDefinition}
    (hDefined : Like .letterCase d d') :
    (t.redefineColumn column d).Alike Q (u.redefineColumn column' d') := by
  have hErased : d.erase .letterCase = d'.erase .letterCase := hDefined
  have hUnique : d.unique = d'.unique := (congrArg ColumnDefinition.unique hErased :)
  have hName : Like .letterCase d.name d'.name := congrArg ColumnDefinition.name hErased
  have hThere : (t.column? column).isSome = (u.column? column').isSome :=
    isSome_find?_eq h.columns fun _ _ hAlike => sameName_congr hAlike.name hColumn
  have hChanged := h.updateColumn hColumn fun _ _ hAlike => hAlike.redefined hQ hDefined
  unfold Table.redefineColumn
  dsimp only
  rw [hThere, hUnique]
  split
  · exact hChanged.addUniqueKey rfl (hName.cons rfl)
  · exact hChanged

theorem Table.Alike.addElement {t u : Table} (h : t.Alike Q u) {x y : TableElement}
    (hElement : Like .letterCase x y) : (t.addElement x).Alike Q (u.addElement y) := by
  cases x with
  | column d =>
    cases y with
    | column d' => exact h.addColumn hQ (TableElement.column.inj hElement)
    | constraint => cases hElement
  | constraint c =>
    cases y with
    | constraint c' => exact h.addConstraint (TableElement.constraint.inj hElement)
    | column => cases hElement

theorem Table.alike_ofCreateTable {c d : CreateTable} (h : Like .letterCase c d) :
    (Table.ofCreateTable c).Alike Q (.ofCreateTable d) := by
  have hErased : c.erase .letterCase = d.erase .letterCase := h
  have hName : Like .letterCase c.name d.name := (congrArg CreateTable.name hErased :)
  have hElements : Like .letterCase c.elements d.elements :=
    (congrArg CreateTable.elements hErased :)
  have hEmpty : Table.Alike Q ⟨c.name.name, c.name.schema, [], [], [], []⟩
      ⟨d.name.name, d.name.schema, [], [], [], []⟩ :=
    ⟨congrArg QualifiedName.name hName, congrArg QualifiedName.schema hName, .nil, rfl, rfl, rfl⟩
  exact List.rel_foldl (fun _ _ hAlike _ _ hElement => hAlike.addElement hQ hElement) hEmpty
    (like_iff_forall₂.mp hElements)

end

end

/-! ### Columns that are renamed -/

/-- The column that a change of a table renames, and its new name. -/
def Table.renamed? (t : Table) : AlterAction → Option (Column × String)
  | .renameColumn column newName | .alterColumn column (.rename newName) =>
    (t.column? column).map (·, newName)
  | _ => none

/-- The column that a statement renames, and its new name. -/
def Schema.renamed? (s : Schema) : Statement → Option (Column × String)
  | .alterTable a => (s.table? a.table.name).bind (·.renamed? a.action)
  | _ => none

section

variable {Q : String → String → Prop} (hQ : ∀ {a b}, Like .letterCase a b → Q a b)
  {F : Column × String → Column × String → Prop}
  (hF : ∀ {c d : Column} {newName newName' : String}, c.Alike Q d →
  Like .letterCase newName newName' →
    (Q (c.renamed newName).property (d.renamed newName').property ↔ F (c, newName) (d, newName')))
include hQ hF

namespace Table.Alike

variable {t u : Table}

omit hQ in
theorem renameColumn_renamed?_iff (h : t.Alike Q u) {column column' newName newName' : String}
    (hColumn : Like .letterCase column column') (hNew : Like .letterCase newName newName') :
    (t.renameColumn column newName).Alike Q (u.renameColumn column' newName') ↔
      ∀ r ∈ (t.column? column).map (·, newName), ∀ r' ∈ (u.column? column').map (·, newName'),
        F r r' := by
  have hFirst := rel_find? h.columns fun _ _ hAlike => sameName_congr hAlike.name hColumn
  simp only [Option.mem_def, Option.map_eq_some_iff, forall_exists_index, and_imp,
    forall_apply_eq_imp_iff₂]
  rw [h.renameColumn_iff hColumn hNew]
  exact forall₄_congr fun c hc d hd => hF (hFirst c hc d hd) hNew

theorem alterColumn_iff (h : t.Alike Q u) {column column' : String}
    (hColumn : Like .letterCase column column') {x y : ColumnChange}
    (hChange : Like .letterCase x y) :
    (t.alterColumn column x).Alike Q (u.alterColumn column' y) ↔
      ∀ r ∈ t.renamed? (.alterColumn column x), ∀ r' ∈ u.renamed? (.alterColumn column' y),
        F r r' := by
  cases x with
  | rename newName =>
    cases y with
    | rename newName' =>
      exact h.renameColumn_renamed?_iff hF hColumn (ColumnChange.rename.inj hChange)
    | _ => cases hChange
  | redefine d =>
    cases y with
    | redefine d' =>
      exact iff_of_true (h.redefineColumn hQ hColumn (ColumnChange.redefine.inj hChange)) nofun
    | _ => cases hChange
  | setNotNull =>
    cases y with
    | setNotNull =>
      exact iff_of_true
        (h.updateColumn hColumn fun _ _ hAlike => { hAlike with nullable := rfl }) nofun
    | _ => cases hChange
  | dropNotNull =>
    cases y with
    | dropNotNull =>
      exact iff_of_true (h.updateColumn hColumn fun _ _ hAlike =>
        { hAlike with nullable := congrArg not hAlike.primaryKey }) nofun
    | _ => cases hChange
  | setNull =>
    cases y with
    | setNull =>
      exact iff_of_true (h.updateColumn hColumn fun _ _ hAlike =>
        { hAlike with nullable := congrArg not hAlike.primaryKey }) nofun
    | _ => cases hChange
  | setDefault value =>
    cases y with
    | setDefault value' => exact iff_of_true h nofun
    | _ => cases hChange
  | dropDefault =>
    cases y with
    | dropDefault => exact iff_of_true h nofun
    | _ => cases hChange

/-- Of a change of a table only a column that is renamed can come apart. -/
theorem alter_iff (h : t.Alike Q u) {x y : AlterAction} (hAction : Like .letterCase x y) :
    (t.alter x).Alike Q (u.alter y) ↔ ∀ r ∈ t.renamed? x, ∀ r' ∈ u.renamed? y, F r r' := by
  cases x with
  | addColumn d =>
    cases y with
    | addColumn d' => exact iff_of_true (h.addColumn hQ (AlterAction.addColumn.inj hAction)) nofun
    | _ => cases hAction
  | addConstraint c =>
    cases y with
    | addConstraint c' =>
      exact iff_of_true (h.addConstraint (AlterAction.addConstraint.inj hAction)) nofun
    | _ => cases hAction
  | alterColumn column change =>
    cases y with
    | alterColumn column' change' =>
      obtain ⟨hColumn, hChange⟩ := AlterAction.alterColumn.inj hAction
      exact h.alterColumn_iff hQ hF hColumn hChange
    | _ => cases hAction
  | dropColumn column =>
    cases y with
    | dropColumn column' =>
      exact iff_of_true (h.dropColumn (AlterAction.dropColumn.inj hAction)) nofun
    | _ => cases hAction
  | dropConstraint name =>
    cases y with
    | dropConstraint name' =>
      exact iff_of_true (h.dropConstraint (AlterAction.dropConstraint.inj hAction)) nofun
    | _ => cases hAction
  | dropPrimaryKey =>
    cases y with
    | dropPrimaryKey => exact iff_of_true h.dropPrimaryKey nofun
    | _ => cases hAction
  | renameTable newName =>
    cases y with
    | renameTable newName' =>
      exact iff_of_true { h with name := AlterAction.renameTable.inj hAction } nofun
    | _ => cases hAction
  | renameColumn column newName =>
    cases y with
    | renameColumn column' newName' =>
      obtain ⟨hColumn, hNew⟩ := AlterAction.renameColumn.inj hAction
      exact h.renameColumn_renamed?_iff hF hColumn hNew
    | _ => cases hAction

end Table.Alike

/-! ### Statements -/

namespace Schema.Alike

variable {s s' : Schema}

omit hQ hF in
theorem isNamed_congr {name name' : String} (hName : Like .letterCase name name') :
    ∀ t u : Table, t.Alike Q u → isNamed name t = isNamed name' u :=
  fun _ _ hAlike => sameName_congr hAlike.name hName

omit hQ hF in
theorem define (h : s.Alike Q s') {t u : Table} (hTable : t.Alike Q u) :
    (s.define t).Alike Q (s'.define u) := by
  have hThere : (s.table? t.name).isSome = (s'.table? u.name).isSome :=
    isSome_find?_eq h (isNamed_congr hTable.name)
  unfold Schema.define
  rw [hThere]
  split
  · exact forall₂_updateFirst h (isNamed_congr hTable.name) fun _ _ _ => hTable
  · exact List.rel_append h (.cons hTable .nil)

omit hQ hF in
theorem dropTables (h : s.Alike Q s') {names names' : List QualifiedName}
    (hNames : Like .letterCase names names') :
    (names.foldl (fun s name => s.dropTable name.name) s).Alike Q
      (names'.foldl (fun s name => s.dropTable name.name) s') := by
  refine List.rel_foldl (fun s s' hAlike name name' hName => ?_) h (like_iff_forall₂.mp hNames)
  exact forall₂_eraseP hAlike (isNamed_congr (congrArg QualifiedName.name hName))

/-- Of a statement only a column that is renamed can come apart. -/
theorem apply_iff (h : s.Alike Q s') {x y : Statement} (hStatement : Like .letterCase x y) :
    (s.apply x).Alike Q (s'.apply y) ↔ ∀ r ∈ s.renamed? x, ∀ r' ∈ s'.renamed? y, F r r' := by
  cases x with
  | createTable c =>
    cases y with
    | createTable c' =>
      have hTable := Table.alike_ofCreateTable hQ (Statement.createTable.inj hStatement)
      exact iff_of_true (h.define hTable) (by simp [renamed?])
    | _ => cases hStatement
  | dropTable d =>
    cases y with
    | dropTable d' =>
      have hNames : Like .letterCase d.names d'.names :=
        congrArg DropTable.names (Statement.dropTable.inj hStatement)
      exact iff_of_true (h.dropTables hNames) (by simp [renamed?])
    | _ => cases hStatement
  | alterTable a =>
    cases y with
    | alterTable a' =>
      obtain ⟨hTable, hAction, -⟩ := AlterTable.mk.inj (Statement.alterTable.inj hStatement)
      have hName := isNamed_congr (Q := Q) (congrArg QualifiedName.name hTable)
      have hFirst := rel_find? h hName
      have hAlter : (s.apply (.alterTable a)).Alike Q (s'.apply (.alterTable a')) ↔
          ∀ t ∈ s.table? a.table.name, ∀ u ∈ s'.table? a'.table.name,
            ∀ r ∈ t.renamed? a.action, ∀ r' ∈ u.renamed? a'.action, F r r' :=
        (forall₂_updateFirst_iff h hName).trans (forall₄_congr fun t ht u hu =>
          (hFirst t ht u hu).alter_iff hQ hF hAction)
      refine hAlter.trans ?_
      simp only [renamed?, Option.mem_def, Option.bind_eq_some_iff, forall_exists_index, and_imp]
      exact ⟨fun hAll r t ht hr r' u hu hr' => hAll t ht u hu r hr r' hr',
        fun hAll t ht u hu r hr r' hr' => hAll r t ht hr r' u hu hr'⟩
    | _ => cases hStatement
  | insert i => cases y with
    | insert => exact iff_of_true h (by simp [renamed?])
    | _ => cases hStatement
  | update i => cases y with
    | update => exact iff_of_true h (by simp [renamed?])
    | _ => cases hStatement
  | delete i => cases y with
    | delete => exact iff_of_true h (by simp [renamed?])
    | _ => cases hStatement
  | select i => cases y with
    | select => exact iff_of_true h (by simp [renamed?])
    | _ => cases hStatement

end Schema.Alike

/-! ### Runs -/

omit hQ hF in
theorem Schema.ofStatements_take_succ {xs : List Statement} {n : Nat} {x : Statement}
    (hx : xs[n]? = some x) :
    ofStatements (xs.take (n + 1)) = (ofStatements (xs.take n)).apply x := by
  rw [List.take_add_one, hx, ofStatements, ofStatements, applyAll, applyAll, List.foldl_append]
  rfl

/-- Two runs of alike statements stay alike if and only if no column that is renamed comes apart. -/
theorem Schema.alike_take_iff {xs ys : List Statement} (h : Like .letterCase xs ys) :
    (∀ n, (ofStatements (xs.take n)).Alike Q (ofStatements (ys.take n))) ↔
      ∀ n x y, xs[n]? = some x → ys[n]? = some y →
        ∀ r ∈ (ofStatements (xs.take n)).renamed? x, ∀ r' ∈ (ofStatements (ys.take n)).renamed? y,
          F r r' := by
  have hLike : ∀ {n : Nat} {x y : Statement}, xs[n]? = some x → ys[n]? = some y →
      Like .letterCase x y := by
    intro n x y hx hy
    have hErased : xs.map (Statement.erase .letterCase) = ys.map (Statement.erase .letterCase) := h
    have hAt := congrArg (·[n]?) hErased
    simp only [List.getElem?_map, hx, hy] at hAt
    exact Option.some.inj hAt
  constructor
  · intro hAlike n x y hx hy
    have hNext := hAlike (n + 1)
    rw [ofStatements_take_succ hx, ofStatements_take_succ hy] at hNext
    exact ((hAlike n).apply_iff hQ hF (hLike hx hy)).mp hNext
  · intro hRenamed n
    induction n with
    | zero => exact .nil
    | succ n ih =>
      have hLengths : xs.length = ys.length := (like_iff_forall₂.mp h).length_eq
      cases hx : xs[n]? with
      | some x =>
        have hThere : n < ys.length := hLengths ▸ (List.getElem?_eq_some_iff.mp hx).1
        have hy := List.getElem?_eq_getElem hThere
        rw [ofStatements_take_succ hx, ofStatements_take_succ hy]
        exact (ih.apply_iff hQ hF (hLike hx hy)).mpr (hRenamed n x _ hx hy)
      | none =>
        have hy : ys[n]? = none := by
          rw [List.getElem?_eq_none_iff] at hx ⊢
          omega
        rwa [List.take_add_one, hx, List.take_add_one, hy, Option.toList_none, List.append_nil,
          List.append_nil]

end

/-- Of two columns that are renamed, with their new names: the properties follow the names in both
or in neither, or the new name is the property itself. -/
def FollowAlike (r r' : Column × String) : Prop :=
  (r.1.property = r.1.name ↔ r'.1.property = r'.1.name) ∨ Like .letterCase r.1.property r.2

theorem like_renamed_property_iff {c d : Column} {newName newName' : String}
    (h : c.Alike (Like .letterCase) d) (hNew : Like .letterCase newName newName') :
    Like .letterCase (c.renamed newName).property (d.renamed newName').property ↔
      FollowAlike (c, newName) (d, newName') := by
  have hProperty : c.property.toLower = d.property.toLower := h.property
  have hNames : newName.toLower = newName'.toLower := hNew
  show (if c.property = c.name then newName else c.property).toLower =
      (if d.property = d.name then newName' else d.property).toLower ↔
    (c.property = c.name ↔ d.property = d.name) ∨ c.property.toLower = newName.toLower
  by_cases hc : c.property = c.name <;> by_cases hd : d.property = d.name
  · exact iff_of_true (by rw [if_pos hc, if_pos hd, hNames]) (.inl (iff_of_true hc hd))
  · rw [if_pos hc, if_neg hd, hProperty, or_iff_right (fun hBoth => hd (hBoth.mp hc)), eq_comm]
  · rw [if_neg hc, if_pos hd, hNames, or_iff_right (fun hBoth => hc (hBoth.mpr hd))]
  · exact iff_of_true (by rw [if_neg hc, if_neg hd, hProperty]) (.inl (iff_of_false hc hd))

/-- **The letter case of a text and the schema.** A text and the same text in another letter case
make the same tables, columns, marks and keys in the same order, up to the case of names, and so
does every part of the texts. The properties of the columns are the same up to letter case if and
only if of no two columns that are renamed one takes its property along and the other does not. -/
theorem Schema.alike_recased_iff {a b : String} (h : Recased a b) (options : ParseOptions) :
    (∀ n, (ofStatements ((parse options a).statements.take n)).Alike (fun _ _ => True)
      (ofStatements ((parse options b).statements.take n))) ∧
    ((∀ n, (ofStatements ((parse options a).statements.take n)).Alike (Like .letterCase)
      (ofStatements ((parse options b).statements.take n))) ↔
      ∀ n x y, (parse options a).statements[n]? = some x →
      (parse options b).statements[n]? = some y →
        ∀ r ∈ (ofStatements ((parse options a).statements.take n)).renamed? x,
        ∀ r' ∈ (ofStatements ((parse options b).statements.take n)).renamed? y,
          FollowAlike r r') := by
  obtain ⟨hStatements, -⟩ := parse_recased h options
  constructor
  · refine (alike_take_iff (F := fun _ _ => True) (fun _ => trivial) (fun _ _ => Iff.rfl)
      hStatements).mpr fun _ _ _ _ _ _ _ _ _ => trivial
  · exact alike_take_iff id like_renamed_property_iff hStatements

/-! ### A column in capital and in small letters -/

/-- A column that is given another name. -/
def renamingText : String := "CREATE TABLE t (a INT); ALTER TABLE t RENAME COLUMN a TO b"

/-- The same in another letter case. -/
def recasedRenamingText : String := "Create Table t (a Int); Alter Table t Rename Column A To b"

/-- The property follows the name in both texts. -/
theorem Schema.alike_recased_renamingText :
    Recased renamingText recasedRenamingText ∧
      ∀ n, (ofStatements ((parse .standard renamingText).statements.take n)).Alike
        (Like .letterCase)
        (ofStatements ((parse .standard recasedRenamingText).statements.take n)) := by
  have hRecased : Recased renamingText recasedRenamingText :=
    ⟨by decide +kernel, by decide +kernel⟩
  refine ⟨hRecased, (alike_recased_iff hRecased .standard).2.mpr ?_⟩
  intro n x y hx hy r hr r' hr'
  have hLengths : (parse .standard renamingText).statements.length = 2 ∧
      (parse .standard recasedRenamingText).statements.length = 2 :=
    ⟨by decide +kernel, by decide +kernel⟩
  have hn : n < 2 := hLengths.1 ▸ (List.getElem?_eq_some_iff.mp hx).1
  have hFirst : ∀ n < 2, ∀ x ∈ (parse .standard renamingText).statements[n]?,
      ∀ r ∈ (ofStatements ((parse .standard renamingText).statements.take n)).renamed? x,
        r.1.property = r.1.name := by
    decide +kernel
  have hSecond : ∀ n < 2, ∀ y ∈ (parse .standard recasedRenamingText).statements[n]?,
      ∀ r ∈ (ofStatements ((parse .standard recasedRenamingText).statements.take n)).renamed? y,
        r.1.property = r.1.name := by
    decide +kernel
  exact .inl (iff_of_true (hFirst n hn x hx r hr) (hSecond n hn y hy r' hr'))

/-- A column that is defined anew, its name spelled so, and then given another name. -/
def redefiningText (spelling : String) : String :=
  "CREATE TABLE t (a INT); ALTER TABLE t ALTER COLUMN " ++ spelling ++
    " INT; ALTER TABLE t RENAME COLUMN a TO b"

/-- The properties of all columns of a schema. -/
def Schema.properties (s : Schema) : List String :=
  s.tables.flatMap fun t => t.columns.map (·.property)

theorem Schema.Alike.properties {s u : Schema} (h : s.Alike (Like .letterCase) u) :
    List.Forall₂ (Like .letterCase) s.properties u.properties :=
  List.rel_flatMap h fun _ _ hTable =>
    List.rel_map (fun _ _ hColumn => hColumn.property) hTable.columns

/-- The property follows the name in one of two texts only. -/
theorem Schema.not_alike_recased_redefiningText :
    Recased (redefiningText "a") (redefiningText "A") ∧
      (parse .standard (redefiningText "a")).errors = [] ∧
      (parse .standard (redefiningText "A")).errors = [] ∧
      ¬ (ofStatements (parse .standard (redefiningText "a")).statements).Alike (Like .letterCase)
        (ofStatements (parse .standard (redefiningText "A")).statements) := by
  refine ⟨⟨by decide +kernel, by decide +kernel⟩, by decide +kernel, by decide +kernel, ?_⟩
  have hProperties :
      (ofStatements (parse .standard (redefiningText "a")).statements).properties = ["b"] ∧
      (ofStatements (parse .standard (redefiningText "A")).statements).properties = ["a"] :=
    ⟨by decide +kernel, by decide +kernel⟩
  intro hAlike
  have hColumns := hAlike.properties
  rw [hProperties.1, hProperties.2] at hColumns
  cases hColumns with
  | cons hProperty =>
    have hDistinct : "b".toLower ≠ "a".toLower := by decide +kernel
    exact hDistinct hProperty

end SqlKit
