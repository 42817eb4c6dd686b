import SqlKit.Proofs.Rendering.Survival
import SqlKit.Proofs.Schema.Marks

/-!
# Names of tables

A statement without quoted names brings only words into a schema that are not reserved, and no
change of a table puts a name together. So the name of a table and the names of its columns are
words of that sort in every schema that such statements make (`Schema.named_ofStatements`).
-/

namespace SqlKit

open Grammar

/-! ## Names that statements bring in -/

/-- The name of a column that is defined. -/
def TableElement.Named : TableElement → Prop
  | .column d => IsName d.name
  | .constraint _ => True

/-- The new name of a column. -/
def ColumnChange.Named : ColumnChange → Prop
  | .rename newName => IsName newName
  | .redefine d => IsName d.name
  | _ => True

/-- The new name of a table or of a column. -/
def AlterAction.Named : AlterAction → Prop
  | .addColumn d => IsName d.name
  | .alterColumn _ change => change.Named
  | .renameTable newName | .renameColumn _ newName => IsName newName
  | _ => True

/-- The names that a statement brings into a schema are words that are not reserved. -/
def Statement.Named : Statement → Prop
  | .createTable c => IsQualified c.name ∧ ∀ e ∈ c.elements, e.Named
  | .alterTable a => a.action.Named
  | _ => True

namespace Grammar

open Parse

variable (rules : Rules)

theorem yields_columnRest {name : String} (hName : IsName name) (first : Span) :
    Yields Token.Bare (columnRest rules name first) fun d => IsName d.name :=
  .behind fun _ => .behind fun _ => .behind fun _ => .behind fun _ => .behind fun _ =>
    .behind fun _ => .behind fun _ => .behind fun _ => .pure hName

theorem yields_columnDefinition :
    Yields Token.Bare (columnDefinition rules) fun d => IsName d.name :=
  .behind fun _ => (yields_name _).bind fun _ hName => yields_columnRest rules hName _

theorem yields_tableElement : Yields Token.Bare (tableElement rules) TableElement.Named :=
  .choose ((yields_columnDefinition rules).bind fun _ hName => .pure hName)
    (.behind fun _ => .pure trivial)

theorem yields_tableElements :
    Yields Token.Bare (tableElements rules) fun es => ∀ e ∈ es, e.Named :=
  .choose ((yields_tableElement rules).separated.bind fun _ hElements => .behind fun _ =>
    .pure hElements.2) (.pure (by simp))

theorem yields_createTable : Yields Token.Bare (createTable rules) fun c =>
    IsQualified c.name ∧ ∀ e ∈ c.elements, e.Named := by
  refine .spanned (.behind fun _ => .behind fun _ => .behind fun _ => .behind fun _ => ?_)
  exact (yields_qualifiedName _).bind fun _ hName => (yields_tableElements rules).bind
    fun _ hElements => .behind fun _ => .pure fun _ => ⟨hName, hElements⟩

theorem yields_addition : Yields Token.Bare (addition rules) AlterAction.Named :=
  .choose (.behind fun _ => .pure trivial)
    (.behind fun _ => (yields_columnDefinition rules).bind fun _ hName => .pure hName)

theorem yields_columnChange {column : String} (hColumn : IsName column) (first : Span) :
    Yields Token.Bare (columnChange rules column first) ColumnChange.Named := by
  refine .choose (.behind fun _ => (yields_name _).bind fun _ hName => .pure hName) ?_
  refine .choose ?_ (.choose ?_ ((yields_columnRest rules hColumn first).bind fun _ hName =>
    .pure hName))
  · exact .choose (.behind fun _ => .pure trivial) (.choose (.behind fun _ => .pure trivial)
      (.behind fun _ => .pure trivial))
  · exact .choose (.pure trivial) (.behind fun _ => .behind fun _ => .pure trivial)

theorem yields_alteration : Yields Token.Bare (alteration rules) AlterAction.Named := by
  have hBehind : Yields Token.Bare (do
      let first := (← current).span
      let column ← name .column
      return .alterColumn column (← columnChange rules column first)) AlterAction.Named :=
    .behind fun _ => (yields_name _).bind fun _ hColumn =>
      (yields_columnChange rules hColumn _).bind fun _ hChange => .pure hChange
  refine .behind fun column => .behind fun following => ?_
  split
  · exact .behind fun _ => hBehind
  · exact hBehind

theorem yields_removal : Yields Token.Bare removal AlterAction.Named :=
  .choose (.behind fun _ => .pure trivial) (.choose (.behind fun _ => .pure trivial)
    (.behind fun _ => .behind fun _ => .pure trivial))

theorem yields_renameAction : Yields Token.Bare renameAction AlterAction.Named :=
  .choose ((yields_name _).bind fun _ hName => .pure hName)
    (.behind fun _ => .behind fun _ => .behind fun _ => (yields_name _).bind fun _ hName =>
      .pure hName)

theorem yields_alterAction : Yields Token.Bare (alterAction rules) AlterAction.Named :=
  .choose (yields_addition rules) (.choose (yields_alteration rules)
    (.choose yields_removal (.choose yields_renameAction .fail)))

theorem yields_alterTable : Yields Token.Bare (alterTable rules) fun a => a.action.Named :=
  .spanned (.behind fun _ => .behind fun _ => .behind fun _ => (yields_alterAction rules).bind
    fun _ hAction => .pure fun _ => hAction)

theorem yields_statementOfKind : Yields Token.Bare (statementOfKind rules) Statement.Named := by
  refine .behind fun kind => ?_
  split
  · exact .map (yields_createTable rules)
  · exact .map (yields_alterTable rules)
  all_goals exact .map ((Yields.any _).imp fun _ _ => trivial)

end Grammar

/-- The statements of a text without quoted names. -/
theorem named_of_mem {options : ParseOptions} {text : String}
    (hNames : ∀ t ∈ tokensOf text, t.isQuotedName = false) :
    ∀ x ∈ (parse options text).statements, x.Named := by
  intro x hx
  obtain ⟨seg, hSegment, b, rfl, hError⟩ := mem_statements hx
  have hBare : ∀ t ∈ seg.tokens, t.Bare := fun t ht =>
    have hText := segments_mem hSegment ht
    bare_tokensOf hText (hNames t hText)
  obtain ⟨hRun, -⟩ := Segment.After.statement (s := seg.start b) (segments_whole hSegment) hError
  have hYielded : After (statementOfKind (.forTokens seg.tokens.length)) (seg.start b)
      fun x _ => x.Named := yields_statementOfKind _ _ hBare
  exact hYielded.result hRun hError

/-! ## Tables that statements make -/

/-- The names that SQL knows a table and its columns by are words that are not reserved. -/
structure Table.Named (t : Table) : Prop where
  name : IsQualified ⟨t.schema, t.name⟩
  columns : ∀ c ∈ t.columns, IsName c.name

namespace Table.Named

variable {t : Table}

theorem updateColumn (h : t.Named) (name : String) {f : Column → Column}
    (hf : ∀ c, IsName c.name → IsName (f c).name) : (t.updateColumn name f).Named :=
  ⟨h.name, forall_mem_updateFirst h.columns hf⟩

theorem addUniqueKey (h : t.Named) (name : Option String) (columns : List String) :
    (t.addUniqueKey name columns).Named := by
  unfold Table.addUniqueKey
  split <;> exact ⟨h.name, h.columns⟩

theorem addColumn (h : t.Named) {d : ColumnDefinition} (hd : IsName d.name) :
    (t.addColumn d).Named := by
  have hKey : ∀ b : Bool, (if b then { t with primaryKey := t.primaryKey ++ [d.name] }
      else t).Named := by
    rintro (_ | _)
    · exact h
    · exact ⟨h.name, h.columns⟩
  have hUnique : ∀ (b : Bool) (u : Table), u.Named →
      (if b then u.addUniqueKey none [d.name] else u).Named := by
    rintro (_ | _) u hu
    · exact hu
    · exact hu.addUniqueKey _ _
  have hBoth := hUnique (Column.ofDefinition d).unique _
    (hKey ((Column.ofDefinition d).primaryKey && !hasName t.primaryKey d.name))
  refine ⟨hBoth.name, List.forall_mem_append.mpr ⟨hBoth.columns, ?_⟩⟩
  exact List.forall_mem_singleton.mpr hd

theorem setPrimaryKey (h : t.Named) (columns : List String) : (t.setPrimaryKey columns).Named := by
  refine ⟨h.name, fun c hc => ?_⟩
  obtain ⟨c, hMem, rfl⟩ := List.mem_map.mp hc
  split <;> exact h.columns c hMem

theorem addUnique (h : t.Named) (name : Option String) (columns : List String) :
    (t.addUnique name columns).Named := by
  unfold Table.addUnique
  split
  · next single =>
    have hMarked : (t.updateColumn single fun c => { c with unique := true }).Named :=
      h.updateColumn single fun _ hc => hc
    exact hMarked.addUniqueKey _ _
  · exact h.addUniqueKey _ _

theorem addConstraint (h : t.Named) (c : Constraint) : (t.addConstraint c).Named := by
  unfold Table.addConstraint
  split
  · exact h.setPrimaryKey _
  · exact h.addUnique _ _
  · exact ⟨h.name, h.columns⟩
  · exact h

theorem renameColumn (h : t.Named) (column : String) {newName : String} (hNew : IsName newName) :
    (t.renameColumn column newName).Named :=
  ⟨h.name, forall_mem_updateFirst h.columns fun _ _ => hNew⟩

theorem redefineColumn (h : t.Named) (column : String) {d : ColumnDefinition} (hd : IsName d.name) :
    (t.redefineColumn column d).Named := by
  have hChanged : (t.updateColumn column (·.redefined d)).Named := by
    refine h.updateColumn column fun c _ => ?_
    unfold Column.redefined
    split <;> exact hd
  unfold Table.redefineColumn
  split
  · exact hChanged.addUniqueKey _ _
  · exact hChanged

theorem alterColumn (h : t.Named) (column : String) {change : ColumnChange}
    (hChange : change.Named) :
    (t.alterColumn column change).Named := by
  cases change with
  | rename newName => exact h.renameColumn column hChange
  | redefine d => exact h.redefineColumn column hChange
  | setNotNull | dropNotNull | setNull => exact h.updateColumn column fun _ hc => hc
  | setDefault | dropDefault => exact h

theorem alter (h : t.Named) {action : AlterAction} (hAction : action.Named) :
    (t.alter action).Named := by
  cases action with
  | addColumn d => exact h.addColumn hAction
  | addConstraint c => exact h.addConstraint c
  | alterColumn column change => exact h.alterColumn column hAction
  | dropColumn column => exact ⟨h.name, fun c hc => h.columns c (List.mem_of_mem_filter hc)⟩
  | dropConstraint name => exact ⟨h.name, h.columns⟩
  | dropPrimaryKey =>
    refine ⟨h.name, fun c hc => ?_⟩
    obtain ⟨c, hMem, rfl⟩ := List.mem_map.mp hc
    exact h.columns c hMem
  | renameTable newName => exact ⟨⟨h.name.schema, hAction⟩, h.columns⟩
  | renameColumn column newName => exact h.renameColumn column hAction

end Table.Named

theorem Table.named_ofCreateTable {c : CreateTable} (hName : IsQualified c.name)
    (hElements : ∀ e ∈ c.elements, e.Named) : (Table.ofCreateTable c).Named := by
  refine List.foldlRecOn c.elements Table.addElement ⟨hName, by simp⟩ fun t ht e he => ?_
  cases e with
  | column d => exact ht.addColumn (hElements _ he)
  | constraint constraint => exact ht.addConstraint constraint

/-- The tables of a schema have such names. -/
def Schema.Named (s : Schema) : Prop := ∀ t ∈ s.tables, t.Named

namespace Schema.Named

variable {s : Schema}

theorem define (h : s.Named) {t : Table} (ht : t.Named) : (s.define t).Named := by
  unfold Schema.define
  split
  · exact forall_mem_updateFirst h fun _ _ => ht
  · exact List.forall_mem_append.mpr ⟨h, by simpa using ht⟩

theorem dropTable (h : s.Named) (name : String) : (s.dropTable name).Named :=
  fun t ht => h t (List.mem_of_mem_eraseP ht)

theorem apply (h : s.Named) {x : Statement} (hx : x.Named) : (s.apply x).Named := by
  cases x with
  | createTable c => exact h.define (Table.named_ofCreateTable hx.1 hx.2)
  | alterTable a => exact forall_mem_updateFirst h fun _ ht => ht.alter hx
  | dropTable d => exact List.foldlRecOn d.names _ h fun s hs name _ => hs.dropTable name.name
  | insert | update | delete | select => exact h

end Schema.Named

/-- The tables that statements with such names make have such names. -/
theorem Schema.named_ofStatements {xs : List Statement} (h : ∀ x ∈ xs, x.Named) :
    (Schema.ofStatements xs).Named :=
  List.foldlRecOn xs Schema.apply (by simp [Schema.Named, Schema.empty]) fun _ hs x hx =>
    hs.apply (h x hx)

end SqlKit
