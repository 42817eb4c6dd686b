import SqlKit.Proofs.Tables.Constraints

/-!
# Table definitions are read back

`parse_tableForm`: the text of a table definition is one statement, which is the table that the form
stands for up to the places of its parts. An entry of the table is told from the kind of its first
token: names start columns, and the words that constraints start with are reserved.
-/

namespace SqlKit

open Grammar Parse

variable {k : Nat}

/-! ## Entries -/

theorem legal_element {e : ElementForm} (h : e.Proper) : Script.Legal e.row := by
  cases e with
  | column c => exact legal_column h
  | constraint c => exact legal_constraint h

theorem seesName_eq : seesName = look fun s => isNameKind s.current.kind := by
  simp only [seesName, isSome_nameOf?]

/-- An entry is read back as the column or the constraint that it is. -/
theorem reads_tableElement {e : ElementForm} (h : e.Proper) :
    Reads k (fun rules => tableElement rules) e.row (paramMarks e.element.nodes) 10
      (Like .spans e.element) := by
  unfold tableElement
  rw [seesName_eq]
  cases e with
  | column c =>
    refine Reads.lookKind true (fun more _ => isNameKind_wordKind (ColumnForm.Proper.name h)) ?_
    refine (reads_columnDefinition h).bindEnd fun d hSame => Reads.pure ?_
    exact congrArg TableElement.column hSame
  | constraint c =>
    refine Reads.lookKind false (fun more _ => ?_) ?_
    · obtain ⟨word, hFirst, hReserved⟩ := first_constraint c more
      rw [ElementForm.row, hFirst, isNameKind, hReserved]
      rfl
    · refine (reads_tableConstraint h).bindEnd fun d hSame => Reads.pure ?_
      exact congrArg TableElement.constraint hSame

/-- The entries of a table are read back in their order. -/
theorem reads_tableElements {elements : List ElementForm} (hSome : elements ≠ [])
    (h : ∀ e ∈ elements, e.Proper) : Reads k (fun rules => tableElements rules)
      (elementsRow elements) (paramMarks (elements.flatMap fun e => e.element.nodes)) 0
      (Like .spans (elements.map ElementForm.element)) := by
  refine Reads.askThen rfl ?_
  refine (Reads.separated hSome fun e he => reads_tableElement (h e he)).bindLast
    (stops_cons rfl (by decide)) fun es hes => ?_
  exact Reads.expect (Reads.pure hes)

/-! ## The words of a table -/

section Words

variable {α : Type} {gs : Script} {ms : List ParamMark} {level : Nat} {Q : α → Prop}

theorem Reads.temporary {m : Rules → Bool → Parse α} (t : TemporaryForm)
    (h : Reads k (fun rules => m rules (t ≠ .unstated)) (.keyword .TABLE :: gs) ms level Q) :
    Reads k (fun rules => Grammar.temporary >>= m rules) (t.row ++ .keyword .TABLE :: gs) ms level
      Q := by
  cases t with
  | unstated =>
    simp only [Grammar.temporary, bind_assoc]
    refine Reads.eatNone (fun _ _ hWord => by cases hWord) ?_
    exact Reads.eatNone (fun _ _ hWord => by cases hWord) h
  | temp =>
    have hWord : Reads k (fun _ => Grammar.temporary) [.keyword .TEMP, .blank] [] 0 (· = true) :=
      Reads.eatThen rfl (Reads.blank (Reads.pure rfl))
    refine Reads.bindFirst hWord (fun _ _ => Nat.zero_le _) ?_
    rintro _ rfl
    exact h
  | temporary =>
    simp only [Grammar.temporary, bind_assoc]
    refine Reads.eatNone (fun _ _ hWord => by cases hWord) ?_
    exact Reads.eat rfl (Reads.blank (h.mono (Nat.le_succ k) le_rfl))

/-- Where the words are missing, what is behind them must not start like them. -/
theorem Reads.ifNotExists {m : Rules → Bool → Parse α} {b : Bool}
    (hFirst : b = false → Leads level (fun ks => first ks ≠ .keyword .IF) gs)
    (h : Reads k (fun rules => m rules b) gs ms level Q) :
    Reads k (fun rules => Grammar.ifNotExists >>= m rules) (ifNotExistsRow b ++ gs) ms level Q := by
  cases b with
  | true =>
    have hWords : Reads k (fun _ => Grammar.ifNotExists) (ifNotExistsRow true) [] 0 (· = true) := by
      refine Reads.eatThen rfl (Reads.blank (Reads.expectKeyword (Reads.blank ?_)))
      exact Reads.expectKeyword (Reads.blank (Reads.pure rfl))
    refine Reads.bindFirst hWords (fun _ _ => Nat.zero_le _) ?_
    rintro _ rfl
    exact h
  | false =>
    simp only [Grammar.ifNotExists, bind_assoc]
    exact Reads.eatNone (hFirst rfl) h

theorem reads_wordPair {word word' : Keyword} (present : Bool)
    (h : closes (.keyword word) < level) :
    Reads k (fun _ => wordPair word word') (pairRow present word word') [] level (· = present) := by
  cases present with
  | true =>
    exact Reads.blank (Reads.eatThen rfl (Reads.blank (Reads.expectKeyword (Reads.pure rfl))))
  | false => exact Reads.eatElse (leads_ne h) (Reads.pure rfl)

end Words

/-! ## Tables -/

variable {t : TableForm}

theorem legal_table (h : t.Proper) : Script.Legal t.row := by
  have hElements := legal_commaRow fun e he => legal_element (h.elements e he)
  have hBody : Script.Legal (.blank :: (elementsRow t.elements ++
      pairRow t.withoutRowid .WITHOUT .ROWID)) := by
    cases t.withoutRowid <;> simpa [elementsRow, pairRow, Glyph.Fits] using hElements
  have hName := legal_qualifiedName h.name hBody (Script.detached_cons rfl)
  unfold TableForm.row
  cases t.temporary <;> cases t.ifNotExists <;>
    simpa [TemporaryForm.row, ifNotExistsRow] using hName

/-- A table is read back. -/
theorem reads_createTable (h : t.Proper) : Reads k (fun rules => createTable rules) t.row
    (paramMarks (Statement.createTable t.definition).nodes) 19 (Like .spans t.definition) := by
  refine Reads.spanned (Reads.expectKeyword (Reads.blank (Reads.temporary t.temporary ?_)))
  refine Reads.expectKeyword (Reads.blank (Reads.ifNotExists (fun hMissing more _ => ?_) ?_))
  · have hFirst := h.leader hMissing
    rwa [← first_qualifiedName t.name, ← List.append_assoc] at hFirst
  · refine Reads.qualifiedName h.name (fun _ _ hDot => by cases hDot) (Reads.blank ?_)
    have hWords : Stops 0 19 (pairRow t.withoutRowid .WITHOUT .ROWID) := fun _ _ => Nat.zero_le _
    refine Reads.cast (Reads.bindLast (reads_tableElements h.nonempty h.elements) hWords ?_) rfl ?_
    · intro es hes
      refine (reads_wordPair _ (by decide)).bindEnd ?_
      rintro _ rfl
      refine Reads.pure fun span => ?_
      simp_all [Like, Erasable.erase, CreateTable.erase, TableForm.definition, Erasure.spans]
    · simp [Statement.nodes, TableForm.definition, List.flatMap_map]

/-- A statement that starts with `CREATE` is a table. -/
theorem reads_statement (h : t.Proper) : Reads k (fun rules => statementOfKind rules) t.row
    (paramMarks (Statement.createTable t.definition).nodes) 19
    fun x => ∃ s, x = .createTable s ∧ Like .spans t.definition s := by
  unfold statementOfKind
  refine Reads.lookKind (f := id) (.keyword .CREATE) (fun _ _ => rfl) ?_
  exact (reads_createTable h).map fun s hs => ⟨s, rfl, hs⟩

/-- **Tables are read as they are defined.** The text of a table definition is one statement without
an error, which is the table up to the places of its parts. -/
theorem parse_tableForm (h : t.Proper) :
    ∃ s, parse .standard t.text = ⟨[.createTable s], [], []⟩ ∧ Like .spans t.definition s := by
  obtain ⟨τ, hFollows⟩ := h.parameters
  have hText : Script.chars t.row = t.text.toList := String.toList_ofList.symm
  obtain ⟨_, ⟨s, rfl, hLike⟩, hParse⟩ := parse_row hText (legal_table h) (List.cons_ne_nil _ _)
    (reads_statement h) hFollows
  exact ⟨s, hParse, hLike⟩

/-- A table with constraints, around a default and a condition. -/
def sampleTable (default : Option Term) (condition : Option Expr) : TableForm where
  temporary := .temp
  ifNotExists := false
  name := ⟨some "main", "key"⟩
  elements := [
    .column ⟨"id", ⟨"bigint", none, none⟩, none, .notNull, some ⟨.identity, some ⟨⟨true, 5⟩, none⟩⟩,
      false, .hash, none⟩,
    .column ⟨"name", ⟨"Character Varying", some 20, none⟩, default, .null, none, true, .none,
      condition⟩,
    .constraint ⟨some "c", .foreignKey ["name"] ⟨.unqualified "other", [], [⟨.deletion, .cascade⟩,
      ⟨.change, .setNull⟩, ⟨.deletion, .noAction⟩]⟩⟩]
  withoutRowid := true

theorem marks_sampleTable (default : Term) (condition : Expr) : paramMarks (Statement.createTable
    (sampleTable (some default) (some condition)).definition).nodes =
      paramMarks default.nodes ++ paramMarks condition.nodes := by
  simp [Statement.nodes, TableForm.definition, sampleTable, ElementForm.element, TableElement.nodes,
    ColumnForm.definition, ColumnDefinition.nodes, nodesOption, ConstraintForm.constraint,
    DemandForm.demand, Demand.nodes]

theorem proper_sampleTable {default : Term} {condition : Expr} (hDefault : default.Rereadable)
    (hCondition : condition.Rereadable) (hMarks : paramMarks default.nodes = [])
    (hMarks' : paramMarks condition.nodes = []) :
    (sampleTable (some default) (some condition)).Proper where
  name := by
    refine ⟨?_, (by decide +kernel : IsName "key")⟩
    rintro _ ⟨⟩
    exact (by decide +kernel : IsName "main")
  leader _ := (by decide +kernel : wordKind "main" ≠ .keyword .IF)
  nonempty := List.cons_ne_nil _ _
  elements := by
    have hType : ColumnType.Proper ⟨"bigint", none, none⟩ :=
      ⟨⟨by simp, by simp⟩, .inl (by decide +kernel)⟩
    have hTwoWords : ColumnType.Proper ⟨"Character Varying", some 20, none⟩ := by
      refine ⟨⟨?_, by simp⟩, .inr ⟨"Character", "Varying", by decide +kernel⟩⟩
      rintro _ ⟨⟩
      exact by decide +kernel
    have hName : IsName "name" := by decide +kernel
    have hReference : ReferenceForm.Proper ⟨.unqualified "other", [], [⟨.deletion, .cascade⟩,
        ⟨.change, .setNull⟩, ⟨.deletion, .noAction⟩]⟩ :=
      ⟨⟨by simp [QualifiedName.unqualified], (by decide +kernel : IsName "other")⟩, by simp⟩
    refine List.forall_mem_cons.mpr ⟨?_, List.forall_mem_cons.mpr ⟨?_,
      List.forall_mem_singleton.mpr ?_⟩⟩
    · refine ⟨(by decide +kernel : IsName "id"), hType, by simp, ?_, by simp⟩
      rintro _ ⟨⟩ _ ⟨⟩
      exact ⟨(by decide : 5 ≤ Numeral.maxInteger), by simp⟩
    · exact ⟨hName, hTwoWords, by simpa using hDefault, by simp, by simpa using hCondition⟩
    · have hConstraint : IsName "c" := by decide +kernel
      exact ⟨by simpa using hConstraint, ⟨by simp, by simpa using hName⟩, hReference⟩
  parameters := ⟨_, by rw [marks_sampleTable, hMarks, hMarks']; rfl⟩

example : (sampleTable none none).text =
    "CREATE TEMP TABLE main.key (id bigint NOT NULL IDENTITY (-5) PRIMARY KEY HASH, " ++
    "name Character Varying(20) NULL UNIQUE, CONSTRAINT c FOREIGN KEY (name) REFERENCES other " ++
    "ON DELETE CASCADE ON UPDATE SET NULL ON DELETE NO ACTION) WITHOUT ROWID" := by decide +kernel

theorem parse_tableForm_sampleTable : ∃ default condition,
    default.sql = "-1" ∧ condition.sql = "name <> ''" ∧
      (sampleTable (some default) (some condition)).Proper ∧ ∃ s,
        parse .standard (sampleTable (some default) (some condition)).text =
          ⟨[.createTable s], [], []⟩ ∧
        Like .spans (sampleTable (some default) (some condition)).definition s := by
  obtain ⟨e, hDefault, hTerm⟩ := @exists_rereadable
    (fun e => e.term?.isSome && e.sql = "-1" && (paramMarks e.nodes).isEmpty) "SELECT -1"
    (by decide +kernel)
  obtain ⟨condition, hCondition, hExpr⟩ := @exists_rereadable
    (fun e => e.sql = "name <> ''" && (paramMarks e.nodes).isEmpty) "SELECT name <> ''"
    (by decide +kernel)
  simp only [Bool.and_eq_true, decide_eq_true_eq, List.isEmpty_iff] at hTerm hExpr
  obtain ⟨⟨hSome, hSql⟩, hMarks⟩ := hTerm
  obtain ⟨default, hSame⟩ := Option.isSome_iff_exists.mp hSome
  obtain rfl := Expr.term?_eq_some_iff.mp hSame
  have hProper := proper_sampleTable hDefault hCondition hMarks hExpr.2
  exact ⟨default, condition, hSql, hExpr.1, hProper, parse_tableForm hProper⟩

end SqlKit
