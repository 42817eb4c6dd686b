import SqlKit.Proofs.Tables.Columns

/-!
# Constraints are read back

Lists with commas, whatever their items are, the clauses of a foreign key, of which the last one for
an event counts (`foldl_applyOnClause`), and table constraints (`reads_tableConstraint`).
-/

namespace SqlKit

namespace Grammar

open Parse

variable {k level : Nat}

/-! ## Lists -/

section Lists

variable {α ι : Type} [Erasable α] {m : Rules → Parse α} {f : ι → α} {row : ι → Script}
  {nodes : ι → List Node} {items : List ι}

/-- The items of a list behind the first one. -/
def moreItems (row : ι → Script) (items : List ι) : Script :=
  items.flatMap fun x => .symbol .comma :: .blank :: row x

theorem commaRow_cons (x : ι) (items : List ι) :
    commaRow ((x :: items).map row) = row x ++ moreItems row items := by
  simp [commaRow, moreItems, List.flatMap_map]

theorem detached_moreItems (row : ι → Script) (items : List ι) :
    Script.Detached (moreItems row items) := by
  cases items with
  | nil => exact Script.detached_nil
  | cons x items => exact Script.detached_cons rfl

theorem legal_moreItems (h : ∀ x ∈ items, Script.Legal (row x)) :
    Script.Legal (moreItems row items) := by
  induction items with
  | nil => exact Script.legal_nil
  | cons x items ih =>
    obtain ⟨hHead, hItems⟩ := List.forall_mem_cons.mp h
    have hItem : Script.Legal (.symbol .comma :: .blank :: row x) := by simpa using hHead
    exact hItem.append (ih hItems) (detached_moreItems row items)

theorem legal_commaRow (h : ∀ x ∈ items, Script.Legal (row x)) :
    Script.Legal (commaRow (items.map row)) := by
  cases items with
  | nil => exact Script.legal_nil
  | cons x items =>
    obtain ⟨hHead, hItems⟩ := List.forall_mem_cons.mp h
    rw [commaRow_cons]
    exact hHead.append (legal_moreItems hItems) (detached_moreItems row items)

theorem stops_moreItems (row : ι → Script) (items : List ι) :
    Stops 10 11 (moreItems row items) := by
  cases items with
  | nil => exact stops_nil (by decide)
  | cons x items => exact stops_cons rfl le_rfl

/-- The items behind the first one are read back one by one. -/
theorem Reads.chainOfComma (h : ∀ x ∈ items, Reads k m (row x) (paramMarks (nodes x)) 10
    (Like .spans (f x))) : Reads k (fun rules => chainOf .comma (m rules)) (moreItems row items)
      (paramMarks (items.flatMap nodes)) 11 (Like .spans (items.map f)) := by
  induction items with
  | nil => exact Reads.chainNil (accept_none (by decide)) rfl
  | cons x items ih =>
    obtain ⟨hHead, hItems⟩ := List.forall_mem_cons.mp h
    have hEntry : Reads k (fun rules => entry
        (fun t => if t.kind = .symbol .comma then some () else none) fun _ => m rules)
        (.symbol .comma :: .blank :: row x) (paramMarks (nodes x)) 10
        fun o => ∃ a, o = some a ∧ Like .spans (f x) a :=
      Reads.take rfl (fun t hKind _ => accept_symbol hKind)
        (((hHead.mono (Nat.le_succ k) le_rfl).blank).map fun a ha => ⟨a, rfl, ha⟩)
    rw [List.flatMap_cons, paramMarks_append]
    refine (hEntry.chainCons (stops_moreItems row items) (ih hItems)).imp ?_
    rintro _ ⟨a, as, rfl, ha, has⟩
    exact ha.cons has

/-- A list with commas is read back, if its items are. -/
theorem Reads.separated (hSome : items ≠ []) (h : ∀ x ∈ items, Reads k m (row x)
    (paramMarks (nodes x)) 10 (Like .spans (f x))) :
    Reads k (fun rules => Parse.separated (m rules)) (commaRow (items.map row))
      (paramMarks (items.flatMap nodes)) 11 (Like .spans (items.map f)) := by
  obtain ⟨x, items, rfl⟩ := List.exists_cons_of_ne_nil hSome
  obtain ⟨hHead, hItems⟩ := List.forall_mem_cons.mp h
  rw [commaRow_cons, List.flatMap_cons, paramMarks_append]
  refine hHead.bind (stops_moreItems row items) fun a ha => ?_
  exact (Reads.chainOfComma hItems).bindEnd fun as has => Reads.pure (ha.cons has)

end Lists

/-! ## Lists of columns -/

/-- Columns in parentheses are read back. -/
theorem shown_columnList {columns : List String} (h : IsColumns columns) :
    Shown k .columnList (fun _ => columnList) 0 (fun ks => first ks = .symbol .leftParen) columns
      (columnsRow columns) := by
  have hEmpty : columns.isEmpty = false := by simpa using h.1
  have hRow : columnsRow columns = Print.columnList.row columns := if_neg (by simp [hEmpty])
  rw [hRow, row_columnList]
  refine ⟨rfl, ?_, fun _ _ => rfl, ?_⟩
  · have hColumns : Script.Legal (commaRow (columns.map fun c => [.name c])) :=
      legal_commaRow fun m hm => (Script.legal_singleton _).mpr (h.2 m hm)
    simpa using hColumns
  · have hColumns := Reads.separated (k := k + 1) (f := id) h.1 fun m hm =>
      (shown_listedColumn (h.2 m hm)).reads.mono le_rfl (by decide : 8 ≤ 10)
    rw [List.map_id] at hColumns
    refine Reads.askThen rfl (hColumns.bindLast (stops_cons rfl (by decide)) fun names hNames => ?_)
    exact Reads.expect (Reads.pure hNames)

theorem reads_columnList {columns : List String} (h : IsColumns columns) :
    Reads k (fun _ => columnList) (columnsRow columns) [] 0 (· = columns) := by
  have hReads := (shown_columnList (k := k) h).reads
  rw [marks_columnList] at hReads
  refine hReads.imp fun names hNames => ?_
  simpa [Like, Erasable.erase, Erasure.spans] using hNames.symm

/-- Columns that may be missing are read back, with nothing left of them where there are none. -/
theorem shown_columns {columns : List String} (h : ∀ m ∈ columns, IsName m) :
    ShownColumns k columns := by
  cases columns with
  | nil => exact shownColumns_nil
  | cons m columns =>
    have hColumns : IsColumns (m :: columns) := ⟨List.cons_ne_nil m columns, h⟩
    exact shownColumns_cons hColumns.1 (shown_columnList hColumns)

/-! ## Foreign keys -/

theorem legal_action (a : ReferentialAction) : Script.Legal a.row := by
  cases a <;> simp [ReferentialAction.row]

theorem reads_action (a : ReferentialAction) :
    Reads k (fun _ => referentialAction) a.row [] level (· = a) := by
  unfold referentialAction
  cases a with
  | cascade => exact Reads.eatThen rfl (Reads.pure rfl)
  | restrict =>
    exact Reads.eatElse (fun _ _ h => by cases h) (Reads.eatThen rfl (Reads.pure rfl))
  | noAction =>
    refine Reads.eatElse (fun _ _ h => by cases h) (Reads.eatElse (fun _ _ h => by cases h) ?_)
    exact Reads.eatThen rfl (Reads.blank (Reads.expectKeyword (Reads.pure rfl)))
  | setDefault =>
    refine Reads.eatElse (fun _ _ h => by cases h) (Reads.eatElse (fun _ _ h => by cases h) ?_)
    refine Reads.eatElse (fun _ _ h => by cases h) (Reads.eatThen rfl (Reads.blank ?_))
    exact Reads.eatThen rfl (Reads.pure rfl)
  | setNull =>
    refine Reads.eatElse (fun _ _ h => by cases h) (Reads.eatElse (fun _ _ h => by cases h) ?_)
    refine Reads.eatElse (fun _ _ h => by cases h) (Reads.eatThen rfl (Reads.blank ?_))
    exact Reads.eatElse (fun _ _ h => by cases h) (Reads.expectKeyword (Reads.pure rfl))

/-- What is read of a clause. -/
def clauseOf (a : ActionForm) : OnClause :=
  match a.event with
  | .deletion => .delete a.action
  | .change => .update a.action

theorem joins_clauses (clauses : List ActionForm) :
    Joins 9 10 (clauses.flatMap ActionForm.row) := by
  induction clauses with
  | nil => exact .nil (by decide)
  | cons a clauses ih =>
    have hClause : Joins 9 9 a.row := .word (by simpa using legal_action a.action) le_rfl
    exact hClause.append ih

theorem reads_onClause (a : ActionForm) : Reads k (fun _ => onClause)
    (.keyword a.event.word :: .blank :: a.action.row) [] level (· = clauseOf a) := by
  obtain ⟨event, action⟩ := a
  have hAction : ∀ f : ReferentialAction → OnClause, Reads (k + 1)
      (fun _ => referentialAction >>= fun action => pure (f action)) (.blank :: action.row) [] level
      (· = f action) := by
    intro f
    refine ((reads_action action).bindEnd ?_).blank
    rintro _ rfl
    exact Reads.pure rfl
  cases event with
  | deletion => exact Reads.eatThen rfl (hAction .delete)
  | change => exact Reads.eatElse (fun _ _ h => by cases h) (Reads.askThen rfl (hAction .update))

/-- The clauses of a foreign key are read back one by one. -/
theorem reads_clauses (clauses : List ActionForm) :
    Reads k (fun _ => chain (fun t => if t.kind = .keyword .ON then some () else none)
      fun _ => onClause) (clauses.flatMap ActionForm.row) [] 10 (· = clauses.map clauseOf) := by
  induction clauses with
  | nil => exact Reads.chainNil (accept_none (by decide)) rfl
  | cons a clauses ih =>
    have hEntry : Reads k (fun _ => entry
        (fun t => if t.kind = .keyword .ON then some () else none) fun _ => onClause) a.row [] 9
        fun o => ∃ c, o = some c ∧ c = clauseOf a :=
      Reads.blank (Reads.take rfl (fun t hKind _ => if_pos hKind)
        ((reads_onClause a).blank.map fun c hc => ⟨c, rfl, hc⟩))
    refine (hEntry.chainCons (joins_clauses clauses).stops ih).imp ?_
    rintro _ ⟨c, cs, rfl, rfl, rfl⟩
    rfl

theorem lastAction_concat (event : RowEvent) (clauses : List ActionForm) (a : ActionForm) :
    lastAction event (clauses ++ [a]) =
      if a.event = event then some a.action else lastAction event clauses := by
  unfold lastAction
  split
  · next hEvent => simp [List.filter_append, hEvent]
  · next hOther => simp [List.filter_append, hOther]

/-- Of the clauses for an event the last one counts. -/
theorem foldl_applyOnClause (table : QualifiedName) (columns : List String)
    (clauses : List ActionForm) :
    (clauses.map clauseOf).foldl applyOnClause ⟨table, columns, none, none⟩ =
      ReferenceForm.reference ⟨table, columns, clauses⟩ := by
  induction clauses using List.reverseRecOn with
  | nil => rfl
  | append_singleton clauses a ih =>
    rw [List.map_append, List.foldl_append, ih]
    obtain ⟨event, action⟩ := a
    cases event <;>
      simp [ReferenceForm.reference, lastAction_concat, clauseOf, applyOnClause]

variable {r : ReferenceForm}

/-- A word or a parenthesis stands behind the table of a foreign key. -/
theorem leads_columns {columns : List String} {gs : Script} {P : TokenKind → Prop}
    (hColumns : P (.symbol .leftParen)) (h : Leads level (fun ks => P (first ks)) gs) :
    Leads level (fun ks => P (first ks)) (columnsRow columns ++ gs) := by
  unfold columnsRow
  split
  · exact h
  · exact fun _ _ => hColumns

theorem legal_reference (h : r.Proper) : Script.Legal r.row := by
  have hColumns := shown_columns (k := 0) h.columns
  have hClauses := joins_clauses r.clauses
  have hRest := legal_qualifiedName h.table (hColumns.legal.append hClauses.legal hClauses.detached)
    (hColumns.detached.append hClauses.detached)
  simpa [ReferenceForm.row] using hRest

/-- A foreign key is read back, with the last clauses for each event. -/
theorem reads_reference (h : r.Proper) :
    Reads k (fun _ => reference) r.row [] 10 (Like .spans r.reference) := by
  have hClauses := joins_clauses r.clauses
  refine Reads.expectKeyword (Reads.blank (Reads.qualifiedName h.table ?_ ?_))
  · exact leads_columns (P := (· ≠ .symbol .dot)) (by decide) (hClauses.stops.ne (by decide))
  · have hColumns := (shown_columns (k := k + 2) h.columns).reads.mono le_rfl (by decide : 1 ≤ 9)
    refine Reads.bindFirst hColumns hClauses.stops fun columns hSame => ?_
    refine (reads_clauses r.clauses).bindEnd ?_
    rintro _ rfl
    rw [foldl_applyOnClause]
    refine Reads.pure ?_
    simp_all [Like, Erasable.erase, Reference.erase, ReferenceForm.reference, Erasure.spans]

/-! ## Table constraints -/

/-- Columns with a word in front of them that is there or not. -/
theorem reads_flaggedColumns {columns : List String} (h : IsColumns columns) {word : Keyword}
    {flag : Bool} (f : Bool → List String → Demand) :
    Reads k (fun _ => eatKeyword word >>= fun flag => columnList >>= fun columns =>
      pure (f flag columns)) (flagRow flag word ++ .blank :: columnsRow columns) [] 10
      (· = f flag columns) := by
  have hStart : Leads 10 (fun ks => first ks ≠ .keyword word) (.blank :: columnsRow columns) := by
    refine (((shown_columnList (k := 0) h).leads.mono (Nat.zero_le 10)).imp fun ks hks => ?_).blank
    rw [hks]
    exact TokenKind.noConfusion
  refine Reads.flag hStart (Reads.blank ?_)
  refine ((reads_columnList h).mono le_rfl (Nat.zero_le 10)).bindEnd ?_
  rintro _ rfl
  exact Reads.pure rfl

theorem legal_demand {d : DemandForm} (h : d.Proper) : Script.Legal d.row := by
  cases d with
  | primaryKey hash columns =>
    have hColumns := (shown_columnList (k := 0) h).legal
    cases hash <;> simpa [DemandForm.row, flagRow] using hColumns
  | unique key columns =>
    have hColumns := (shown_columnList (k := 0) h).legal
    cases key <;> simpa [DemandForm.row, flagRow] using hColumns
  | check condition => simpa [DemandForm.row] using (shown_checkCondition (k := 0) h).legal
  | foreignKey columns r =>
    have hColumns := (shown_columnList (k := 0) h.1).legal
    have hReference := legal_reference h.2
    simpa [DemandForm.row] using ⟨hColumns, hReference⟩

theorem reads_demand {d : DemandForm} (h : d.Proper) :
    Reads k (fun rules => demand rules) d.row (paramMarks d.demand.nodes) 10
      (Like .spans d.demand) := by
  unfold Grammar.demand
  cases d with
  | primaryKey hash columns =>
    refine Reads.eatThen rfl (Reads.blank (Reads.expectKeyword ?_))
    refine (reads_flaggedColumns h Demand.primaryKey).imp ?_
    rintro _ rfl
    rfl
  | unique key columns =>
    refine Reads.eatElse (fun _ _ h => by cases h) (Reads.eatThen rfl ?_)
    refine (reads_flaggedColumns h fun _ => Demand.unique).imp ?_
    rintro _ rfl
    rfl
  | check condition =>
    refine Reads.eatElse (fun _ _ h => by cases h) (Reads.eatElse (fun _ _ h => by cases h) ?_)
    refine Reads.eatThen rfl (Reads.blank ?_)
    have hCondition := (shown_checkCondition (k := k + 1) h).reads.mono le_rfl (Nat.zero_le 10)
    refine hCondition.bindEnd fun e he => Reads.pure ?_
    simp_all [Like, Erasable.erase, Demand.erase, DemandForm.demand]
  | foreignKey columns r =>
    refine Reads.eatElse (fun _ _ h => by cases h) (Reads.eatElse (fun _ _ h => by cases h) ?_)
    refine Reads.eatElse (fun _ _ h => by cases h) (Reads.eatThen rfl (Reads.blank ?_))
    refine Reads.expectKeyword (Reads.blank ?_)
    refine Reads.bindFirst (reads_columnList h.1) (fun _ _ => Nat.zero_le _) ?_
    rintro _ rfl
    refine ((reads_reference h.2).blank).bindEnd fun reference hReference => Reads.pure ?_
    simp_all [Like, Erasable.erase, Demand.erase, DemandForm.demand]

variable {c : ConstraintForm}

theorem legal_constraint (h : c.Proper) : Script.Legal c.row := by
  obtain ⟨name, d⟩ := c
  have hDemand := legal_demand h.demand
  cases name with
  | none => exact hDemand
  | some m => simpa [ConstraintForm.row] using ⟨h.name m rfl, hDemand⟩

/-- A demand starts with a reserved word. -/
theorem first_demand (d : DemandForm) (more : Script) :
    ∃ word, first (Script.kinds (d.row ++ more)) = .keyword word ∧ word.isReserved = true ∧
      word ≠ .CONSTRAINT := by
  cases d <;> exact ⟨_, rfl, rfl, by decide⟩

theorem first_constraint (c : ConstraintForm) (more : Script) :
    ∃ word, first (Script.kinds (c.row ++ more)) = .keyword word ∧ word.isReserved = true := by
  obtain ⟨name, d⟩ := c
  cases name with
  | some m => exact ⟨.CONSTRAINT, rfl, rfl⟩
  | none =>
    obtain ⟨word, hFirst, hReserved, -⟩ := first_demand d more
    exact ⟨word, hFirst, hReserved⟩

/-- Nothing is read of a part whose word is not there. -/
theorem Reads.afterNone {α β : Type} {word : Keyword} {item : Rules → Parse β}
    {m : Rules → Option β → Parse α} {gs : Script} {ms : List ParamMark} {Q : α → Prop}
    (hFirst : Leads level (fun ks => first ks ≠ .keyword word) gs)
    (h : Reads k (fun rules => m rules none) gs ms level Q) :
    Reads k (fun rules => after word (item rules) >>= m rules) gs ms level Q := by
  simp only [Parse.after, bind_assoc]
  exact Reads.eatNone hFirst (by simpa only [Bool.false_eq_true, ↓reduceIte, pure_bind] using h)

/-- A table constraint is read back, with its name if it has one. -/
theorem reads_tableConstraint (h : c.Proper) : Reads k (fun rules => tableConstraint rules) c.row
    (paramMarks c.demand.demand.nodes) 10 (Like .spans c.constraint) := by
  obtain ⟨name, d⟩ := c
  have hDemand : Reads k (fun rules => demand rules >>= fun demand =>
      pure fun span => Constraint.mk name demand span) d.row (paramMarks d.demand.nodes) 10
      fun f => ∀ span, Like .spans (ConstraintForm.constraint ⟨name, d⟩) (f span) :=
    (reads_demand h.demand).bindEnd fun demand hSame => Reads.pure fun span => by
      simp_all [Like, Erasable.erase, Constraint.erase, ConstraintForm.constraint, Erasure.spans]
  refine Reads.spanned ?_
  cases name with
  | none =>
    refine Reads.afterNone (fun more _ hWord => ?_) hDemand
    obtain ⟨word, hFirst, -, hOther⟩ := first_demand d more
    exact hOther (TokenKind.keyword.inj (hFirst.symm.trans hWord))
  | some m =>
    have hName : Reads k (fun _ => after .CONSTRAINT (Parse.name .constraint))
        [.keyword .CONSTRAINT, .blank, .name m, .blank] [] 0 (· = some m) :=
      Reads.eatThen rfl (Reads.blank (Reads.name (h.name m rfl) (Reads.blank (Reads.pure rfl))))
    refine Reads.bindFirst hName (fun _ _ => Nat.zero_le _) ?_
    rintro _ rfl
    exact hDemand

end Grammar

end SqlKit
