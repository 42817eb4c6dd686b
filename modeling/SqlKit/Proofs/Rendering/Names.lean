import SqlKit.Proofs.Rendering.Expression

/-!
# Names are read back

Names with a schema, other names behind `AS`, and lists of columns.
-/

namespace SqlKit.Grammar

open Parse

variable {n k : Nat} {s : State}

/-! ## Names -/

/-- A name with a schema, both of which are names. -/
structure IsQualified (q : QualifiedName) : Prop where
  schema : ∀ m, q.schema = some m → IsName m
  name : IsName q.name

/-- The word that a name starts with. -/
def leadingName (q : QualifiedName) : String := q.schema.getD q.name

theorem IsQualified.leader {q : QualifiedName} (h : IsQualified q) : IsName (leadingName q) := by
  obtain ⟨schema, name⟩ := q
  cases schema with
  | none => exact h.name
  | some m => exact h.schema m rfl

theorem first_qualifiedName (q : QualifiedName) (more : Script) :
    first (Script.kinds (q.row ++ more)) = wordKind (leadingName q) := by
  obtain ⟨schema, name⟩ := q
  cases schema <;> rfl

theorem legal_qualifiedName {q : QualifiedName} {gs : Script} (h : IsQualified q)
    (hgs : Script.Legal gs) (hDetached : Script.Detached gs) : Script.Legal (q.row ++ gs) := by
  refine Script.Legal.append ?_ hgs hDetached
  obtain ⟨schema, name⟩ := q
  have hName := h.name
  cases schema with
  | none => exact (Script.legal_singleton _).mpr hName
  | some m =>
    refine @legal_dotted m [name] (h.schema m rfl) ?_
    simpa using hName

theorem Reads.qualifiedName {α : Type} {role : NameRole} {q : QualifiedName} {gs : Script}
    {ms : List ParamMark} {level : Nat} {Q : α → Prop} {m : Rules → QualifiedName → Parse α}
    (hq : IsQualified q) (hDot : Leads level (fun ks => first ks ≠ .symbol .dot) gs)
    (h : Reads (k + 1) (fun rules => m rules q) gs ms level Q) :
    Reads k (fun rules => Parse.qualifiedName role >>= m rules) (q.row ++ gs) ms level Q := by
  obtain ⟨schema, name⟩ := q
  simp only [Parse.qualifiedName, bind_assoc]
  cases schema with
  | none =>
    refine Reads.name hq.name (Reads.eatNone hDot ?_)
    exact h
  | some schema =>
    refine Reads.name (hq.schema schema rfl) (Reads.eat rfl ?_)
    simp only [↓reduceIte, bind_assoc, pure_bind]
    exact Reads.name hq.name (h.mono (by omega) le_rfl)

/-- A name with a schema is written as it is read. -/
theorem After.qualifiedName {α : Type} {role : NameRole} {f : QualifiedName → Parse α}
    {Q : α → State → Prop} (hs : Room n k s)
    (h : ∀ q s', IsQualified q → s'.scope = s.scope → Room n (k + 1) s' →
      s.current.kind = wordKind (leadingName q) → After (f q) s' Q) :
    After (Parse.qualifiedName role >>= f) s Q := by
  simp only [Parse.qualifiedName, bind_assoc]
  refine After.name hs fun t rest m hTokens hm hKind => ?_
  have hTaken := hs.take hTokens
  have hCurrent : s.current.kind = wordKind m := by rw [State.current_cons hTokens, hKind]
  refine After.eat (fun u rest' hTokens' _ => ?_) fun _ => ?_
  · simp only [↓reduceIte, bind_assoc, pure_bind]
    refine After.name (hTaken.take hTokens') fun v rest'' m' hTokens'' hm' _ => ?_
    refine h ⟨some m, m'⟩ _ ⟨?_, hm'⟩ rfl (((hTaken.take hTokens').take hTokens'').mono (by omega))
      hCurrent
    rintro _ ⟨rfl⟩
    exact hm
  · exact h (.unqualified m) _ ⟨nofun, hm⟩ rfl hTaken hCurrent

/-- Another name, with the word in front of it. -/
def Print.asName : Print (Option String) := ⟨asNameRow, fun _ => []⟩

theorem tail_asName {asName : Option String} (h : ∀ m, asName = some m → IsName m) :
    Tail k .asName (fun _ => asName?) 7 8 asName (asNameRow asName) where
  row := rfl
  legal := by
    cases asName with
    | none => exact Script.legal_nil
    | some m => simpa [asNameRow] using h m rfl
  leads := by
    cases asName with
    | none => exact stops_nil (by decide)
    | some m => exact stops_blank (stops_cons rfl le_rfl)
  reads := by
    cases asName with
    | none =>
      refine Reads.eatElse (leads_ne (by decide)) ?_
      rw [show (fun _ : Rules => take? identifierOf?) = fun _ => take? identifierOf? >>= Pure.pure
        from funext fun _ => (bind_pure _).symm]
      refine Reads.takeNone (fun more hMore t ht => ?_) (Reads.pure rfl)
      unfold identifierOf?
      split
      · next hKind =>
        rw [show Script.lead more = _ from ht.symm.trans hKind] at hMore
        exact absurd hMore (Nat.not_succ_le_zero 7)
      · rfl
    | some m =>
      exact Reads.blank (Reads.eatThen rfl (Reads.blank (Reads.name (h m rfl) (Reads.pure rfl))))
  detached := by
    cases asName with
    | none => exact Script.detached_nil
    | some m => exact Script.detached_cons rfl

/-- Another name is written with `AS`, also where it was read without. -/
theorem faithful_asName : FaithfulTail n k .asName (fun _ => asName?) 7 8 := by
  intro s hs
  refine After.eatIte (fun t rest hTokens _ => ?_) fun _ => ?_
  · refine After.name (hs.take hTokens) fun u rest' m _ hm _ => .pure fun _ => ?_
    refine ⟨⟨_, tail_asName ?_⟩, .refl _⟩
    rintro _ ⟨rfl⟩
    exact hm
  · rw [← bind_pure (take? identifierOf?)]
    refine After.take (fun t rest m hTokens hName => ?_) fun _ => ?_
    · refine .pure fun _ => ⟨⟨_, tail_asName ?_⟩, .refl _⟩
      rintro _ ⟨rfl⟩
      exact (isName_of_nameOf? (hs.bare_head hTokens) (nameOf?_of_identifierOf? hName)).1
    · exact .pure fun _ => ⟨⟨_, tail_asName nofun⟩, .refl _⟩

/-! ## Lists of columns -/

/-- The name of a column. -/
def Print.columnName : Print String := ⟨fun c => [.name c], fun _ => []⟩

/-- What may stand behind a column in a list. -/
def columnEnd (column : String) (ascending : Bool) : Parse String := do
  if !ascending then
    let _ ← eatKeyword .DESC
  return column

theorem listedColumn_eq : listedColumn =
    Parse.name .column >>= fun column => eatKeyword .ASC >>= columnEnd column := by
  refine bind_congr fun column => bind_congr fun ascending => ?_
  cases ascending <;> rfl

theorem shown_listedColumn {m : String} (hm : IsName m) :
    Shown k .columnName (fun _ => listedColumn) 8 (fun _ => True) m [.name m] where
  row := rfl
  legal := (Script.legal_singleton _).mpr hm
  leads _ _ := trivial
  reads := by
    rw [listedColumn_eq]
    refine Reads.name hm (Reads.eatNone (m := fun _ => columnEnd m) (leads_ne (by decide)) ?_)
    exact Reads.eatNone (m := fun _ _ => Pure.pure m) (leads_ne (by decide)) (Reads.pure rfl)

/-- A column in a list is written without the direction that was read behind it. -/
theorem faithful_listedColumn :
    Faithful n k .columnName (fun _ => listedColumn) 8 fun _ _ => True := by
  intro s hs
  rw [listedColumn_eq]
  refine After.name hs fun t rest m _ hm _ => ?_
  have hShown := shown_listedColumn (k := k) hm
  refine After.eat (f := columnEnd m) (fun u rest' _ _ => ?_) fun _ => ?_
  · exact .pure fun _ => ⟨⟨_, hShown⟩, .refl _⟩
  · refine After.eat (f := fun _ => Pure.pure m) (fun u rest' _ _ => ?_) fun _ => ?_
    · exact .pure fun _ => ⟨⟨_, hShown⟩, .refl _⟩
    · exact .pure fun _ => ⟨⟨_, hShown⟩, .refl _⟩

/-- Columns in parentheses. -/
def Print.columnList : Print (List String) := Print.columnName.commas.enclosed

theorem marks_columnList (columns : List String) : Print.columnList.marks columns = [] := by
  have hNodes : columns.flatMap Print.columnName.nodes = [] :=
    List.flatMap_eq_nil_iff.mpr fun _ _ => rfl
  exact congrArg paramMarks hNodes

theorem row_columnList (columns : List String) : Print.columnList.row columns =
    .symbol .leftParen ::
      (commaRow (columns.map fun c => [.name c]) ++ [.symbol .rightParen]) := rfl

/-- Goes on behind a token that is asked for and is there. -/
theorem Reads.askThen {α : Type} {expected : Expected} {kind : TokenKind} {g : Glyph}
    {a b : Rules → Parse α} {gs : Script} {ms : List ParamMark} {level : Nat} {Q : α → Prop}
    (hKinds : g.kinds = [kind]) (h : Reads (k + 1) a gs ms level Q) :
    Reads k (fun rules => askKind expected kind >>= fun c => if c = true then a rules else b rules)
      (g :: gs) ms level Q :=
  Reads.ask (m := fun rules c => if c = true then a rules else b rules) hKinds
    (fun _ hKind _ => if_pos hKind) h

/-- A choice by a token that is asked for. -/
theorem After.askIte {α : Type} {expected : Expected} {kind : TokenKind} {m m' : Parse α}
    {Q : α → State → Prop}
    (h : ∀ t rest, s.tokens = t :: rest → t.kind = kind → After m (s.take t rest) Q) :
    After (askKind expected kind >>= fun c => if c = true then m else m') s Q := by
  refine After.ask (f := fun c => if c = true then m else m') fun t rest a hTokens hAccept => ?_
  by_cases hKind : t.kind = kind
  · rw [if_pos hKind] at hAccept
    obtain rfl := Option.some.inj hAccept
    exact h t rest hTokens hKind
  · rw [if_neg hKind] at hAccept
    cases hAccept

theorem faithful_columns :
    Faithful n k Print.columnName.commas (fun _ => separated listedColumn) 11 fun _ _ => True :=
  (faithful_listedColumn.mono le_rfl (by decide : 8 ≤ 10)).separated le_rfl

/-- Columns in parentheses are written as they are read, and there is at least one. -/
theorem After.columnList (hs : Room n k s) :
    After columnList s fun columns s' => columns ≠ [] ∧ s'.scope = s.scope ∧
      ∃ gs, Shown k .columnList (fun _ => columnList) 0 (fun ks => first ks = .symbol .leftParen)
        columns gs := by
  refine After.askIte fun t rest hTokens _ => ?_
  have hColumns : After (separated listedColumn) (s.take t rest) fun columns s' =>
      columns ≠ [] ∧ Legible Print.columnName.commas (Shown (k + 1) Print.columnName.commas
        (fun _ => separated listedColumn) 11 (fun _ => True) columns) columns (s.take t rest) s' :=
    fun hError => ⟨List.cons_ne_nil _ _, faithful_columns _ (hs.take hTokens) hError⟩
  refine hColumns.bind ?_
  rintro columns s₁ ⟨hSome, hLegible⟩ -
  refine After.expect fun u rest' _ _ => .pure ?_
  have hNodes : columns.flatMap Print.columnName.nodes = [] :=
    List.flatMap_eq_nil_iff.mpr fun _ _ => rfl
  obtain ⟨⟨gs, hShown⟩, hFollows⟩ := hLegible (by simp [Print.Okay, Print.commas, hNodes])
  have hMarks : Print.columnName.commas.marks columns = [] := marks_columnList columns
  rw [hMarks] at hFollows
  have hEnclosed := hShown.enclosed (by decide)
  refine ⟨hSome, hFollows.symm, _, hEnclosed.row, hEnclosed.legal, hEnclosed.leads, ?_⟩
  exact Reads.askThen rfl (hShown.closed (by decide)).reads

/-- Columns in parentheses, or nothing. -/
def columnsRow (columns : List String) : Script :=
  if columns.isEmpty then [] else Print.columnList.row columns

/-- The row of columns that may be missing. -/
structure ShownColumns (k : Nat) (columns : List String) : Prop where
  legal : Script.Legal (columnsRow columns)
  detached : Script.Detached (columnsRow columns)
  reads : Reads k (fun _ => optionalColumnList) (columnsRow columns) [] 1 (Like .spans columns)

theorem shownColumns_nil : ShownColumns k [] where
  legal := Script.legal_nil
  detached := Script.detached_nil
  reads := by
    refine Reads.lookKind (f := fun kind => kind == .symbol .leftParen)
      (m := fun _ c => if c = true then columnList else Pure.pure []) false ?_ (Reads.pure rfl)
    exact (leads_ne (by decide)).imp fun _ => beq_eq_false_iff_ne.mpr

theorem shownColumns_cons {columns : List String} {gs : Script} (hSome : columns ≠ [])
    (h : Shown k .columnList (fun _ => columnList) 0 (fun ks => first ks = .symbol .leftParen)
      columns gs) : ShownColumns k columns := by
  have hEmpty : columns.isEmpty = false := by simpa using hSome
  have hRow : columnsRow columns = gs := by
    rw [← h.row, columnsRow, hEmpty]
    rfl
  refine ⟨hRow ▸ h.legal, ?_, ?_⟩
  · rw [columnsRow, hEmpty]
    exact Script.detached_cons rfl
  · rw [hRow]
    refine Reads.lookKind (f := fun kind => kind == .symbol .leftParen)
      (m := fun _ c => if c = true then columnList else Pure.pure []) true ?_ ?_
    · exact (h.leads.mono (Nat.zero_le 1)).imp fun ks hks => by rw [hks]; rfl
    · have hReads := h.reads.mono le_rfl (Nat.zero_le 1)
      rwa [marks_columnList] at hReads

/-- Columns that may be missing are written as they are read. -/
theorem After.optionalColumnList (hs : Room n k s) :
    After optionalColumnList s fun columns s' => s'.scope = s.scope ∧ ShownColumns k columns := by
  refine After.look ?_
  split
  · refine (After.columnList hs).imp ?_
    rintro columns s' ⟨hSome, hScope, gs, hShown⟩
    exact ⟨hScope, shownColumns_cons hSome hShown⟩
  · exact .pure ⟨rfl, shownColumns_nil⟩

end SqlKit.Grammar
