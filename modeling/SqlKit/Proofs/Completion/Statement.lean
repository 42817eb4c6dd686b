import SqlKit.Proofs.Completion.Query
import SqlKit.Proofs.Simulation.Statement

/-!
# Statements complete what they took
-/

namespace SqlKit.Grammar

open Parse

variable {n : Nat} {rules : Rules} {s : State}

/-! ## Columns -/

theorem viable_signed (expected : Expected) :
    Viable n (.token (.integer 1)) (signed expected) :=
  ((viable_eatKind (.symbol .minus)).bind (q := .token (.integer 1)) (by rfl) fun negative =>
    .ask (.integer 1) (a := if negative then -1 else 1) rfl
      (fun _ => refuses_of_kind (fun _ => rfl) rfl) (by decide)).mono (by rfl) (by rfl)

/-- What is known of an optional part of the definition of a column. -/
def Profile.part : Profile := ⟨[.symbol .rightParen], false, true, false, []⟩

theorem viable_sequence : Viable n .part sequence := by
  have hEnd : ∀ (n : Nat) (start increment : Int64), Viable n (.token (.symbol .rightParen))
      (do expect .rightParen; return some (Sequence.mk start increment)) :=
    fun _ _ _ => (Viable.expect .rightParen (by decide)).made
  have hIncrement := fun start => Viable.ite (n := n) (c := .symbol .comma)
    ((viable_signed .increment).bind (by rfl) (hEnd n start)) (hEnd (n + 1) start 1) (by decide)
  exact (Viable.ite (c := .symbol .leftParen) ((viable_signed .startValue).bind (by rfl)
    fun start => (hIncrement start).less) (.pure none) (by decide)).less.mono (by rfl) (by rfl)

/-- What is known of a part that may start with a `NOT`. -/
def Profile.negatedPart : Profile := ⟨[.symbol .rightParen], false, true, true, []⟩

theorem viable_nullability : Viable n .negatedPart nullability :=
  (Viable.ite (n := n) (c := .keyword .NOT)
    ((Viable.expectKeyword .NULL).made (f := fun _ => Nullability.notNull))
    (Viable.ite (c := .keyword .NULL) (.pure .null) (.pure .unstated) (by decide))
    (by decide)).less.mono (by rfl) (by rfl)

theorem viable_numbering (implied : Bool) : Viable n .part (numbering implied) :=
  (Viable.ite (n := n) (c := .keyword .AUTOINCREMENT) viable_sequence.made
    (Viable.ite (c := .keyword .IDENTITY) viable_sequence.made
      (.pure (if implied = true then Numbering.automatic none else Numbering.none)) (by decide))
    (by decide)).less.mono (by rfl) (by rfl)

theorem viable_columnKey : Viable n .part columnKey := by
  have hHash := (viable_eatKeyword (n := n) .HASH).made
    (f := fun hash => if hash = true then ColumnKey.hash else .plain)
  exact (Viable.ite (c := .keyword .PRIMARY) ((Viable.expectKeyword .KEY).bind (by rfl) fun _ =>
      hHash)
    (.pure ColumnKey.none) (by decide)).less.mono (by rfl) (by rfl)

def Profile.check : Profile :=
  ⟨starts, false, false, false, [.symbol .leftParen, .keyword .NULL, .symbol .rightParen]⟩

theorem viable_checkCondition (h : rules.Viable n) :
    Viable (n + 1) .check (checkCondition rules) :=
  ((Viable.expect .leftParen (by decide)).bind (by rfl) fun _ =>
    (viable_expr h).bind (by rfl) fun condition =>
    (Viable.expect .rightParen (by decide)).made (f := fun _ => condition)).mono (by rfl) (by rfl)

theorem viable_columnRest (h : rules.Viable n) (name : String) (first : Span) :
    Viable (n + 1) .type (columnRest rules name first) :=
  (viable_columnType.bind (by rfl) fun type =>
    ((viable_term h).less.after .DEFAULT).bind (by rfl) fun default =>
    viable_nullability.bind (by rfl) fun nullability =>
      (viable_numbering _).bind (by rfl) fun numbering =>
    (viable_eatKeyword .UNIQUE).bind (by rfl) fun unique =>
      viable_columnKey.bind (by rfl) fun primaryKey =>
    ((viable_checkCondition h).less.after .CHECK).silent fun check =>
    (Silent.spanFrom first).bind fun span => .pure _).mono (by rfl) (by rfl)

def Profile.column : Profile := ⟨[.symbol .rightParen], false, false, false, [someName, someName]⟩

theorem viable_columnDefinition (h : rules.Viable n) :
    Viable (n + 1) .column (columnDefinition rules) :=
  .current (fun first => ((Viable.name .column).bind (by rfl) fun name =>
    viable_columnRest h name first.span).mono (by rfl) (by rfl)) (by rfl)

/-! ## Constraints -/

theorem viable_referentialAction :
    Viable n ⟨[.symbol .rightParen], false, false, false, [.keyword .CASCADE]⟩
      referentialAction := by
  have hSet := Viable.ite (n := n) (c := .keyword .DEFAULT) (.pure ReferentialAction.setDefault)
    ((Viable.expectKeyword .NULL).made (f := fun _ => ReferentialAction.setNull))
    (by decide)
  exact (Viable.iteFirst (n := n) (c := .keyword .CASCADE)
    (Viable.pure ReferentialAction.cascade).ready (.pure _)
    (.ite (.pure ReferentialAction.restrict) (.ite ((Viable.expectKeyword .ACTION).made
      (f := fun _ => ReferentialAction.noAction)) (.ite hSet.less
        (Sound.fail (p := .token (.keyword .CASCADE)) .referentialAction)))) (by decide)).less.mono
          (by rfl) (by rfl)

theorem viable_onClause :
    Viable n ⟨[.symbol .rightParen], false, false, false, [.keyword .UPDATE, .keyword .CASCADE]⟩
      onClause :=
  (Viable.ite (n := n) (c := .keyword .DELETE) (viable_referentialAction.made
    (f := OnClause.delete))
    (Viable.askIte (viable_referentialAction.made (f := OnClause.update)) (by decide))
    (by decide)).less.mono (by rfl) (by rfl)

theorem viable_reference :
    Viable n ⟨[.symbol .rightParen], false, false, false, [.keyword .REFERENCES, someName]⟩
      reference := by
  have hOn := refuses_eat (.keyword .ON)
  exact ((Viable.expectKeyword .REFERENCES).bind (by rfl) fun _ =>
      (viable_qualifiedName .table).bind (by rfl)
    fun table => viable_optionalColumnList.bind (by rfl) fun columns =>
      (Viable.many (n := n) (fun _ => viable_onClause) hOn (by rfl)).less.made).mono
        (by rfl) (by rfl)

/-- What is known of what a constraint demands. -/
def Profile.demand : Profile :=
  ⟨[.symbol .rightParen], false, false, false,
    [.keyword .UNIQUE, .symbol .leftParen, someName, .symbol .rightParen]⟩

theorem viable_demand (h : rules.Viable n) : Viable (n + 1) .demand (demand rules) := by
  have hPrimary := (Viable.expectKeyword (n := n) .KEY).bind (by rfl) fun _ =>
      (viable_eatKeyword .HASH).bind (by rfl)
    fun hash => viable_columnList.made (f := Demand.primaryKey hash)
  have hUnique := fun n => (viable_eatKeyword (n := n) .KEY).bind (by rfl) fun _ =>
    viable_columnList.made (f := Demand.unique)
  have hForeign := (Viable.expectKeyword (n := n) .KEY).bind (by rfl) fun _ =>
      viable_columnList.bind (by rfl)
    fun columns => viable_reference.made (f := Demand.foreignKey columns)
  have hCheck := (viable_checkCondition h).less.made
      (f := fun condition => Demand.check (some condition))
  exact (Viable.ite (c := .keyword .PRIMARY) hPrimary (Viable.iteFirst (c := .keyword .UNIQUE)
    (hUnique (n + 1)).ready (hUnique n) (.ite hCheck (.ite hForeign
      (Sound.fail (p := .demand) .demand))) (by decide)) (by decide)).mono (by rfl) (by rfl)

theorem viable_tableConstraint (h : rules.Viable n) :
    Viable (n + 1) .demand (tableConstraint rules) :=
  ((((Viable.name .constraint).after .CONSTRAINT).bind (by rfl) fun name =>
    (viable_demand h).made).mono (by rfl) (by rfl)).spanned (by rfl)

/-! ## Definitions of tables -/

theorem viable_tableElement (h : rules.Viable n) : Viable (n + 1) .column (tableElement rules) := by
  have hColumn := (viable_columnDefinition h).made (f := TableElement.column)
  have hConstraint := (viable_tableConstraint h).made (f := TableElement.constraint)
  exact (Viable.chooseFirst (g := fun t => (nameOf? t).isSome) hColumn.ready
    (fun s hs _ => hColumn.sound s hs) hConstraint.sound (by rfl) (fun h => by cases h)
    (fun k hk => by cases hk; rfl)).mono (by rfl) (by rfl)

theorem viable_tableElements (h : rules.Viable n) :
    Viable (n + 1) ⟨starts, false, false, false,
      [.symbol .leftParen, someName, someName, .symbol .rightParen]⟩ (tableElements rules) :=
  (Viable.askIte ((viable_tableElement h).separated.bind (by rfl) fun elements =>
    (Viable.expect .rightParen (by decide)).made (f := fun _ => elements)) (by decide)).mono
      (by rfl) (by rfl)

theorem viable_temporary : Viable n ⟨[.keyword .TABLE], false, true, false, []⟩ temporary :=
  (Viable.ite (n := n) (c := .keyword .TEMP) (.pure true) (viable_eatKeyword .TEMPORARY)
    (by decide)).less.mono (by rfl) (by rfl)

theorem viable_ifNotExists : Viable n ⟨[someName], false, true, false, []⟩ ifNotExists :=
  (Viable.ite (n := n) (c := .keyword .IF) ((Viable.expectKeyword .NOT).bind (by rfl) fun _ =>
    (Viable.expectKeyword .EXISTS).made (f := fun _ => true)) (.pure false) (by decide)).less.mono
      (by rfl) (by rfl)

theorem viable_wordPair (first second : Keyword) :
    Viable n (.option (startsBut (.keyword first)) (.token (.keyword second)) .nothing)
      (wordPair first second) :=
  (Viable.ite (n := n) ((Viable.expectKeyword second).made (f := fun _ => true)) (.pure false)
    nofun).less

/-- A whole statement is followed by nothing. -/
def Profile.statement (text : List TokenKind) : Profile := ⟨[], true, false, false, text⟩

theorem viable_createTable (h : rules.Viable n) : Viable (n + 1) (.statement [.keyword .CREATE,
    .keyword .TABLE, someName, .symbol .leftParen, someName, someName, .symbol .rightParen])
    (createTable rules) := by
  have hItem := (Viable.expectKeyword (n := n + 1) .CREATE).bind (by rfl) fun _ =>
      viable_temporary.bind (by rfl)
    fun temporary => (Viable.expectKeyword .TABLE).bind (by rfl) fun _ =>
      viable_ifNotExists.bind (by rfl)
    fun ifNotExists => (viable_qualifiedName .table).bind (by rfl) fun name =>
    (viable_tableElements h).bind (by rfl) fun elements => (viable_wordPair .WITHOUT .ROWID).made
      (f := fun withoutRowid span =>
        CreateTable.mk temporary ifNotExists name elements withoutRowid span)
  exact (hItem.mono (by rfl) (by rfl)).spanned (by rfl)

/-! ## Changes of tables -/

/-- Whether a token is a word that a constraint starts with. -/
def opensConstraint (t : Token) : Bool :=
  match t.kind with
  | .keyword .CONSTRAINT | .keyword .PRIMARY | .keyword .UNIQUE | .keyword .CHECK
  | .keyword .FOREIGN => true
  | _ => false

theorem viable_addition (h : rules.Viable n) :
    Viable (n + 1) .column (addition rules) := by
  have hConstraint := (viable_tableConstraint h).made (f := AlterAction.addConstraint)
  have hColumn := (viable_eatKeyword .COLUMN).bind (by rfl) fun _ =>
    (viable_columnDefinition h).made (f := AlterAction.addColumn)
  exact (Viable.choose (g := opensConstraint) (fun s hs _ => hConstraint.sound s hs) hColumn
    (by rfl) (fun h => by cases h) (fun k hk => by cases hk; rfl)).mono (by rfl) (by rfl)

def Profile.columnChange : Profile := ⟨[], false, false, false, [.keyword .SET, .keyword .NULL]⟩

theorem viable_columnChange (h : rules.Viable n) (column : String) (first : Span) :
    Viable (n + 1) .columnChange (columnChange rules column first) := by
  have hRename := (Viable.expectKeyword (n := n) .TO).bind (by rfl) fun _ =>
    (Viable.name .column).made (f := ColumnChange.rename)
  have hSet := Viable.ite (c := .keyword .DEFAULT)
    ((viable_term h).less.made (f := ColumnChange.setDefault))
    (Viable.ite (c := .keyword .NOT)
      ((Viable.expectKeyword .NULL).made (f := fun _ => ColumnChange.setNotNull))
      ((Viable.expectKeyword .NULL).made
        (f := fun _ => ColumnChange.setNull)) (by decide)) (by decide)
  have hDrop := Viable.ite (n := n) (c := .keyword .DEFAULT) (.pure ColumnChange.dropDefault)
    ((Viable.expectKeyword .NOT).bind (by rfl) fun _ =>
      (Viable.expectKeyword .NULL).made (f := fun _ => ColumnChange.dropNotNull)) (by decide)
  have hRedefine := (viable_columnRest h column first).made (f := ColumnChange.redefine)
  exact (Viable.ite (c := .keyword .RENAME) hRename (Viable.iteFirst (c := .keyword .SET)
    hSet.ready hSet.less (.ite hDrop.less hRedefine.sound) (by decide)) (by decide)).mono
      (by rfl) (by rfl)

def Profile.alteration : Profile :=
  ⟨[], false, false, false, [someName, .keyword .SET, .keyword .NULL]⟩

theorem viable_alterationBehind (h : rules.Viable n) :
    Viable (n + 1) .alteration (alterationBehind rules) :=
  .current (fun first => ((Viable.name .column).bind (by rfl) fun column =>
    (viable_columnChange h column first.span).made).mono (by rfl) (by rfl)) (by rfl)

theorem isName_kind (t : Token) : isName t.kind = (nameOf? t).isSome := by
  obtain ⟨kind, span, text⟩ := t
  cases kind with
  | keyword word =>
    show (!word.isReserved) = (if word.isReserved then none else some text).isSome
    cases word.isReserved <;> rfl
  | _ => rfl

theorem State.announces_cons {t : Token} {rest : List Token} (hTokens : s.tokens = t :: rest) :
    s.announces = true ↔ t.kind = .keyword .COLUMN ∧
      ∃ u ∈ rest.head?, (nameOf? u).isSome = true := by
  rw [announces, current_cons hTokens, kindAt, hTokens]
  cases rest with
  | nil => simp [isName]
  | cons u rest => simp [isName_kind]

/-- A reader that asks for a name meets an error where none is. -/
theorem fails_alterationBehind (h : ∀ u ∈ s.tokens.head?, nameOf? u = none) :
    Fails (alterationBehind rules) s := by
  have hCurrent : Parse.current.run s = (s.current, s) := rfl
  refine .behind hCurrent (.bind fun hNone => ?_)
  rw [Parse.name, run_ask_none h] at hNone
  simp [State.error_note] at hNone

/-- The change of a column that is itself called `COLUMN`. A name in place of it is an error, as the
word would then be no name. -/
def namelessChange (rules : Rules) (column : String) (first : Span) : Parse AlterAction := do
  if ← seesName then
    fail .alteration
    return .renameTable ""
  else return .alterColumn column (← columnChange rules column first)

theorem viable_namelessChange (h : rules.Viable n) (column : String) (first : Span) :
    Viable (n + 1) .columnChange (namelessChange rules column first) :=
  (Viable.choose (p := .columnChange) (g := fun t => (nameOf? t).isSome)
    (fun s hs _ => Sound.fail .alteration s hs)
    (viable_columnChange h column first).made (by rfl) (fun h => by cases h)
    (fun k hk => by cases hk; rfl)).mono (by rfl) (by rfl)

theorem run_namelessChange (column : String) (first : Span) (hEnd : s.terminator.kind.IsEnd)
    (h : ∀ t ∈ s.tokens.head?, nameOf? t = none) :
    (namelessChange rules column first).run s =
      (do return .alterColumn column (← columnChange rules column first) :
        Parse AlterAction).run s := by
  have hSees : seesName.run s = (false, s) := by
    have hCurrent : nameOf? s.current = none := by
      cases hTokens : s.tokens with
      | nil =>
        rw [State.current_nil hTokens]
        rcases hEnd with hKind | hKind <;> simp [nameOf?, hKind]
      | cons t rest =>
        rw [State.current_cons hTokens]
        exact h t (by rw [hTokens]; rfl)
    show ((nameOf? s.current).isSome, s) = _
    rw [hCurrent]
    rfl
  rw [namelessChange, run_bind, hSees]
  rfl

theorem fails_namelessChange (column : String) (first : Span)
    (h : ∃ t ∈ s.tokens.head?, (nameOf? t).isSome = true) :
    Fails (namelessChange rules column first) s := by
  obtain ⟨t, ht, hName⟩ := h
  obtain ⟨rest, hTokens⟩ := List.head?_eq_some_iff.mp ht
  have hSees : seesName.run s = (true, s) := by
    show ((nameOf? s.current).isSome, s) = _
    rw [State.current_cons hTokens, hName]
  refine .behind hSees (.bind fun hNone => ?_)
  rw [Parse.fail, State.error_note] at hNone
  simp at hNone

section Alteration

variable (h : rules.Viable n) (hs : Fewer (n + 1) s)

include h hs

/-- A word `COLUMN` in front of a name. -/
theorem viableAt_announced (hAnnounces : s.announces = true) :
    ViableAt .alteration (alteration rules) s := by
  have hKind : s.current.kind = .keyword .COLUMN :=
    beq_iff_eq.mp (Bool.and_eq_true_iff.mp hAnnounces).1
  have hBehind : ViableAt .alteration (advance >>= fun _ => alterationBehind rules) s :=
    .advance hs hKind (viable_alterationBehind h).less (by rfl) (by decide)
  obtain ⟨t, rest, hTokens, hColumn⟩ := hs.exists_head hKind (by simp [TokenKind.IsEnd])
  refine hBehind.congr ?_ (fun ts us more hTake _ hNil hNone => ?_) (.refl _)
  · rw [run_alteration, hAnnounces]
    rfl
  · cases ts with
    | nil => cases (hNil rfl).1
    | cons u ts =>
      obtain rfl : t = u := (List.cons.inj (hTokens.symm.trans hTake)).1
      rw [run_alteration, if_pos ((State.announces_cons rfl).mpr ⟨hColumn, ?_⟩)]
      -- a name is asked for, and there was no error
      by_contra hName
      rw [List.cons_append, run_bind, run_advance_cons rfl] at hNone
      refine fails_alterationBehind (fun v hv => ?_) hNone
      exact Option.not_isSome_iff_eq_none.mp fun hSome => hName ⟨v, hv, hSome⟩

/-- A word `COLUMN` that is itself a name. -/
theorem viableAt_column (hKind : s.current.kind = .keyword .COLUMN)
    (hAnnounces : s.announces = false) : ViableAt .alteration (alteration rules) s := by
  obtain ⟨t, rest, hTokens, hColumn⟩ := hs.exists_head hKind (by simp [TokenKind.IsEnd])
  have hBehind : ViableAt .alteration
      (advance >>= fun _ => namelessChange rules t.text t.span) s :=
    .advance hs hKind (viable_namelessChange h t.text t.span).less (by rfl) (by decide)
  have hRun : ∀ ts, (∀ u ∈ ts.head?, nameOf? u = none) →
      (alteration rules).run (s.withTokens (t :: ts)) =
        (advance >>= fun _ => namelessChange rules t.text t.span).run (s.withTokens (t :: ts)) := by
    intro ts hts
    have hNot : (s.withTokens (t :: ts)).announces = false := by
      refine Bool.eq_false_iff.mpr fun hTrue => ?_
      obtain ⟨-, u, hu, hName⟩ := (State.announces_cons rfl).mp hTrue
      rw [hts u hu] at hName
      cases hName
    have hSelf : nameOf? t = some t.text := by simp [nameOf?, hColumn, Keyword.isReserved]
    have hColumnName : (alterationBehind rules).run (s.withTokens (t :: ts)) =
        (do return .alterColumn t.text (← columnChange rules t.text t.span) : Parse AlterAction).run
          ((s.withTokens (t :: ts)).take t ts) := by
      rw [alterationBehind, run_bind, current, run_look, run_bind, Parse.name,
        run_ask_some rfl hSelf]
      rfl
    have hStrict : (advance >>= fun _ => namelessChange rules t.text t.span).run
        (s.withTokens (t :: ts)) =
        (do return .alterColumn t.text (← columnChange rules t.text t.span) : Parse AlterAction).run
          ((s.withTokens (t :: ts)).take t ts) := by
      rw [run_bind, run_advance_cons rfl]
      exact run_namelessChange t.text t.span hs.terminator hts
    rw [run_alteration, hNot, if_neg (by simp), hColumnName, hStrict]
  refine hBehind.congr ?_ (fun ts us more hTake _ hNil hNone => ?_) (.refl _)
  · have hHere := hRun rest fun u hu => Option.not_isSome_iff_eq_none.mp fun hName => ?_
    · rwa [← hTokens] at hHere
    · rw [(State.announces_cons hTokens).mpr ⟨hColumn, u, hu, hName⟩] at hAnnounces
      cases hAnnounces
  · cases ts with
    | nil => cases (hNil rfl).1
    | cons u ts =>
      obtain rfl : t = u := (List.cons.inj (hTokens.symm.trans hTake)).1
      refine hRun (ts ++ more) fun v hv => Option.not_isSome_iff_eq_none.mp fun hName => ?_
      rw [List.cons_append, run_bind, run_advance_cons rfl] at hNone
      exact fails_namelessChange t.text t.span ⟨v, hv, hName⟩ hNone

end Alteration

theorem viable_alteration (h : rules.Viable n) :
    Viable (n + 1) .alteration (alteration rules) := by
  have hBehind := viable_alterationBehind h
  have hOther : ∀ x : State, x.current.kind ≠ .keyword .COLUMN →
      (alteration rules).run x = (alterationBehind rules).run x := by
    intro x hx
    have hAnnounces : x.announces = false := by
      rw [State.announces, beq_eq_false_iff_ne.mpr hx, Bool.false_and]
    rw [run_alteration, hAnnounces]
    rfl
  refine ⟨fun hn => ⟨(fun hNil => by cases hNil), (hBehind.ready hn).inside, fun s hs => ?_⟩,
    fun s hs => ?_⟩
  · obtain ⟨a, s', hNone, hTerminator, hRun⟩ := (hBehind.ready hn).finishes s hs
    exact ⟨a, s', hNone, hTerminator, fun more hMore =>
      (hOther _ (by simp [Profile.words, Profile.alteration, sample, State.withTokens,
        State.current, someName])).trans (hRun more hMore)⟩
  · by_cases hColumn : s.current.kind = .keyword .COLUMN
    · cases hAnnounces : s.announces with
      | true => exact viableAt_announced h hs hAnnounces
      | false => exact viableAt_column h hs hColumn hAnnounces
    · refine (hBehind.sound s hs).congr (hOther s hColumn) (fun ts us more hTokens _ hNil _ => ?_)
        (.refl _)
      refine hOther _ ?_
      by_cases hSome : ts = []
      · cases (hNil hSome).1
      · rwa [State.current_withTokens_append hTokens hSome]

theorem viable_removal : Viable n ⟨[], false, false, false, [someName]⟩ removal := by
  have hPrimary := (Viable.expectKeyword (n := n) .KEY).made
      (f := fun _ => AlterAction.dropPrimaryKey)
  have hColumn := (viable_eatKeyword (n := n + 1) .COLUMN).bind (by rfl) fun _ =>
    (Viable.name .column).made (f := AlterAction.dropColumn)
  exact (Viable.ite (c := .keyword .CONSTRAINT)
    ((Viable.name .constraint).made (f := AlterAction.dropConstraint))
    (Viable.ite (c := .keyword .PRIMARY) hPrimary hColumn (by decide)) (by decide)).less.mono
      (by rfl) (by rfl)

theorem viable_renameAction :
    Viable n ⟨[], false, false, false, [someName, .keyword .TO, someName]⟩ renameAction := by
  have hColumn := (viable_eatKeyword (n := n + 1) .COLUMN).bind (by rfl) fun _ =>
      (Viable.name .column).bind (by rfl)
    fun column => (Viable.expectKeyword .TO).bind (by rfl) fun _ =>
      (Viable.name .column).made (f := AlterAction.renameColumn column)
  exact (Viable.ite (c := .keyword .TO) ((Viable.name .table).made (f := AlterAction.renameTable))
    hColumn (by decide)).less.mono (by rfl) (by rfl)

theorem viable_alterAction (h : rules.Viable n) :
    Viable (n + 1) ⟨[], false, false, false, [.keyword .DROP, someName]⟩ (alterAction rules) :=
  (Viable.ite (c := .keyword .ADD) (viable_addition h).less (Viable.ite (c := .keyword .ALTER)
    (viable_alteration h).less (Viable.iteFirst (n := n) (c := .keyword .DROP)
      (viable_removal (n := n + 1)).ready viable_removal (.ite viable_renameAction
        (Sound.fail (p := .columnChange) .alteration)) (by decide)) (by decide)) (by decide)).mono
          (by rfl) (by rfl)

theorem viable_alterTable (h : rules.Viable n) : Viable (n + 1) (.statement [.keyword .ALTER,
    .keyword .TABLE, someName, .keyword .DROP, someName]) (alterTable rules) := by
  have hItem := (Viable.expectKeyword (n := n + 1) .ALTER).bind (by rfl) fun _ =>
    (Viable.expectKeyword .TABLE).bind (by rfl) fun _ =>
      (viable_qualifiedName .table).bind (by rfl) fun table =>
    (viable_alterAction h).made (f := fun action span => AlterTable.mk table action span)
  exact (hItem.mono (by rfl) (by rfl)).spanned (by rfl)

theorem viable_dropBehavior : Viable n ⟨[], false, true, false, []⟩ dropBehavior :=
  (Viable.ite (n := n) (c := .keyword .CASCADE) (.pure (some DropBehavior.cascade))
    (Viable.ite (c := .keyword .RESTRICT) (.pure (some DropBehavior.restrict))
      (.pure none) (by decide)) (by decide)).less.mono (by rfl) (by rfl)

theorem viable_dropTable : Viable n (.statement [.keyword .DROP, .keyword .TABLE, someName])
    dropTable := by
  have hItem := (Viable.expectKeyword (n := n) .DROP).bind (by rfl) fun _ =>
    (Viable.expectKeyword .TABLE).bind (by rfl) fun _ =>
      (viable_wordPair .IF .EXISTS).bind (by rfl) fun ifExists =>
    (viable_qualifiedName .table).separated.bind (by rfl) fun names => viable_dropBehavior.made
      (f := fun behavior span => DropTable.mk ifExists names behavior span)
  exact (hItem.mono (by rfl) (by rfl)).spanned (by rfl)

/-! ## Other statements -/

theorem viable_conflictResolution :
    Viable n ⟨[someName, .keyword .INTO], false, true, false, []⟩ conflictResolution :=
  (Viable.ite (n := n) (c := .keyword .OR) (Viable.ask (.keyword .FAIL)
    (a := some ConflictResolution.fail) rfl (fun _ => refuses_of_kind (fun _ => rfl) rfl)
      (by decide))
    (.pure none) (by decide)).less.mono (by rfl) (by rfl)

theorem viable_insertMode : Viable n ⟨[.keyword .INTO], false, false, false, [.keyword .INSERT]⟩
    insertMode := by
  have hInsert := (Viable.expectKeyword (n := n + 1) .INSERT).bind (by rfl) fun _ =>
    viable_conflictResolution.made (f := InsertMode.insert)
  exact (Viable.ite (.pure InsertMode.replace) hInsert (by decide)).less.mono (by rfl) (by rfl)

theorem viable_insertSource (h : rules.Viable n) :
    Viable (n + 1) .select (insertSource rules) := by
  have hDefault := (Viable.expectKeyword (n := n) .VALUES).made
      (f := fun _ => InsertSource.defaultValues)
  exact (Viable.ite (c := .keyword .VALUES)
    ((viable_valueRow h).less.separated.made (f := InsertSource.values))
    (Viable.ite (c := .keyword .DEFAULT) hDefault
      ((viable_select h).made (f := InsertSource.query)) (by decide)) (by decide)).mono
        (by rfl) (by rfl)

theorem viable_insert (h : rules.Viable n) : Viable (n + 1) (.statement [.keyword .INSERT,
    .keyword .INTO, someName, .keyword .SELECT, .keyword .NULL]) (insert rules) := by
  have hItem := (viable_insertMode (n := n + 1)).bind (by rfl) fun mode =>
      (Viable.expectKeyword .INTO).bind (by rfl)
    fun _ => (viable_qualifiedName .table).bind (by rfl) fun table =>
      viable_optionalColumnList.bind (by rfl)
    fun columns => (viable_insertSource h).made
      (f := fun source span => Insert.mk mode table columns source span)
  exact (hItem.mono (by rfl) (by rfl)).spanned (by rfl)

theorem viable_assignment (h : rules.Viable n) : Viable (n + 1)
    ⟨[.symbol .rightParen], true, false, false, [someName, .symbol .equal, .keyword .NULL]⟩
    (assignment rules) :=
  ((Viable.name .column).bind (by rfl) fun column =>
    (Viable.expect .equal (by decide)).bind (by rfl) fun _ =>
    (viable_expr h).made).mono (by rfl) (by rfl)

theorem viable_update (h : rules.Viable n) : Viable (n + 1) (.statement [.keyword .UPDATE, someName,
    .keyword .SET, someName, .symbol .equal, .keyword .NULL]) (update rules) := by
  have hItem := (Viable.expectKeyword (n := n + 1) .UPDATE).bind (by rfl) fun _ =>
    viable_conflictResolution.bind (by rfl) fun resolution =>
      (viable_qualifiedName .table).bind (by rfl) fun table =>
    (Viable.expectKeyword .SET).bind (by rfl) fun _ => (viable_assignment h).separated.bind (by rfl)
    fun assignments => ((viable_expr h).less.after .WHERE).made
      (f := fun condition span => Update.mk resolution table assignments condition span)
  exact (hItem.mono (by rfl) (by rfl)).spanned (by rfl)

theorem viable_delete (h : rules.Viable n) : Viable (n + 1) (.statement [.keyword .DELETE,
    .keyword .FROM, someName]) (delete rules) := by
  have hItem := (Viable.expectKeyword (n := n + 1) .DELETE).bind (by rfl) fun _ =>
    (Viable.expectKeyword .FROM).bind (by rfl) fun _ =>
      (viable_qualifiedName .table).bind (by rfl) fun table =>
    ((viable_expr h).less.after .WHERE).made
      (f := fun condition span => Delete.mk table condition span)
  exact (hItem.mono (by rfl) (by rfl)).spanned (by rfl)

theorem viable_statementOfKind (h : rules.Viable n) :
    Viable (n + 1) (.statement [.keyword .SELECT, .keyword .NULL]) (statementOfKind rules) := by
  have hSelect := ((viable_select h).map Statement.select).mono (by rfl) (by rfl)
    (p := .statement [.keyword .SELECT, .keyword .NULL])
  rw [statementOfKind_eq]
  refine ⟨fun hn => ?_, Sound.look (g := Token.kind) (fun s hs => ?_) rfl⟩
  · exact Ready.look (g := Token.kind) (c := .keyword .SELECT) (hSelect.ready hn)
      (fun k hk => by cases hk; rfl) (fun hNil => by cases hNil)
  · unfold statementFor
    split
    · exact (((viable_createTable h).map _).sound s hs).mono (Profile.covers_of_eq rfl)
    · exact (((viable_alterTable h).map _).sound s hs).mono (Profile.covers_of_eq rfl)
    · exact ((viable_dropTable.map _).sound s hs).mono (Profile.covers_of_eq rfl)
    · exact (((viable_insert h).map _).sound s hs).mono (Profile.covers_of_eq rfl)
    · exact (((viable_insert h).map _).sound s hs).mono (Profile.covers_of_eq rfl)
    · exact (((viable_update h).map _).sound s hs).mono (Profile.covers_of_eq rfl)
    · exact (((viable_delete h).map _).sound s hs).mono (Profile.covers_of_eq rfl)
    · exact hSelect.sound s hs

section Whole

variable {text : List TokenKind} {more : List Token}

/-- Nothing stands behind a whole statement. -/
theorem Profile.Meets.eq_nil (h : (Profile.statement text).Meets more) : more = [] := by
  cases more with
  | nil => rfl
  | cons t rest => cases h t rfl

theorem run_statement_of_atEnd (h : ((statementOfKind rules).run s).2.atEnd = true) :
    (statement rules).run s = (statementOfKind rules).run s := by
  rw [run_statement, if_pos h]

theorem error_statement_of_some {e : ParseError}
    (h : ((statementOfKind rules).run s).2.error = some e) :
    ((statement rules).run s).2.error = some e := by
  rw [statement, run_bind]
  exact Moves.error_eq (Parse.moves _ _) h

/-- Where the statement does not end, the error is at the next token. -/
theorem error_statement_of_not_atEnd (hNone : ((statementOfKind rules).run s).2.error = none)
    (hLeft : ((statementOfKind rules).run s).2.atEnd = false) :
    ((statement rules).run s).2.error =
      some ⟨((statementOfKind rules).run s).2.errorPosition,
        .unexpected (.symbol .semicolon) ((statementOfKind rules).run s).2.current⟩ := by
  rw [run_statement, if_neg (by simp [hLeft])]
  exact error_note hNone _

theorem Finishes.whole {ts : List Token} (hEnd : s.terminator.kind.IsEnd)
    (h : Finishes (.statement text) (statementOfKind rules) s ts) :
    Finishes (.statement text) (statement rules) s ts := by
  obtain ⟨a, s', hNone, hTerminator, hRun⟩ := h
  refine ⟨a, s', hNone, hTerminator, fun more hMore => ?_⟩
  obtain rfl := hMore.eq_nil
  have hBehind := hRun [] hMore
  have hAtEnd : (s'.withTokens []).atEnd = true :=
    (State.atEnd_of_nil rfl).trans (endsStatement_iff.mpr (hTerminator ▸ hEnd))
  rw [run_statement_of_atEnd (by rw [hBehind]; exact hAtEnd), hBehind]

variable {e : ParseError} {ts : List Token}

theorem Breaks.whole {rest : List Token} (hEnd : s.terminator.kind.IsEnd)
    (h : Breaks (.statement text) (statementOfKind rules) s e ts rest) :
    Breaks (.statement text) (statement rules) s e ts rest :=
  ⟨h.tokens, h.place, h.starts, fun hSome =>
    (h.done hSome).imp fun _ hMore => ⟨hMore.1, hMore.2.whole hEnd⟩⟩

theorem Takes.whole (hEnd : s.terminator.kind.IsEnd)
    (h : Takes (.statement text) (statementOfKind rules) s ts)
    (hAtEnd : ((statementOfKind rules).run s).2.atEnd = true) :
    Takes (.statement text) (statement rules) s ts := by
  have hSame := run_statement_of_atEnd hAtEnd
  refine ⟨hSame ▸ h.tokens, h.empty, h.starts, ?_⟩
  rw [hSame]
  intro more hMore
  have hBehind := h.run more hMore
  -- With the same token behind it, or none, the statement ends as well.
  have hStill : (((statementOfKind rules).run s).2.withTokens more).atEnd = true := by
    have hTerminator := ((statementOfKind rules).moves s).terminator_eq
    rcases hMore with hMore | ⟨t, hHead, hSameHead⟩
    · obtain rfl := hMore.eq_nil
      exact (State.atEnd_of_nil rfl).trans (endsStatement_iff.mpr (hTerminator ▸ hEnd))
    · obtain ⟨us, hTokens⟩ := List.head?_eq_some_iff.mp hHead
      obtain ⟨vs, rfl⟩ := List.head?_eq_some_iff.mp hSameHead.1
      rw [State.atEnd, State.current_cons hTokens] at hAtEnd
      rwa [State.atEnd, State.current_cons rfl]
  rw [run_statement_of_atEnd (by rw [hBehind]; exact hStill), hBehind]

/-- Tokens that are left behind a statement can be left out. -/
theorem Takes.breaks_whole (hEnd : s.terminator.kind.IsEnd)
    (h : Takes (.statement text) (statementOfKind rules) s ts)
    (hNone : ((statementOfKind rules).run s).2.error = none)
    (he : ((statementOfKind rules).run s).2.Reports e) :
    Breaks (.statement text) (statement rules) s e ts ((statementOfKind rules).run s).2.tokens := by
  refine ⟨h.tokens, ?_, h.starts, fun _ => ⟨[], (fun t ht => by cases ht), ?_⟩⟩
  · obtain ⟨us, hTokens, hPrevious⟩ := ((statementOfKind rules).moves s).exists_taken
    obtain rfl := List.append_cancel_right (hTokens.symm.trans h.tokens)
    exact he.congr rfl ((statementOfKind rules).moves s).terminator_eq.symm hPrevious.symm
  · rw [List.append_nil]
    exact (h.finishes hNone).whole hEnd

theorem viable_statement (h : rules.Viable n) :
    Viable (n + 1) (.statement [.keyword .SELECT, .keyword .NULL]) (statement rules) := by
  have hKind := viable_statementOfKind h
  refine ⟨fun hn => ⟨(hKind.ready hn).empty, (hKind.ready hn).inside, fun s hs =>
    ((hKind.ready hn).finishes s hs).whole hs.terminator⟩,
    fun s hs => ⟨fun hNone => ?_, fun e he => ?_⟩⟩
  · cases hFirst : ((statementOfKind rules).run s).2.error with
    | some e => simp [error_statement_of_some hFirst] at hNone
    | none =>
      have hAtEnd : ((statementOfKind rules).run s).2.atEnd = true := by
        by_contra hLeft
        simp [error_statement_of_not_atEnd hFirst (Bool.eq_false_iff.mpr hLeft)] at hNone
      obtain ⟨ts, hTakes⟩ := (hKind.sound s hs).pass hFirst
      exact ⟨ts, hTakes.whole hs.terminator hAtEnd⟩
  · cases hFirst : ((statementOfKind rules).run s).2.error with
    | some e' =>
      obtain rfl := Option.some.inj ((error_statement_of_some hFirst).symm.trans he)
      obtain ⟨ts, rest, hBreaks⟩ := (hKind.sound s hs).stop e' hFirst
      exact ⟨ts, rest, hBreaks.whole hs.terminator⟩
    | none =>
      obtain ⟨ts, hTakes⟩ := (hKind.sound s hs).pass hFirst
      have hLeft : ((statementOfKind rules).run s).2.atEnd = false := by
        refine Bool.eq_false_iff.mpr fun hAtEnd => ?_
        rw [run_statement_of_atEnd hAtEnd, hFirst] at he
        cases he
      obtain rfl := Option.some.inj ((error_statement_of_not_atEnd hFirst hLeft).symm.trans he)
      refine ⟨ts, _, hTakes.breaks_whole hs.terminator hFirst ⟨rfl, fun _ _ hCause => ?_⟩⟩
      cases hCause
      rfl

end Whole

/-! ## Recursion without a bound -/

theorem Rules.Unbounded.viable (h : rules.Unbounded) : rules.Viable n := by
  induction n with
  | zero => exact ⟨.zero, .zero, .zero⟩
  | succ n ih =>
    exact ⟨(viable_expr ih).of_same fun n => (h n).expr, (viable_select ih).of_same
      fun n => (h n).select, (viable_joinClause ih).of_same fun n => (h n).joinClause⟩

end SqlKit.Grammar
