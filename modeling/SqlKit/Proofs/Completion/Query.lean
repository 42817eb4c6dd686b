import SqlKit.Proofs.Completion.Expression

/-!
# Queries complete what they took
-/

namespace SqlKit.Grammar

open Parse

variable {n : Nat} {rules : Rules} {s : State}

/-! ## Names and columns -/

theorem refuses_identifierOf : Refuses identifierOf? (startsBut someName) :=
  refuses_of_kind (fun _ => rfl) rfl

/-- What is known of another name. -/
def Profile.asName : Profile :=
  ⟨(startsBut someName).filter (· != .keyword .AS), false, true, false, []⟩

theorem viable_asName? : Viable n .asName asName? := by
  have hIdentifier : Viable (n + 1) (.option (startsBut someName) .nothing .nothing)
      (take? identifierOf?) :=
    .of_eq (bind_pure _).symm
      (Viable.take? (f := pure) (fun _ => .pure _) (.pure _) refuses_identifierOf
        fun _ hk => by cases hk)
  exact (Viable.ite (c := .keyword .AS) (Viable.name .asName).made hIdentifier
    (by decide)).less.mono (by rfl) (by rfl)

theorem viable_qualifiedName (role : NameRole) :
    Viable n (.token someName) (qualifiedName role) :=
  ((Viable.name role).bind (by rfl) fun first => (Viable.ite (n := n) (c := .symbol .dot)
    ((Viable.name role).made (f := fun second => QualifiedName.mk (some first) second))
    (.pure _) (by decide)).less).mono (by rfl) (by rfl)

theorem viable_listedColumn : Viable n (.token someName) listedColumn := by
  have hDirection : ∀ column : String, Viable (n + 1) _ (do
      if !(← eatKeyword .ASC) then
        let _ ← eatKeyword .DESC
      return column) := fun column =>
    Viable.eat (.pure column) ((viable_eatKeyword .DESC).made (f := fun _ => column)) (by decide)
  exact ((Viable.name .column).bind (by rfl) fun column =>
      (hDirection column).less).mono (by rfl) (by rfl)

def Profile.columns : Profile :=
  ⟨starts, false, false, false, [.symbol .leftParen, someName, .symbol .rightParen]⟩

theorem viable_columnList : Viable n .columns columnList :=
  (Viable.askIte (viable_listedColumn.separated.bind (by rfl) fun columns =>
    (Viable.expect .rightParen (by decide)).made (f := fun _ => columns)) (by decide)).mono
      (by rfl) (by rfl)

/-- Where no list of columns is next but another token. -/
def Profile.optionalColumns : Profile := ⟨startsBut (.symbol .leftParen), false, true, false, []⟩

theorem viable_optionalColumnList : Viable n .optionalColumns optionalColumnList :=
  (Viable.choose (q := .optionalColumns) (g := fun t => t.kind == .symbol .leftParen)
    (fun s hs _ => viable_columnList.sound s hs) ((Viable.pure []).mono (by rfl) (by rfl))
    (by rfl) (fun _ => not_sees (by decide) (by decide)) (fun _ hk => by cases hk)).mono
      (by rfl) (by rfl)

/-! ## Sources -/

theorem viable_parenthesizedSource (h : rules.Viable n) :
    Viable n (Profile.sources.withText [someName, .symbol .rightParen])
      (parenthesizedSource rules) := by
  have hQuery := h.select.bind (by rfl) fun query =>
      (Viable.expect (n := n) .rightParen (by decide)).bind (by rfl) fun _ =>
    viable_asName?.made (f := Source.subquery query)
  have hClause := h.joinClause.bind (by rfl) fun clause =>
    (Viable.expect .rightParen (by decide)).made (f := fun _ => Source.nested clause)
  exact (Viable.choose (g := opensQuery) (fun s hs _ => hQuery.sound s hs) hClause
    (by rfl) (fun h => by cases h) (fun k hk => by cases hk; rfl)).mono (by rfl) (by rfl)

theorem viable_source (h : rules.Viable n) : Viable (n + 1) .sources (source rules) :=
  (Viable.ite (c := .symbol .leftParen) (viable_parenthesizedSource h)
    ((viable_qualifiedName .table).bind (by rfl) fun table =>
      viable_asName?.made (f := Source.table table)) (by decide)).mono (by rfl) (by rfl)

theorem refuses_joinKind : Refuses joinKind? starts := refuses_of_kind (fun _ => rfl) rfl

theorem viable_joinAfterKind (natural : Bool) (kind : JoinKind) :
    Viable n (.token (.keyword .JOIN)) (joinAfterKind natural kind) := by
  have hJoin : ∀ outer, Viable n (.token (.keyword .JOIN)) (do
      expectKeyword .JOIN
      return JoinOperator.mk natural kind outer) := fun outer => (Viable.expectKeyword .JOIN).made
  have hOuter := ((viable_eatKeyword .OUTER).bind (by rfl) hJoin).mono
      (p := .token (.keyword .JOIN)) (by rfl)
    (by rfl)
  cases kind with
  | left | right | full => exact hOuter
  | comma | plain | inner | cross => exact hJoin false

/-- The text of a joined source behind the first token of its operator. -/
def JoinStart.text : JoinStart → List TokenKind
  | .comma | .join => [someName]
  | .natural | .kind _ => [.keyword .JOIN, someName]

theorem viable_joinConstraint (h : rules.Viable n) :
    Viable (n + 1) ⟨[.symbol .rightParen], true, true, false, []⟩ (joinConstraint rules) :=
  (Viable.ite (c := .keyword .ON) (viable_expr h).less.made (Viable.ite (c := .keyword .USING)
    viable_columnList.made (.pure JoinConstraint.none) (by decide)) (by decide)).mono
      (by rfl) (by rfl)

theorem viable_joinedSource (h : rules.Viable n) (start : JoinStart) :
    Viable (n + 1) (Profile.sources.withText start.text) (joinedSource rules start) := by
  have hRest : ∀ operator : JoinOperator, Viable (n + 1) .sources (do
      let right ← source rules
      return JoinedSource.mk operator right (← joinConstraint rules)) := fun operator =>
    ((viable_source h).bind (by rfl) fun right =>
      (viable_joinConstraint h).made).mono (by rfl) (by rfl)
  cases start with
  | comma | join => exact (hRest _).mono (by rfl) (by rfl)
  | natural =>
    have hKind := Viable.take? (f := fun kind => joinAfterKind true (kind.getD .plain))
      (fun kind => viable_joinAfterKind (n := n) true kind) (viable_joinAfterKind true .plain)
      refuses_joinKind (fun k hk => by cases hk; rfl)
    exact (hKind.bind (by rfl) hRest).mono (by rfl) (by rfl)
  | kind kind =>
    exact ((viable_joinAfterKind false kind).bind (by rfl) hRest).mono (by rfl) (by rfl)

theorem refuses_joinStart : Refuses joinStart? (startsBut (.keyword .JOIN)) :=
  refuses_of_kind (fun _ => rfl) rfl

theorem viable_joinClause (h : rules.Viable n) : Viable (n + 1) .sources (joinClause rules) :=
  ((viable_source h).bind (by rfl) fun _ => (Viable.chain (w := JoinStart.text)
    (viable_joinedSource h) refuses_joinStart (by rfl)).less.made).mono (by rfl) (by rfl)

/-! ## Result columns -/

/-- A reader that meets an error. -/
def Fails {α : Type} (m : Parse α) (s : State) : Prop := (m.run s).2.error ≠ none

namespace Fails

variable {α β : Type} {m : Parse α} {f : α → Parse β}

theorem bind (h : Fails m s) : Fails (m >>= f) s := fun hNone =>
  h (error_none_of_moves ((f _).moves _) hNone)

theorem of_run {k : Parse α} {s' : State} (hRun : m.run s = k.run s') (h : Fails k s') :
    Fails m s := by
  rw [Fails, hRun]
  exact h

theorem behind {a : α} {s' : State} (hRun : m.run s = (a, s')) (h : Fails (f a) s') :
    Fails (m >>= f) s := by
  rw [Fails, run_bind, hRun]
  exact h

end Fails

/-- The kinds of tokens that stand for names. -/
theorem kind_of_nameOf? {t : Token} (h : (nameOf? t).isSome = true) :
    (∃ n, t.kind = .identifier n) ∨ ∃ w, t.kind = .keyword w ∧ w.isReserved = false := by
  unfold nameOf? at h
  split at h
  · next n hKind => exact Or.inl ⟨n, hKind⟩
  · next w hKind =>
    refine Or.inr ⟨w, hKind, Bool.eq_false_iff.mpr fun hReserved => ?_⟩
    rw [if_pos hReserved] at h
    cases h
  · cases h

theorem literalOf?_of_nameOf? {t : Token} (h : (nameOf? t).isSome = true) :
    literalOf? t = none := by
  unfold literalOf?
  obtain ⟨n, hKind⟩ | ⟨w, hKind, hFree⟩ := kind_of_nameOf? h
  · rw [hKind]
  · rw [hKind]
    cases w <;> first | rfl | cases hFree

theorem termOfKind_of_nameOf? {t : Token} (h : (nameOf? t).isSome = true) :
    termOfKind rules t.kind = namedTerm rules := by
  unfold termOfKind
  obtain ⟨n, hKind⟩ | ⟨w, hKind, hFree⟩ := kind_of_nameOf? h
  · rw [hKind]
  · rw [hKind]
    cases w <;> first | rfl | cases hFree

section TableStar

variable {t u v : Token} {rest : List Token} (hTokens : s.tokens = t :: u :: v :: rest)
  (hName : (nameOf? t).isSome = true) (hDot : u.kind = .symbol .dot)
  (hStar : v.kind = .symbol .star)

include hTokens hName hDot hStar

/-- No path starts with `name.*`. -/
theorem fails_pathOrCall : Fails (pathOrCall rules) s := by
  obtain ⟨first, hFirst⟩ := Option.isSome_iff_exists.mp hName
  refine .behind (run_ask_some hTokens hFirst) (.of_run (run_ite_of_ne fun w hw => ?_) (.bind ?_))
  · obtain rfl := Option.some.inj hw
    simp [hDot]
  · refine .of_run (run_chain_cons rfl (b := ()) (if_pos hDot)) (.bind fun hNone => ?_)
    rw [Parse.name, run_ask_none fun w hw => ?_] at hNone
    · simp [State.error_note] at hNone
    · obtain rfl := Option.some.inj hw
      simp [nameOf?, hStar]

/-- No term starts with `name.*`, and no expression either. -/
theorem fails_expr : Fails (expr rules) s := by
  have hHead : ∀ {β : Type} {accept : Token → Option β}, accept t = none →
      ∀ w ∈ s.tokens.head?, accept w = none := by
    intro β accept hAccept w hw
    rw [hTokens] at hw
    obtain rfl := Option.some.inj hw
    exact hAccept
  have hKind : ∀ c, nameOf? ⟨c, t.span, t.text⟩ = none → t.kind ≠ c := by
    rintro c hc rfl
    rw [show nameOf? ⟨t.kind, t.span, t.text⟩ = nameOf? t from rfl] at hc
    rw [hc] at hName
    cases hName
  have hNot : (if t.kind = .keyword .NOT then some () else none) = none := if_neg (hKind _ rfl)
  have hExists : ∀ w ∈ s.tokens.head?, w.kind ≠ .keyword .EXISTS := by
    intro w hw
    rw [hTokens] at hw
    obtain rfl := Option.some.inj hw
    exact hKind _ rfl
  have hSign : signOf? t = none := by
    obtain ⟨n, hName⟩ | ⟨w, hName, -⟩ := kind_of_nameOf? hName <;> simp [signOf?, hName]
  have hUnsigned : Fails (unsignedTerm rules) s := by
    rw [unsignedTerm_eq]
    refine .behind (run_take?_of_refuses rfl (hHead (literalOf?_of_nameOf? hName))) ?_
    show Fails (termOfKind rules s.current.kind) s
    rw [State.current_cons hTokens, termOfKind_of_nameOf? hName]
    have hSees : seesName.run s = (true, s) := by
      show ((nameOf? s.current).isSome, s) = _
      rw [State.current_cons hTokens, hName]
    exact .behind hSees (fails_pathOrCall hTokens hName hDot hStar)
  have hTerm : Fails (term rules) s :=
    .behind (run_chain_of_refuses rfl (hHead hSign)) (.bind hUnsigned)
  -- up to the expression, all that stands in front of the term takes nothing
  have hPlain : Fails (plainCondition rules) s :=
    .of_run (run_ite_of_ne hExists) (.bind (.bind (.bind (.bind hTerm))))
  exact .bind (.bind (.behind (run_chain_of_refuses rfl (hHead hNot)) (.bind hPlain)))

end TableStar

section

variable {m : Parse ResultColumn}

/-- The tokens of `name.*`. -/
theorem exists_tableStar (hs : Intact s) (h : (seesTableStar.run s).1 = true) :
    ∃ t u v rest, s.tokens = t :: u :: v :: rest ∧ (nameOf? t).isSome = true ∧
      u.kind = .symbol .dot ∧ v.kind = .symbol .star := by
  have hName : (nameOf? s.current).isSome = true := by
    simp only [seesTableStar, seesName, run_bind, run_look, run_pure, Bool.and_eq_true] at h
    exact h.1.1
  have hEnd : ¬ s.current.kind.IsEnd := by
    intro hEnd
    unfold nameOf? at hName
    rcases hEnd with hKind | hKind <;> simp [hKind] at hName
  obtain ⟨t, rest, hTokens, -⟩ := hs.exists_head rfl hEnd
  obtain ⟨u, v, more, rfl, hDot, hStar⟩ := exists_of_seesTableStar hTokens h
  exact ⟨t, u, v, more, hTokens, State.current_cons hTokens ▸ hName, hDot, hStar⟩

def Profile.resultColumn : Profile := ⟨[.symbol .rightParen], true, false, true, [.keyword .NULL]⟩

/-- Where `name.*` is next, it is taken. -/
theorem viableAt_tableStar (hs : Intact s) (h : (seesTableStar.run s).1 = true) :
    ViableAt .resultColumn (tableStarOr m) s := by
  obtain ⟨t, u, v, rest, hTokens, hName, hDot, hStar⟩ := exists_tableStar hs h
  obtain ⟨table, hTable⟩ := Option.isSome_iff_exists.mp hName
  have hRun : ∀ ts, (tableStarOr m).run (s.withTokens (t :: u :: v :: ts)) =
      (.tableStar table, (((s.take t []).take u []).take v []).withTokens ts) := by
    intro ts
    have hSees : (seesTableStar.run (s.withTokens (t :: u :: v :: ts))).1 = true := by
      simp [seesTableStar, seesName, kindAt, State.kindAt, State.withTokens, State.current, hName,
        hDot, hStar]
    rw [run_tableStarOr, if_pos hSees, tableStar, run_bind, Parse.name, run_ask_some rfl hTable,
      run_bind, run_advance_cons rfl, run_bind, run_advance_cons rfl]
    rfl
  have hSelf : (tableStarOr m).run s = (.tableStar table,
      (((s.take t []).take u []).take v []).withTokens rest) := by
    have hHere := hRun rest
    rwa [← hTokens] at hHere
  refine ⟨fun _ => ⟨[t, u, v], ?_, (fun hNil => by cases hNil), fun _ _ _ => rfl, fun more _ => ?_⟩,
    fun e he => ?_⟩
  · rw [hTokens, hSelf]
    rfl
  · rw [hSelf]
    exact hRun more
  · rw [hSelf] at he
    exact absurd (hs.error.symm.trans he) (by simp)

/-- Where an expression is read without an error, no `name.*` is next. -/
theorem seesTableStar_of_expr {f : Expr → Parse ResultColumn} (hs : Intact s)
    (hNone : ((expr rules >>= f).run s).2.error = none) : (seesTableStar.run s).1 = false := by
  refine Bool.eq_false_iff.mpr fun hSees => ?_
  obtain ⟨t, u, v, rest, hTokens, hName, hDot, hStar⟩ := exists_tableStar hs hSees
  exact (fails_expr hTokens hName hDot hStar).bind hNone

end

theorem viable_resultColumn (h : rules.Viable n) :
    Viable (n + 1) .resultColumn (resultColumn rules) := by
  have hExpr := ((viable_expr h).bind (by rfl) fun value =>
    viable_asName?.made (f := ResultColumn.expr value)).mono (p := .resultColumn) (by rfl)
    (by rfl)
  have hElse : Viable (n + 1) .resultColumn (tableStarOr do
      let value ← expr rules
      return ResultColumn.expr value (← asName?)) := by
    refine ⟨fun hn => ⟨(fun hNil => by cases hNil), (hExpr.ready hn).inside, fun s hs => ?_⟩,
      fun s hs => ?_⟩
    · obtain ⟨a, s', hNone, hTerminator, hRun⟩ := (hExpr.ready hn).finishes s hs
      refine ⟨a, s', hNone, hTerminator, fun more hMore => ?_⟩
      have hSees := seesTableStar_of_expr (s := s.withTokens (Profile.resultColumn.words ++ more))
        ⟨hs.terminator, hs.error⟩ (by rw [hRun more hMore]; exact hNone)
      rw [run_tableStarOr, hSees]
      exact hRun more hMore
    · cases hSees : (seesTableStar.run s).1 with
      | true => exact viableAt_tableStar hs.toIntact hSees
      | false =>
        refine (hExpr.sound s hs).congr ?_ (fun ts us more _ _ _ hNone => ?_) (.refl _)
        · rw [run_tableStarOr, hSees]
          rfl
        · have hFalse := seesTableStar_of_expr (s := s.withTokens (ts ++ more))
            ⟨hs.terminator, hs.error⟩ hNone
          rw [run_tableStarOr, hFalse]
          rfl
  exact (Viable.ite (.pure ResultColumn.star) hElse (by decide)).mono (by rfl) (by rfl)

/-! ## Bodies -/

theorem viable_valueRow (h : rules.Viable n) :
    Viable (n + 1)
      ⟨starts, false, false, false, [.symbol .leftParen, .keyword .NULL, .symbol .rightParen]⟩
      (valueRow rules) :=
  ((Viable.expect .leftParen (by decide)).bind (by rfl) fun _ =>
    (viable_expr h).separated.bind (by rfl) fun values =>
    (Viable.expect .rightParen (by decide)).made (f := fun _ => values)).mono (by rfl) (by rfl)

theorem viable_distinct : Viable n .nothing distinct :=
  (Viable.ite (n := n) (c := .keyword .DISTINCT) (.pure true)
    ((viable_eatKeyword .ALL).made (f := fun _ => false)) (by decide)).less.mono (by rfl) (by rfl)

/-- What is known of what stands behind the columns of a query. -/
def Profile.clause : Profile := ⟨[.symbol .rightParen], true, true, false, []⟩

theorem viable_groupBy (h : rules.Viable n) : Viable (n + 1) .clause (groupBy rules) :=
  (Viable.ite (c := .keyword .GROUP) ((Viable.expectKeyword .BY).bind (by rfl) fun _ =>
    (viable_expr h).less.separated) (.pure []) (by decide)).mono (by rfl) (by rfl)

theorem viable_body (h : rules.Viable n) : Viable (n + 1) .select (body rules) := by
  have hExpr := viable_expr h
  have hSelect := (Viable.expectKeyword (n := n + 1) .SELECT).bind (by rfl) fun _ =>
      viable_distinct.bind (by rfl)
    fun distinct => (viable_resultColumn h).separated.bind (by rfl) fun columns =>
    ((viable_joinClause h).less.after .FROM).bind (by rfl) fun source =>
      (hExpr.less.after .WHERE).bind (by rfl) fun condition =>
    (viable_groupBy h).bind (by rfl) fun groupBy => (hExpr.less.after .HAVING).made
      (f := fun having => Body.select distinct columns source condition groupBy having)
  exact (Viable.ite (viable_valueRow h).less.separated.made hSelect (by decide)).mono
      (by rfl) (by rfl)

theorem viable_compound (h : rules.Viable n) (operator : SetOperator) :
    Viable (n + 1) .select (compound rules operator) := by
  have hBody : ∀ operator : SetOperator, Viable (n + 1) .select
      (do return (operator, ← body rules)) := fun operator => (viable_body h).made
  unfold compound
  split
  · refine Viable.mono (q := (Profile.mark (.keyword .ALL)).andThen .select)
      ((viable_eatKeyword .ALL).bind (by rfl) fun all => ?_) (by rfl) (by rfl)
    cases all with
    | true => exact hBody .unionAll
    | false => exact hBody .union
  · exact hBody operator

theorem refuses_setOperator : Refuses setOperator? starts := refuses_of_kind (fun _ => rfl) rfl

theorem viable_bodies (h : rules.Viable n) : Viable (n + 1) .select (bodies rules) :=
  ((viable_body h).bind (by rfl) fun _ =>
    (Viable.many (viable_compound h) refuses_setOperator (by rfl)).less.made).mono (by rfl) (by rfl)

/-! ## Queries -/

theorem viable_commonTable (h : rules.Viable n) :
    Viable n ⟨starts, false, false, false, [someName, .keyword .AS, .symbol .leftParen,
      .keyword .SELECT, .keyword .NULL, .symbol .rightParen]⟩ (commonTable rules) :=
  ((Viable.name .table).bind (by rfl) fun name =>
    viable_optionalColumnList.bind (by rfl) fun columns =>
    (Viable.expectKeyword .AS).bind (by rfl) fun _ =>
      (Viable.expect .leftParen (by decide)).bind (by rfl) fun _ =>
    h.select.bind (by rfl) fun query => (Viable.expect .rightParen (by decide)).made
      (f := fun _ => CommonTable.mk name columns query)).mono (by rfl) (by rfl)

theorem viable_nullPlacement : Viable n .clause nullPlacement := by
  have hBehind := Viable.ite (n := n) (c := .keyword .FIRST) (.pure (some NullPlacement.first))
    ((Viable.expectKeyword .LAST).made (f := fun _ => some NullPlacement.last)) (by decide)
  exact (Viable.ite (c := .keyword .NULLS) hBehind (.pure none) (by decide)).less.less.mono
      (by rfl) (by rfl)

theorem viable_direction : Viable n .clause direction :=
  (Viable.ite (n := n) (c := .keyword .DESC) (.pure Direction.descending)
    ((viable_eatKeyword .ASC).made (f := fun _ => Direction.ascending)) (by decide)).less.mono
      (by rfl) (by rfl)

theorem viable_orderTerm (h : rules.Viable n) :
    Viable (n + 1) ⟨[.symbol .rightParen], true, false, true, [.keyword .NULL]⟩ (orderTerm rules) :=
  ((viable_expr h).bind (by rfl) fun key => viable_direction.bind (by rfl) fun direction =>
    viable_nullPlacement.made (f := OrderTerm.mk key direction)).mono (by rfl) (by rfl)

theorem viable_orderBy (h : rules.Viable n) : Viable (n + 1) .clause (orderBy rules) :=
  (Viable.ite (c := .keyword .ORDER) ((Viable.expectKeyword .BY).bind (by rfl) fun _ =>
    (viable_orderTerm h).less.separated) (.pure []) (by decide)).mono (by rfl) (by rfl)

theorem viable_limit (h : rules.Viable n) : Viable (n + 1) .clause (limit rules) := by
  have hExpr := viable_expr h
  have hBehind : Viable n Profile.expr (do
      let first ← expr rules
      if ← eatKeyword .OFFSET then return Limit.window first (← expr rules)
      else if ← eat .comma then return .window (← expr rules) first
      else return .first first) := by
    cases n with
    | zero => exact .zero
    | succ n =>
      exact (hExpr.less.bind (by rfl) fun first => Viable.ite (c := .keyword .OFFSET)
        hExpr.less.less.made (Viable.ite (c := .symbol .comma) hExpr.less.less.made
          (.pure (Limit.first first)) (by decide)) (by decide)).mono (by rfl) (by rfl)
  exact (Viable.ite (c := .keyword .LIMIT) hBehind (.pure Limit.none) (by decide)).mono
      (by rfl) (by rfl)

theorem viable_select (h : rules.Viable n) : Viable (n + 1) .select (select rules) := by
  have hParts : ∀ (recursive : Bool) (tables : List CommonTable), Viable (n + 1) .select (do
      let bodies ← bodies rules
      let orderBy ← orderBy rules
      let limit ← limit rules
      return fun span => (⟨recursive, tables, bodies, orderBy, limit, span⟩ : Select)) :=
    fun recursive tables => ((viable_bodies h).bind (by rfl) fun bodies =>
      (viable_orderBy h).bind (by rfl)
      fun orderBy => (viable_limit h).made).mono (by rfl) (by rfl)
  have hTables := (viable_eatKeyword (n := n) .RECURSIVE).bind (by rfl) fun recursive =>
    (viable_commonTable h).separated.bind (by rfl) fun tables => (hParts recursive tables).less
  exact ((Viable.eat (c := .keyword .WITH) hTables (hParts false []) (by decide)).mono
    (p := .select) (by rfl) (by rfl)).spanned (by rfl)

end SqlKit.Grammar
