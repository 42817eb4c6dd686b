import SqlKit.Proofs.Rendering.Body

/-!
# Queries are read back

Bodies with set operators between them, the tables defined in front of them, the order and the
limit behind them; then the knot: what the grammar comes back to is read back at every depth.
-/

namespace SqlKit.Grammar

open Parse

variable {n k : Nat} {s : State}

/-! ## Compound bodies -/

def Print.bodies : Print Bodies := ⟨Bodies.row, Bodies.nodes⟩

/-- A body with a set operator in front of it. -/
def Print.compound : Print (SetOperator × Body) where
  row x := .blank :: (x.1.row ++ (.blank :: x.2.row))
  nodes x := x.2.nodes

/-- What is read behind a set operator whose `ALL` is known. -/
def compoundBehind (rules : Rules) (o : SetOperator) : Parse (SetOperator × Body) :=
  Prod.mk o <$> body rules

theorem compound_union : (fun rules => compound rules .union) = fun rules =>
    eatKeyword .ALL >>= fun c => compoundBehind rules (if c = true then .unionAll else .union) := by
  funext rules
  simp only [compound, ↓reduceIte]
  refine bind_congr fun c => ?_
  cases c <;> rfl

theorem compound_other {o : SetOperator} (ho : o ≠ .union) :
    (fun rules => compound rules o) = fun rules => compoundBehind rules o := by
  funext rules
  simp only [compound, if_neg ho, pure_bind]
  rfl

theorem setOperator?_none (t : Token) (h : 16 ≤ closes t.kind) : setOperator? t = none := by
  unfold setOperator?
  split
  all_goals first | rfl | next hKind => exact absurd h (by rw [hKind]; decide)

section Compound

variable {o : SetOperator} {b : Body} {gs : Script} {P : List TokenKind → Prop}

theorem Reads.compound {ms : List ParamMark} {level : Nat}
    (hAll : o = .union → Leads level (fun ks => first ks ≠ .keyword .ALL) gs)
    (h : Reads (k + 1) (fun rules => compoundBehind rules o) gs ms level (Like .spans (o, b))) :
    Reads k (fun rules => entry setOperator? (Grammar.compound rules)) (o.row ++ .blank :: gs) ms
      level (Like .spans (some (o, b))) := by
  have hSome : ∀ {m : Rules → Parse (SetOperator × Body)} {hs : Script},
      Reads (k + 1) m hs ms level (Like .spans (o, b)) →
      Reads (k + 1) (fun rules => some <$> m rules) hs ms level (Like .spans (some (o, b))) :=
    fun hm => hm.map fun y hy => Like.some hy
  cases o with
  | union =>
    refine Reads.take (b := .union) rfl (fun t ht _ => by unfold setOperator?; rw [ht]) (hSome ?_)
    rw [compound_union]
    refine Reads.blank (Reads.eatNone (m := fun rules c =>
      compoundBehind rules (if c = true then .unionAll else .union)) (hAll rfl) h)
  | unionAll =>
    refine Reads.take (b := .union) rfl (fun t ht _ => by unfold setOperator?; rw [ht]) (hSome ?_)
    rw [compound_union]
    refine Reads.blank (Reads.eat (m := fun rules c =>
      compoundBehind rules (if c = true then .unionAll else .union)) rfl ?_)
    exact (h.mono (Nat.le_succ _) le_rfl).blank
  | intersect =>
    refine Reads.take (b := .intersect) rfl (fun t ht _ => by unfold setOperator?; rw [ht])
      (hSome ?_)
    rw [compound_other (by simp)]
    exact h.blank
  | except =>
    refine Reads.take (b := .except) rfl (fun t ht _ => by unfold setOperator?; rw [ht]) (hSome ?_)
    rw [compound_other (by simp)]
    exact h.blank

theorem tail_compound (h : Shown (k + 1) .body body 15 P b gs)
    (hAll : o = .union → ∀ ks, P ks → first ks ≠ .keyword .ALL) :
    Tail k Print.compound.option (fun rules => entry setOperator? (Grammar.compound rules)) 15 15
      (some (o, b)) (.blank :: (o.row ++ .blank :: gs)) where
  row := by rw [← h.row]; rfl
  legal := by
    have hRow : Script.Legal o.row := by cases o <;> simp [SetOperator.row]
    simpa [h.legal] using hRow
  leads := by
    refine stops_blank ?_
    cases o <;> exact stops_cons rfl le_rfl
  reads := Reads.blank (Reads.compound (fun ho => h.leads.imp (hAll ho))
    (h.reads.map fun y hy => congrArg (Prod.mk o) hy))
  detached := Script.detached_cons rfl

/-- A body with a set operator in front of it is written as it is read. -/
theorem Known.compound (h : Known n) :
    FaithfulEntry n k .compound setOperator? compound 15 := by
  intro s hs
  refine After.take (fun t rest o hTokens ho => ?_) fun _ => .pure nofun
  have hBody : ∀ (o : SetOperator) (s₁ : State), s₁.scope = s.scope → Room n (k + 1) s₁ →
      (o = .union → s₁.current.kind ≠ .keyword .ALL) →
      After (compoundBehind (.upTo n) o) s₁ fun x s' => Legible Print.compound.option
        (Tail k Print.compound.option (fun rules => entry setOperator? (Grammar.compound rules)) 15
          15 (some x)) (some x) s s' := by
    intro o s₁ hScope hs₁ hAll
    refine After.imp (After.made (h.body s₁ hs₁)) ?_
    rintro _ s' ⟨b, rfl, hInner⟩
    refine hInner.made (q := Print.compound.option) (f := fun b => some (o, b)) hScope rfl
      fun gs hgs => ⟨_, tail_compound hgs fun ho ks hks => ?_⟩
    rw [hks.1]
    exact hAll ho
  have hTaken := hs.take hTokens
  refine After.map (After.imp ?_ fun x s' hx _ hSome => Option.some.inj hSome ▸ hx)
  by_cases hUnion : o = .union
  · subst hUnion
    refine After.of_eq (congrFun compound_union _) ?_
    refine After.eat
      (f := fun c => compoundBehind (.upTo n) (if c = true then .unionAll else .union))
      (fun u rest' hTokens' _ => ?_) fun hAll => ?_
    · exact hBody .unionAll _ rfl ((hTaken.take hTokens').mono (Nat.le_succ _)) nofun
    · exact hBody .union _ rfl hTaken fun _ => hTaken.current_ne hAll (by simp) (by simp)
  · refine After.of_eq (congrFun (compound_other hUnion) _) ?_
    exact hBody o _ rfl hTaken fun h => absurd h hUnion

end Compound

theorem folds_bodies : Folds Print.body Print.compound Print.bodies .single
    fun left entry => .compound left entry.1 entry.2 := by
  refine ⟨fun _ => rfl, fun _ => rfl, fun _ _ => rfl, fun _ _ => rfl,
    fun x y => congrArg Bodies.single, fun a b x y hab hxy => ?_⟩
  obtain ⟨ho, hBody⟩ := Prod.mk.inj hxy
  simp_all [Like, Erasable.erase, Bodies.erase]

/-- Bodies with set operators between them are written as they are read. -/
theorem Known.bodies (h : Known n) : Faithful n k .bodies bodies 16 StartsBody := by
  have hChain := h.compound.chain (k := k) (by decide : 15 ≤ 16) setOperator?_none
  exact (h.body.pair hChain).map folds_bodies.prints

/-! ## Tables in front -/

def Print.commonTable : Print CommonTable where
  row t := .name t.name :: (columnsRow t.columns ++
    ([.blank, .keyword .AS, .blank, .symbol .leftParen] ++ (t.query.row ++ [.symbol .rightParen])))
  nodes t := t.query.nodes

theorem commonTable_eq : commonTable = fun rules => Parse.name .table >>= fun m =>
    optionalColumnList >>= fun columns => expectKeyword .AS >>= fun _ =>
      expect .leftParen >>= fun _ =>
      CommonTable.mk m columns <$> closed rules.select := by
  funext rules
  simp only [commonTable, closed, map_eq_pure_bind, bind_assoc, pure_bind]

theorem shown_commonTable {m : String} {columns : List String} {query : Select} {gs : Script}
    {P : List TokenKind → Prop} (hm : IsName m) (hColumns : ShownColumns (k + 1) columns)
    (h : Shown (k + 1) Print.select.closed (fun rules => closed rules.select) 0 P query gs) :
    Shown k .commonTable commonTable 0 (fun ks => first ks = wordKind m) ⟨m, columns, query⟩
      (.name m :: (columnsRow columns ++ .blank :: .keyword .AS :: .blank :: .symbol .leftParen ::
        gs)) where
  row := by rw [← h.row]; rfl
  legal := by
    have hRest : Script.Legal (.blank :: .keyword .AS :: .blank :: .symbol .leftParen :: gs) := by
      simpa using h.legal
    have hDetached :
      Script.Detached (.blank :: .keyword .AS :: .blank :: .symbol .leftParen :: gs) :=
      Script.detached_cons rfl
    rw [Script.legal_cons_detached (hColumns.detached.append hDetached)]
    exact ⟨hm, hColumns.legal.append hRest hDetached⟩
  leads _ _ := rfl
  reads := by
    rw [commonTable_eq]
    refine Reads.name hm
      (Reads.bindFirst hColumns.reads (stops_blank (stops_cons rfl (by decide))) ?_)
    intro cs hcs
    refine Reads.blank (Reads.expectKeyword (Reads.blank (Reads.expect ?_)))
    have hQuery : Reads (k + 3) (fun rules => closed rules.select) gs
        (Print.commonTable.marks ⟨m, columns, query⟩) 0 (Like .spans query) :=
      h.reads.mono (by omega) le_rfl
    refine hQuery.map fun q hq => ?_
    have hNames : columns.map id = cs.map id := hcs
    simp_all [Like, Erasable.erase, CommonTable.erase, Erasure.spans]

/-- A table in front of a query is written as it is read. -/
theorem Known.commonTable (h : Known n) : Faithful n k .commonTable commonTable 0 Starts := by
  intro s hs
  refine After.of_eq (congrFun commonTable_eq _) ?_
  refine After.name hs fun t rest m hTokens hm hKind => ?_
  have hTaken := hs.take hTokens
  refine After.bind (After.optionalColumnList hTaken) ?_
  rintro columns s₁ ⟨hScope, hColumns⟩ hMoves
  refine After.expectKeyword fun u rest₁ hTokens₁ _ => After.expect fun v rest₂ hTokens₂ _ => ?_
  have hRoom := (((hTaken.moves hMoves).take hTokens₁).take hTokens₂).mono (by omega : 1 ≤ k + 3)
  refine After.imp (After.made (h.select.closed le_rfl _ hRoom)) ?_
  rintro _ s₂ ⟨query, rfl, hInner⟩
  refine hInner.made (f := CommonTable.mk m columns) hScope rfl fun gs hgs => ?_
  have hShown := shown_commonTable hm hColumns (hgs.mono (by omega : 1 ≤ k + 1) le_rfl)
  refine ⟨_, hShown.imp fun ks hks => ?_⟩
  rw [Starts, State.current_cons hTokens, hKind, hks]

/-! ## Order and limit -/

theorem nullPlacement_eq : nullPlacement = eatKeyword .NULLS >>= fun c =>
    if c = true then eatKeyword .FIRST >>= fun d => if d = true then pure (some .first)
      else expectKeyword .LAST >>= fun _ => pure (some .last)
    else pure none := rfl

theorem direction_eq : direction = eatKeyword .DESC >>= fun c =>
    if c = true then pure .descending else eatKeyword .ASC >>= fun _ => pure .ascending := rfl

instance : Erasable Direction := ⟨fun _ => id⟩

instance : Erasable NullPlacement := ⟨fun _ => id⟩

/-- Where missing values stand, behind a blank. -/
def placementRow (placement : Option NullPlacement) : Script :=
  (placement.map fun p => .blank :: p.row).getD []

/-- A direction and where missing values stand. -/
def Print.ordering : Print (Direction × Option NullPlacement) where
  row x := .blank :: .keyword x.1.word :: placementRow x.2
  nodes _ := []

theorem Reads.nullPlacement (placement : Option NullPlacement) :
    Reads k (fun _ => nullPlacement) (placementRow placement) [] 9 (· = placement) := by
  simp only [nullPlacement_eq]
  cases placement with
  | none =>
    exact Reads.eatElse (leads_ne (by decide)) (Reads.pure rfl)
  | some placement =>
    cases placement with
    | first =>
      exact Reads.blank (Reads.eatThen rfl (Reads.blank (Reads.eatThen rfl (Reads.pure rfl))))
    | last =>
      refine Reads.blank (Reads.eatThen rfl (Reads.blank (Reads.eatElse ?_ ?_)))
      · exact fun _ _ hKind => nomatch hKind
      · exact Reads.expectKeyword (Reads.pure rfl)

theorem tail_ordering (x : Direction × Option NullPlacement) :
    Tail k .ordering (fun _ => both direction nullPlacement) 7 9 x (Print.ordering.row x) where
  row := rfl
  legal := by
    obtain ⟨direction, placement⟩ := x
    rcases placement with - | (- | -) <;>
      simp [Print.ordering, placementRow, NullPlacement.row]
  leads := by
    obtain ⟨direction, placement⟩ := x
    cases direction <;> exact stops_blank (stops_cons rfl le_rfl)
  reads := by
    obtain ⟨direction, placement⟩ := x
    have hPlacement : ∀ j, Reads j (fun _ => (direction, ·) <$> nullPlacement)
        (placementRow placement) [] 9 (Like .spans (direction, placement)) := fun j =>
      (Reads.nullPlacement placement).map fun p hp => by rw [hp]; rfl
    have hBoth : (fun _ : Rules => both Grammar.direction nullPlacement) = fun _ =>
        eatKeyword .DESC >>= fun c => if c = true then Prod.mk .descending <$> nullPlacement
          else eatKeyword .ASC >>= fun _ => Prod.mk .ascending <$> nullPlacement := by
      funext _
      simp only [both, direction_eq, bind_assoc]
      refine bind_congr fun c => ?_
      cases c <;> rfl
    rw [hBoth]
    refine Reads.blank ?_
    cases direction with
    | descending => exact Reads.eatThen rfl (hPlacement _)
    | ascending =>
      refine Reads.eatElse (fun _ _ hKind => by cases hKind) ?_
      exact Reads.eat (m := fun _ _ => Prod.mk Direction.ascending <$> nullPlacement) rfl
        (hPlacement _)
  detached := Script.detached_cons rfl

theorem After.scope_nullPlacement : After nullPlacement s fun _ s' => s'.scope = s.scope := by
  refine After.eatIte (fun t rest _ _ => ?_) fun _ => .pure rfl
  refine After.eatIte (fun u rest' _ _ => .pure rfl) fun _ => ?_
  exact After.expectKeyword fun v rest'' _ _ => .pure rfl

theorem After.scope_direction : After direction s fun _ s' => s'.scope = s.scope := by
  refine After.eatIte (fun t rest _ _ => .pure rfl) fun _ => ?_
  exact After.eat (f := fun _ => Pure.pure Direction.ascending) (fun _ _ _ _ => .pure rfl)
    fun _ => .pure rfl

/-- A direction is written also where it was left out. -/
theorem faithful_ordering :
    FaithfulTail n k .ordering (fun _ => both direction nullPlacement) 7 9 := by
  intro s _
  refine After.scope_direction.bind fun d s₁ hScope _ => ?_
  refine After.scope_nullPlacement.bind fun p s₂ hScope' _ => .pure fun _ => ?_
  exact ⟨⟨_, tail_ordering (d, p)⟩, (hScope'.trans hScope).symm⟩

def Print.orderTerm : Print OrderTerm where
  row t := t.key.row ++ Print.ordering.row (t.direction, t.nulls)
  nodes t := t.key.nodes

/-- A key of a sort is written as it is read. -/
theorem Known.orderTerm (h : Known n) : Faithful n k .orderTerm orderTerm 9 Opens := by
  have hPair := ((h.disjunction (k := k)).pair faithful_ordering).map (q := .orderTerm)
    (f := fun x => ⟨x.1, x.2.1, x.2.2⟩) ⟨fun _ => rfl, fun x => (List.append_nil _).symm, ?_⟩
  · have hTerm : Grammar.orderTerm = fun rules => (fun x => OrderTerm.mk x.1 x.2.1 x.2.2) <$>
        both (Grammar.expr rules) (both direction nullPlacement) := by
      funext rules
      simp only [Grammar.orderTerm, both, map_eq_pure_bind, bind_assoc, pure_bind]
    rw [hTerm]
    exact hPair
  · rintro ⟨x, d, p⟩ ⟨y, d', p'⟩ hLike
    obtain ⟨hKey, hOrdering⟩ := Prod.mk.inj hLike
    obtain ⟨hDirection, hNulls⟩ := Prod.mk.inj hOrdering
    simp_all [Like, Erasable.erase, OrderTerm.erase]

def Print.limit : Print Limit := ⟨Limit.row, Limit.nodes⟩

section Limit

variable {x y : Expr} {gs hs : Script} {P R : List TokenKind → Prop}

theorem tail_noLimit : Tail k .limit limit 17 19 .none [] where
  row := rfl
  legal := Script.legal_nil
  leads := stops_nil (by decide)
  reads := by
    exact Reads.eatElse (leads_ne (by decide)) (Reads.pure rfl)
  detached := Script.detached_nil

theorem tail_first (h : Shown (k + 1) .expr expr 7 P x gs) :
    Tail k .limit limit 17 19 (.first x) (.blank :: .keyword .LIMIT :: .blank :: gs) where
  row := by rw [← h.row]; rfl
  legal := by simpa using h.legal
  leads := stops_blank (stops_cons rfl le_rfl)
  reads := by
    have hReads := h.reads.mono le_rfl (by decide : 7 ≤ 19)
    refine Reads.blank (Reads.eatThen rfl (hReads.blank.bindEnd fun z hz => ?_))
    refine Reads.eatElse (leads_ne (by decide)) (Reads.eatElse (leads_ne (by decide)) ?_)
    exact Reads.pure (congrArg Limit.first hz)
  detached := Script.detached_cons rfl

theorem tail_window (h : Shown (k + 1) .expr expr 7 P x gs)
    (h' : Shown (k + 1) .expr expr 7 R y hs) :
    Tail k .limit limit 17 19 (.window x y)
      (.blank :: .keyword .LIMIT :: .blank :: (gs ++ .blank :: .keyword .OFFSET :: .blank :: hs))
        where
  row := by
    have hFirst : x.row = gs := h.row
    have hSecond : y.row = hs := h'.row
    rw [← hFirst, ← hSecond]
    rfl
  legal := by simpa [h.legal] using h'.legal
  leads := stops_blank (stops_cons rfl le_rfl)
  reads := by
    have hMarks : Print.limit.marks (.window x y) = Print.expr.marks x ++ Print.expr.marks y :=
      paramMarks_append _ _
    have hReads := h'.reads.mono (Nat.le_succ _) (by decide : 7 ≤ 19)
    rw [hMarks]
    refine Reads.blank (Reads.eatThen rfl (h.reads.blank.bind (stops_blank (stops_cons rfl ?_)) ?_))
    · decide
    · intro z hz
      refine Reads.blank (Reads.eatThen rfl (hReads.blank.map fun w hw => ?_))
      exact congrArg₂ Limit.window hz hw
  detached := Script.detached_cons rfl

theorem marks_window : Print.limit.marks (.window x y) = Print.expr.marks x ++ Print.expr.marks y :=
  paramMarks_append _ _

/-- The nodes of a limit that are plain, and what this says of its expressions. -/
theorem okay_window (h : Print.limit.Okay (.window x y)) :
    Print.expr.Okay x ∧ Print.expr.Okay y ∧ Print.limit.marks (.window x y) = [] := by
  have hNodes : ∀ n ∈ .limit (.window x y) :: (x.nodes ++ y.nodes), n.Plain := h
  obtain ⟨hNode, hRest⟩ := List.forall_mem_cons.mp hNodes
  obtain ⟨hFirst, hSecond⟩ := Print.okay_append hRest
  exact ⟨hFirst, hSecond, hNode⟩

/-- A limit is written with `OFFSET`, also where it was read with a comma. -/
theorem Known.limit (h : Known n) : FaithfulTail n k .limit limit 17 19 := by
  intro s hs
  refine After.eatIte (fun t rest hTokens _ => ?_) fun _ => .pure fun _ => ?_
  · have hTaken := hs.take hTokens
    refine After.bind (h.disjunction _ hTaken) fun x s₁ hx hMoves => ?_
    have hRoom := hTaken.moves hMoves
    have hSecond :
      ∀ {u : Token} {rest'}, s₁.tokens = u :: rest' → Room n (k + 1) (s₁.take u rest') :=
      fun hTokens' => (hRoom.take hTokens').mono (Nat.le_succ _)
    refine After.eatIte (fun u rest' hTokens' _ => ?_) fun _ => ?_
    · refine After.bind (h.disjunction _ (hSecond hTokens')) fun y s₂ hy _ => .pure fun hOkay => ?_
      obtain ⟨hOkayFirst, hOkaySecond, -⟩ := okay_window hOkay
      obtain ⟨⟨gs, hShown⟩, hFollows⟩ := hx hOkayFirst
      obtain ⟨⟨hs', hShown'⟩, hFollows'⟩ := hy hOkaySecond
      exact ⟨⟨_, tail_window hShown hShown'⟩, marks_window ▸ hFollows.append hFollows'⟩
    refine After.eatIte (fun u rest' hTokens' _ => ?_) fun _ => .pure fun hOkay => ?_
    · refine After.bind (h.disjunction _ (hSecond hTokens')) fun y s₂ hy _ => .pure fun hOkay => ?_
      -- the parts change places, which shows in no parameter, as there is none
      obtain ⟨hOkaySecond, hOkayFirst, hNone⟩ := okay_window hOkay
      obtain ⟨⟨gs, hShown⟩, hFollows⟩ := hx hOkayFirst
      obtain ⟨⟨hs', hShown'⟩, hFollows'⟩ := hy hOkaySecond
      refine ⟨⟨_, tail_window hShown' hShown⟩, ?_⟩
      obtain ⟨hSecondNone, hFirstNone⟩ := List.append_eq_nil_iff.mp (marks_window ▸ hNone)
      rw [hFirstNone] at hFollows
      rw [hSecondNone] at hFollows'
      rw [hNone]
      exact Eq.trans (show s.scope = s₁.scope from hFollows) hFollows'
    · obtain ⟨⟨gs, hShown⟩, hFollows⟩ := hx fun n hn => hOkay n (List.mem_cons_of_mem _ hn)
      exact ⟨⟨_, tail_first hShown⟩, hFollows⟩
  · exact ⟨⟨_, tail_noLimit⟩, .refl _⟩

end Limit

/-! ## Whole queries -/

/-- The parts of a query behind the tables in front of it. -/
abbrev QueryParts := (Bodies × List OrderTerm) × Limit

def Print.queryParts : Print QueryParts :=
  (Print.bodies.pair (Print.orderTerm.listed .ORDER .BY)).pair .limit

/-- Reads the parts of a query behind the tables in front of it. -/
def queryParts (rules : Rules) : Parse QueryParts :=
  both (both (bodies rules) (Parse.listed .ORDER .BY (orderTerm rules))) (limit rules)

theorem Known.queryParts (h : Known n) : Faithful n k .queryParts queryParts 19 StartsBody := by
  have hOrder : FaithfulTail n k (Print.orderTerm.listed .ORDER .BY)
      (fun rules => Parse.listed .ORDER .BY (Grammar.orderTerm rules)) 16 17 :=
    (h.orderTerm.mono le_rfl (by decide)).listed le_rfl (by decide) (by decide)
  exact (h.bodies.pair hOrder).pair h.limit

/-- Reads the tables in front of a query, and whether they may refer to each other. -/
def withTables (rules : Rules) (hasTables : Bool) : Parse (Bool × List CommonTable) :=
  if hasTables = true then eatKeyword .RECURSIVE >>= fun c =>
    Prod.mk c <$> separated (Grammar.commonTable rules)
  else pure (false, [])

/-- Reads a query behind the tables in front of it. -/
def selectBehind (rules : Rules) (tables : Bool × List CommonTable) : Parse (Span → Select) :=
  (fun x span => ⟨tables.1, tables.2, x.1.1, x.1.2, x.2, span⟩) <$> queryParts rules

theorem select_eq : select = fun rules => spanned (eatKeyword .WITH >>= fun c =>
    withTables rules c >>= selectBehind rules) := by
  funext rules
  refine congrArg spanned (bind_congr fun c => ?_)
  cases c with
  | true =>
    simp only [withTables, selectBehind, queryParts, both, ↓reduceIte, map_eq_pure_bind, bind_assoc,
      pure_bind]
    rfl
  | false => rfl

/-- The span of a query is the one from its first token to the last one. -/
theorem span_of_select {rules : Rules} : ((select rules).run s).1.span =
    ((Parse.spanFrom s.current.span).run ((select rules).run s).2).1 := by
  rw [congrFun select_eq rules]
  rfl

theorem Reads.spanned {α : Type} {item : Rules → Parse (Span → α)} {gs : Script}
    {ms : List ParamMark} {level : Nat} {Q : α → Prop}
    (h : Reads k item gs ms level fun f => ∀ span, Q (f span)) :
    Reads k (fun rules => Parse.spanned (item rules)) gs ms level Q := by
  refine Reads.current fun t => ?_
  exact h.bindEnd fun f hf => Reads.spanFrom fun span => Reads.pure (hf span)

theorem After.spanned {α : Type} {item : Parse (Span → α)} {Q : α → State → Prop}
    (h : After item s fun f s' => ∀ span, Q (f span) s') : After (Parse.spanned item) s Q :=
  After.look (h.bind fun _ _ hf _ => After.look (.pure (hf _)))

theorem rowAll_tables (tables : List CommonTable) :
    commaRow (CommonTable.rowAll tables) = Print.commonTable.commas.row tables := by
  have hMap : CommonTable.rowAll tables = tables.map Print.commonTable.row := by
    induction tables with
    | nil => rfl
    | cons t tables ih =>
      obtain ⟨m, columns, query⟩ := t; rw [CommonTable.rowAll, ih, List.map_cons]; rfl
  rw [hMap]
  rfl

theorem nodesAll_tables (tables : List CommonTable) :
    CommonTable.nodesAll tables = Print.commonTable.commas.nodes tables := by
  induction tables with
  | nil => rfl
  | cons t tables ih => obtain ⟨m, columns, query⟩ := t; rw [CommonTable.nodesAll, ih]; rfl

theorem rowAll_orderTerms (terms : List OrderTerm) :
    commaRow (OrderTerm.rowAll terms) = Print.orderTerm.commas.row terms := by
  have hMap : OrderTerm.rowAll terms = terms.map Print.orderTerm.row := by
    induction terms with
    | nil => rfl
    | cons t terms ih =>
      obtain ⟨key, direction, nulls⟩ := t; rw [OrderTerm.rowAll, ih, List.map_cons]; rfl
  rw [hMap]
  rfl

theorem nodesAll_orderTerms (terms : List OrderTerm) :
    OrderTerm.nodesAll terms = Print.orderTerm.commas.nodes terms := by
  induction terms with
  | nil => rfl
  | cons t terms ih => obtain ⟨key, direction, nulls⟩ := t; rw [OrderTerm.nodesAll, ih]; rfl

section Whole

variable {x : QueryParts} {r : Bool} {tables : List CommonTable} {span : Span} {gs hs : Script}
  {P R : List TokenKind → Prop}

/-- The query that has some parts. -/
def QueryParts.select (r : Bool) (tables : List CommonTable) (x : QueryParts) (span : Span) :
    Select := ⟨r, tables, x.1.1, x.1.2, x.2, span⟩

variable (r tables span) in
theorem row_queryParts : (QueryParts.select r tables x span).row = (if tables.isEmpty then [] else
    .keyword .WITH :: .blank :: (optionalWord r .RECURSIVE ++
      (Print.commonTable.commas.row tables ++ [.blank]))) ++ Print.queryParts.row x := by
  obtain ⟨⟨bodies, orderBy⟩, limit⟩ := x
  simp [QueryParts.select, Select.row, rowAll_tables, rowAll_orderTerms, Print.queryParts,
    Print.pair, Print.listed, Print.bodies, Print.limit]

variable (r tables span) in
theorem nodes_queryParts : (QueryParts.select r tables x span).nodes =
    Print.commonTable.commas.nodes tables ++ Print.queryParts.nodes x := by
  obtain ⟨⟨bodies, orderBy⟩, limit⟩ := x
  simp [QueryParts.select, Select.nodes, nodesAll_tables, nodesAll_orderTerms, Print.queryParts,
    Print.pair, Print.listed, Print.bodies, Print.limit]

variable (r tables span) in
theorem marks_queryParts : Print.select.marks (QueryParts.select r tables x span) =
    Print.commonTable.commas.marks tables ++ Print.queryParts.marks x :=
  (congrArg paramMarks (nodes_queryParts r tables span)).trans (paramMarks_append _ _)

theorem like_queryParts {y : QueryParts} {tables' : List CommonTable} {span' : Span}
    (h : Like .spans tables tables') (h' : Like .spans x y) :
    Like .spans (QueryParts.select r tables x span) (QueryParts.select r tables' y span') := by
  obtain ⟨⟨bodies, orderBy⟩, limit⟩ := x
  obtain ⟨⟨bodies', orderBy'⟩, limit'⟩ := y
  simp_all [Like, Erasable.erase, QueryParts.select, Select.erase, Erasure.spans]

theorem shown_bareSelect (h : Shown k .queryParts queryParts 19 P x gs)
    (hWith : ∀ ks, P ks → first ks ≠ .keyword .WITH) :
    Shown k .select select 19 P (QueryParts.select false [] x span) gs where
  row := by
    rw [← h.row]
    exact row_queryParts false [] span
  legal := h.legal
  leads := h.leads
  reads := by
    have hMarks : Print.select.marks (QueryParts.select false [] x span) =
        Print.queryParts.marks x := marks_queryParts false [] span
    rw [select_eq, hMarks]
    refine Reads.spanned ?_
    refine Reads.eatNone (m := fun rules c => withTables rules c >>= selectBehind rules)
      (h.leads.imp hWith) ?_
    simp only [withTables, Bool.false_eq_true, ↓reduceIte, pure_bind]
    exact h.reads.map fun y hy span' => like_queryParts rfl hy

theorem shown_withSelect (hSome : tables ≠ [])
    (h : Shown (k + 1) Print.commonTable.commas
    (fun rules => separated (Grammar.commonTable rules)) 11 P
      tables hs)
    (hRecursive : r = false → ∀ ks, P ks → first ks ≠ .keyword .RECURSIVE)
    (h' : Shown (k + 1) .queryParts queryParts 19 R x gs)
    (hBody : ∀ ks, R ks → closes (first ks) = 19) :
    Shown k .select select 19 (fun ks => first ks = .keyword .WITH)
      (QueryParts.select r tables x span)
      (.keyword .WITH :: .blank :: (optionalWord r .RECURSIVE ++ (hs ++ .blank :: gs))) where
  row := by
    rw [← h.row, ← h'.row]
    refine (row_queryParts r tables span).trans ?_
    simp [hSome]
  legal := by
    cases r <;> simp [optionalWord, h.legal, h'.legal]
  leads _ _ := rfl
  reads := by
    have hStops : Stops 11 19 (.blank :: gs) :=
      stops_blank (h'.leads.imp fun ks hks => by rw [hBody ks hks]; decide)
    have hRest : ∀ j, k + 1 ≤ j → Reads j (fun rules =>
        (Prod.mk r <$> separated (Grammar.commonTable rules)) >>= selectBehind rules)
        (hs ++ .blank :: gs)
        (Print.commonTable.commas.marks tables ++ Print.queryParts.marks x) 19
        fun f => ∀ span', Like .spans (QueryParts.select r tables x span) (f span') := by
      intro j hj
      refine ((h.reads.mono hj le_rfl).map (f := Prod.mk r) (R := fun a =>
        ∃ tables', a = (r, tables') ∧ Like .spans tables tables') ?_).bind hStops ?_
      · exact fun tables' hTables => ⟨tables', rfl, hTables⟩
      · rintro _ ⟨tables', rfl, hTables⟩
        exact ((h'.reads.mono hj le_rfl).blank).map fun y hy span' => like_queryParts hTables hy
    rw [select_eq, marks_queryParts]
    refine Reads.spanned (Reads.eat (m := fun rules c => withTables rules c >>= selectBehind rules)
      rfl (Reads.blank ?_))
    simp only [withTables, ↓reduceIte, bind_assoc]
    cases r with
    | true => exact Reads.eat rfl (Reads.blank (hRest _ (by omega)))
    | false => exact Reads.eatNone ((h.leads.append hStops).imp (hRecursive rfl)) (hRest _ le_rfl)

end Whole

theorem Known.commonTables (h : Known n) :
    Faithful n k Print.commonTable.commas
      (fun rules => separated (Grammar.commonTable rules)) 11 Starts :=
  (h.commonTable.mono le_rfl (Nat.zero_le 10)).separated le_rfl

/-- A query is written as it is read. -/
theorem Known.query (h : Known n) : Faithful n k .select Grammar.select 19 Starts := by
  intro s hs
  refine After.of_eq (congrFun select_eq _) (After.spanned ?_)
  refine After.eat (f := fun c => withTables (.upTo n) c >>= selectBehind (.upTo n))
    (fun t rest hTokens hKind => ?_) fun hWith => ?_
  · have hTaken := hs.take hTokens
    have hStart : Starts s = fun ks => first ks = .keyword .WITH := by
      funext ks
      rw [Starts, State.current_cons hTokens, hKind]
    have hTables : ∀ (r : Bool) (s₀ : State), s₀.scope = s.scope → Room n (k + 1) s₀ →
        (r = false → s₀.current.kind ≠ .keyword .RECURSIVE) →
        After (Prod.mk r <$> separated (Grammar.commonTable (.upTo n)) >>= selectBehind (.upTo n))
        s₀
          fun f s' =>
            ∀ span, Legible .select (Shown k .select Grammar.select 19 (Starts s) (f span))
            (f span) s s' := by
      intro r s₀ hScope hs₀ hRecursive
      have hSome : After (Prod.mk r <$> separated (Grammar.commonTable (.upTo n))) s₀ fun x s' =>
          x.1 = r ∧ x.2 ≠ [] ∧ Legible Print.commonTable.commas (Shown (k + 1)
            Print.commonTable.commas (fun rules => separated (Grammar.commonTable rules)) 11
              (Starts s₀) x.2)
            x.2 s₀ s' :=
        fun hError => ⟨rfl, List.cons_ne_nil _ _, h.commonTables s₀ hs₀ hError⟩
      refine hSome.bind ?_
      rintro ⟨r, tables⟩ s₁ ⟨rfl, hNotNil, hTables⟩ hMoves
      refine After.imp (After.made (h.queryParts s₁ (hs₀.moves hMoves))) ?_
      rintro _ s₂ ⟨x, rfl, hParts⟩ span hOkay
      obtain ⟨hOkayFirst, hOkayRest⟩ := Print.okay_append
        (nodes_queryParts r tables span ▸ show ∀ n ∈ Select.nodes _, n.Plain from hOkay)
      obtain ⟨⟨hs', hShown⟩, hFollows⟩ := hTables hOkayFirst
      obtain ⟨⟨gs, hShown'⟩, hFollows'⟩ := hParts hOkayRest
      refine ⟨⟨_, (shown_withSelect hNotNil hShown (fun hr ks hks => ?_)
        hShown' fun ks hks => hks.2).imp fun ks hks => ?_⟩, ?_⟩
      · rw [hks]
        exact hRecursive hr
      · rw [hStart]
        exact hks
      · rw [← hScope]
        exact marks_queryParts r tables span ▸ hFollows.append hFollows'
    simp only [withTables, ↓reduceIte, bind_assoc]
    refine After.eat (fun u rest' hTokens' _ => ?_) fun hRecursive => ?_
    · exact hTables true _ rfl ((hTaken.take hTokens').mono (Nat.le_succ _)) (by simp)
    · exact hTables false _ rfl hTaken fun _ => hTaken.current_ne hRecursive (by simp) (by simp)
  · have hCurrent := hs.current_ne hWith (by simp) (by simp)
    have hBare : withTables (.upTo n) false >>= selectBehind (.upTo n) =
        selectBehind (.upTo n) (false, []) := rfl
    refine After.of_eq hBare (After.imp (After.made (h.queryParts s hs)) ?_)
    rintro _ s' ⟨x, rfl, hParts⟩ span
    refine hParts.made (f := fun x => QueryParts.select false [] x span) rfl ?_ fun gs hgs => ?_
    · exact nodes_queryParts false [] span
    · refine ⟨gs, (shown_bareSelect hgs fun ks hks => ?_).imp fun ks hks => hks.1⟩
      rw [hks.1]
      exact hCurrent

/-! ## The knot -/

/-- What is read back is so behind a token where the grammar comes back to it. -/
theorem Shown.again {α : Type} [Erasable α] {p : Print α} {m m' : Rules → Parse α} {level : Nat}
    {P : List TokenKind → Prop} {x : α} {gs : Script} (h : Shown 0 p m' level P x gs)
    (hAgain : ∀ depth, m (.upTo (depth + 1)) = m' (.upTo depth)) : Shown 1 p m level P x gs :=
  ⟨h.row, h.legal, h.leads, h.reads.again hAgain⟩

/-- What the grammar comes back to is read back behind a token, if it is so one time fewer. -/
theorem Faithful.again {α : Type} [Erasable α] {p : Print α} {m m' : Rules → Parse α} {level : Nat}
    {P : State → List TokenKind → Prop} (h : Faithful n 0 p m' level P)
    (hAgain : ∀ depth, m (.upTo (depth + 1)) = m' (.upTo depth)) :
    Faithful (n + 1) 1 p m level P := by
  intro s hs
  have hRoom : Room n 0 s := ⟨Nat.le_of_succ_le_succ hs.length, hs.bare, hs.terminator⟩
  refine After.of_eq (hAgain n) (After.imp (h s hRoom) fun x s' hx => ?_)
  exact hx.made (f := id) rfl rfl fun gs hgs => ⟨gs, hgs.again hAgain⟩

/-- **At every depth the readers of the grammar are read back.** -/
theorem known (n : Nat) : Known n := by
  induction n with
  | zero =>
    have hNone : ∀ {s}, ¬ Room 0 1 s := fun hs => by
      have hLength := hs.length
      omega
    exact ⟨fun _ hs => absurd hs hNone, fun _ hs => absurd hs hNone, fun _ hs => absurd hs hNone⟩
  | succ n ih =>
    exact ⟨ih.disjunction.again fun _ => rfl, ih.query.again fun _ => rfl,
      ih.clause.again fun _ => rfl⟩

end SqlKit.Grammar
