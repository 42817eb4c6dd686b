import SqlKit.Proofs.Simulation.Expression

/-!
# Like texts read as queries

The readers of queries keep every simulation, and so do the readers that come back to themselves at
any depth.
-/

namespace SqlKit.Grammar

open Grammar.Similar

variable {e : Erasure} {S : Simulation e} {rules : Rules}

/-! ## Sources -/

theorem similar_parenthesizedSource (h : rules.Keep S) :
    Similar S (Like e) (parenthesizedSource rules) (parenthesizedSource rules) := by
  refine similar_startsQuery.ite ?_ ?_
  · refine h.select.bind fun _ _ hQuery => (expect (by simp)).bind fun _ _ _ =>
      asName?.bind fun _ _ hName => pure ?_
    simp_all [Like, Erasable.erase, Source.erase]
  · refine h.joinClause.bind fun _ _ hClause => (expect (by simp)).bind fun _ _ _ => pure ?_
    simp_all [Like, Erasable.erase, Source.erase]

theorem similar_source (h : rules.Keep S) : Similar S (Like e) (source rules) (source rules) := by
  refine (eat (by simp)).ite (similar_parenthesizedSource h) ?_
  refine (qualifiedName .table).bind fun _ _ hTable => asName?.bind fun _ _ hName => pure ?_
  simp_all [Like, Erasable.erase, Source.erase]

theorem similar_joinAfterKind (natural : Bool) (kind : JoinKind) :
    Similar S Eq (joinAfterKind natural kind) (joinAfterKind natural kind) := by
  have hJoin : ∀ outer : Bool, Similar S Eq
      (do Parse.expectKeyword .JOIN; return (⟨natural, kind, outer⟩ : JoinOperator))
      (do Parse.expectKeyword .JOIN; return (⟨natural, kind, outer⟩ : JoinOperator)) :=
    fun outer => (expectKeyword .JOIN).bind fun _ _ _ => pure rfl
  cases kind with
  | left | right | full =>
    refine (eatKeyword .OUTER).bind ?_
    rintro outer _ rfl
    exact hJoin outer
  | _ => exact hJoin false

theorem similar_joinOperator (start : JoinStart) :
    Similar S Eq (joinOperator start) (joinOperator start) := by
  cases start with
  | comma | join => exact pure rfl
  | natural =>
    refine (takeKind ⟨fun _ => rfl, fun _ _ => rfl, rfl, rfl⟩).bind ?_
    rintro kind _ rfl
    exact similar_joinAfterKind true _
  | kind kind => exact similar_joinAfterKind false kind

theorem similar_joinConstraint (h : rules.Keep S) :
    Similar S (Like e) (joinConstraint rules) (joinConstraint rules) := by
  refine (eatKeyword .ON).ite ((similar_expr h).bind fun _ _ hCondition => pure ?_)
    ((eatKeyword .USING).ite (columnList.bind fun _ _ hColumns => pure ?_) (pure rfl))
  · simp_all [Like, Erasable.erase, JoinConstraint.erase]
  · simp_all [Like, Erasable.erase, JoinConstraint.erase]

theorem similar_joinedSource (h : rules.Keep S) (start : JoinStart) :
    Similar S (Like e) (joinedSource rules start) (joinedSource rules start) := by
  refine (similar_joinOperator start).bind ?_
  rintro operator _ rfl
  refine (similar_source h).bind fun _ _ hSource => (similar_joinConstraint h).bind
    fun _ _ hConstraint => pure ?_
  simp_all [Like, Erasable.erase, JoinedSource.erase]

theorem similar_joinClause (h : rules.Keep S) :
    Similar S (Like e) (joinClause rules) (joinClause rules) := by
  have hStart : Token.ByKind joinStart? := ⟨fun _ => rfl, fun _ _ => rfl, rfl, rfl⟩
  refine (similar_source h).bind fun a b hFirst =>
    (chain hStart (similar_joinedSource h)).bind fun xs ys hJoined => pure ?_
  refine like_foldl (fun a b x y hLeft hEntry => ?_) ?_ hJoined
  · simp_all [Like, Erasable.erase, JoinClause.erase, JoinedSource.erase]
  · simp_all [Like, Erasable.erase, JoinClause.erase]

/-! ## Bodies -/

/-- The look for `name.*` goes on only behind a name and a point, so it finds the same on both sides
wherever the statement ends. -/
theorem seesTableStar_congr {s t : State} (hs : S.state s t) :
    (seesTableStar.run s).1 = (seesTableStar.run t).1 := by
  have hFirst : (nameOf? s.current).isSome = (nameOf? t.current).isSome := (seesName hs).1
  rw [seesTableStar_eq, seesTableStar_eq, ← hFirst]
  by_cases hName : (nameOf? s.current).isSome = true
  · have hNext : ¬ s.current.kind.IsEnd := by
      intro hEnd
      rw [nameOf?_of_isEnd hEnd] at hName
      cases hName
    have hDots := (TokenKind.isFixed_symbol (by simp : Symbol.dot ≠ .semicolon)).iff
      (S.kindAt_one hs hNext)
    by_cases hDot : s.kindAt 1 = .symbol .dot
    · have hStars := (TokenKind.isFixed_symbol (by simp : Symbol.star ≠ .semicolon)).iff
        (S.kindAt_two hs hNext (by simp [hDot, TokenKind.IsEnd]))
      have hSame : (s.kindAt 2 == .symbol .star) = (t.kindAt 2 == .symbol .star) := by
        rw [Bool.eq_iff_iff, beq_iff_eq, beq_iff_eq, hStars]
      rw [hDot, hDots.mp hDot, hSame]
    · rw [beq_eq_false_iff_ne.mpr hDot, beq_eq_false_iff_ne.mpr fun h => hDot (hDots.mpr h),
        Bool.and_false, Bool.false_and, Bool.false_and]
  · rw [Bool.eq_false_iff.mpr hName, Bool.false_and, Bool.false_and, Bool.false_and, Bool.false_and]

/-- Of `name.*` the three tokens are taken that were looked at. -/
theorem similar_tableStar {s t : State} (hs : S.state s t)
    (hSees : (seesTableStar.run s).1 = true) :
    Like e (tableStar.run s).1 (tableStar.run t).1 ∧
      S.state (tableStar.run s).2 (tableStar.run t).2 := by
  have hSome : (nameOf? s.current).isSome = true := by
    rw [seesTableStar_eq, Bool.and_eq_true, Bool.and_eq_true] at hSees
    exact hSees.1.1
  have hNext : ¬ s.current.kind.IsEnd := by
    intro hEnd
    rw [nameOf?_of_isEnd hEnd] at hSome
    cases hSome
  obtain ⟨a, as, -, -, ha, -⟩ := S.cons hs hNext
  obtain ⟨u, v, more, rfl, hDot, hStar⟩ := exists_of_seesTableStar ha hSees
  rw [State.current_cons ha] at hSome
  have hTokens : ((Parse.name .table).run s).2.tokens = u :: v :: more := by
    rw [(run_name .table s).2, ha, behindName, if_pos hSome]
  obtain ⟨hName, hAfter⟩ := name .table hs
  -- the point
  obtain ⟨c, cs, d, ds, hc, hd, -, hPoint⟩ :=
    S.cons hAfter (by rw [State.current_cons hTokens]; simp [hDot, TokenKind.IsEnd])
  obtain ⟨rfl, rfl⟩ := List.cons.inj (hTokens.symm.trans hc)
  -- the star
  obtain ⟨c', cs', d', ds', hc', hd', -, hLast⟩ :=
    S.cons hPoint (by rw [State.current_cons rfl]; simp [hStar, TokenKind.IsEnd])
  simp only [tableStar, Parse.run_bind, Parse.run_advance_cons hc, Parse.run_advance_cons hd,
    Parse.run_advance_cons hc', Parse.run_advance_cons hd', Parse.run_pure]
  exact ⟨congrArg ResultColumn.tableStar hName, hLast⟩

theorem similar_tableStarOr {m n : Parse ResultColumn} (h : Similar S (Like e) m n) :
    Similar S (Like e) (tableStarOr m) (tableStarOr n) := by
  intro s t hs
  rw [run_tableStarOr, run_tableStarOr, ← seesTableStar_congr hs]
  split
  · next hSees => exact similar_tableStar hs hSees
  · exact h hs

theorem similar_resultColumn (h : rules.Keep S) :
    Similar S (Like e) (resultColumn rules) (resultColumn rules) := by
  refine (eat (by simp)).ite (pure rfl) (similar_tableStarOr ?_)
  refine (similar_expr h).bind fun _ _ hValue => asName?.bind fun _ _ hName => pure ?_
  simp_all [Like, Erasable.erase, ResultColumn.erase]

theorem similar_valueRow (h : rules.Keep S) :
    Similar S (Like e) (valueRow rules) (valueRow rules) :=
  (expect (by simp)).bind fun _ _ _ => (separated (similar_expr h)).bind fun _ _ hValues =>
    (expect (by simp)).bind fun _ _ _ => pure hValues

theorem similar_distinct : Similar S Eq distinct distinct :=
  (eatKeyword .DISTINCT).ite (pure rfl) ((eatKeyword .ALL).bind fun _ _ _ => pure rfl)

theorem similar_groupBy (h : rules.Keep S) :
    Similar S (Like e) (groupBy rules) (groupBy rules) :=
  (eatKeyword .GROUP).ite
    ((expectKeyword .BY).bind fun _ _ _ => separated (similar_expr h)) (pure rfl)

theorem similar_body (h : rules.Keep S) : Similar S (Like e) (body rules) (body rules) := by
  refine (eatKeyword .VALUES).ite ((separated (similar_valueRow h)).bind fun _ _ hRows => pure ?_)
    ((expectKeyword .SELECT).bind fun _ _ _ => similar_distinct.bind ?_)
  · simp_all [Like, Erasable.erase, Body.erase]
  · rintro distinct _ rfl
    refine (separated (similar_resultColumn h)).bind fun _ _ hColumns =>
      (after (similar_joinClause h)).bind fun _ _ hSource => (after (similar_expr h)).bind
      fun _ _ hCondition => (similar_groupBy h).bind fun _ _ hGroups =>
      (after (similar_expr h)).bind fun _ _ hHaving => pure ?_
    simp_all [Like, Erasable.erase, Body.erase]

theorem similar_compound (h : rules.Keep S) (operator : SetOperator) :
    Similar S (Like e) (compound rules operator) (compound rules operator) := by
  have hBody : ∀ operator : SetOperator, Similar S (Like e)
      (do return (operator, ← body rules)) (do return (operator, ← body rules)) :=
    fun operator => (similar_body h).bind fun _ _ hBody => pure (by
      simp_all [Like, Erasable.erase])
  unfold compound
  split
  · exact (eatKeyword .ALL).ite (hBody .unionAll) (hBody .union)
  · exact hBody operator

theorem similar_bodies (h : rules.Keep S) : Similar S (Like e) (bodies rules) (bodies rules) := by
  have hOperator : Token.ByKind setOperator? := ⟨fun _ => rfl, fun _ _ => rfl, rfl, rfl⟩
  refine (similar_body h).bind fun a b hFirst =>
    (chain hOperator (similar_compound h)).bind fun xs ys hRest => pure ?_
  refine like_foldl (fun a b x y hLeft hEntry => ?_) ?_ hRest
  · simp_all [Like, Erasable.erase, Bodies.erase, Prod.map]
  · simp_all [Like, Erasable.erase, Bodies.erase]

/-! ## Queries -/

theorem similar_commonTable (h : rules.Keep S) :
    Similar S (Like e) (commonTable rules) (commonTable rules) := by
  refine (name .table).bind fun _ _ hName => optionalColumnList.bind fun _ _ hColumns =>
    (expectKeyword .AS).bind fun _ _ _ => (expect (by simp)).bind fun _ _ _ => h.select.bind
    fun _ _ hQuery => (expect (by simp)).bind fun _ _ _ => pure ?_
  simp_all [Like, Erasable.erase, CommonTable.erase]

theorem similar_nullPlacement : Similar S Eq nullPlacement nullPlacement :=
  (eatKeyword .NULLS).ite ((eatKeyword .FIRST).ite (pure rfl)
    ((expectKeyword .LAST).bind fun _ _ _ => pure rfl)) (pure rfl)

theorem similar_direction : Similar S Eq direction direction :=
  (eatKeyword .DESC).ite (pure rfl) ((eatKeyword .ASC).bind fun _ _ _ => pure rfl)

theorem similar_orderTerm (h : rules.Keep S) :
    Similar S (Like e) (orderTerm rules) (orderTerm rules) := by
  refine (similar_expr h).bind fun _ _ hKey => similar_direction.bind ?_
  rintro direction _ rfl
  refine similar_nullPlacement.bind ?_
  rintro nulls _ rfl
  refine pure ?_
  simp_all [Like, Erasable.erase, OrderTerm.erase]

theorem similar_orderBy (h : rules.Keep S) :
    Similar S (Like e) (orderBy rules) (orderBy rules) :=
  (eatKeyword .ORDER).ite
    ((expectKeyword .BY).bind fun _ _ _ => separated (similar_orderTerm h)) (pure rfl)

theorem similar_limit (h : rules.Keep S) : Similar S (Like e) (limit rules) (limit rules) := by
  refine (eatKeyword .LIMIT).ite ((similar_expr h).bind fun _ _ hFirst => (eatKeyword .OFFSET).ite
    ((similar_expr h).bind fun _ _ hSecond => pure ?_) ((eat (by simp)).ite
    ((similar_expr h).bind fun _ _ hSecond => pure ?_) (pure ?_))) (pure rfl)
  · simp_all [Like, Erasable.erase, Limit.erase]
  · simp_all [Like, Erasable.erase, Limit.erase]
  · simp_all [Like, Erasable.erase, Limit.erase]

theorem similar_select (h : rules.Keep S) : Similar S (Like e) (select rules) (select rules) := by
  have hBodies : ∀ (recursive : Bool) (tables tables' : List CommonTable), Like e tables tables' →
      Similar S (fun f g => ∀ a b, Like e a b → Like e (f a) (g b))
        (do
          let bodies ← bodies rules
          let orderBy ← orderBy rules
          let limit ← limit rules
          return fun span => (⟨recursive, tables, bodies, orderBy, limit, span⟩ : Select))
        (do
          let bodies ← bodies rules
          let orderBy ← orderBy rules
          let limit ← limit rules
          return fun span => (⟨recursive, tables', bodies, orderBy, limit, span⟩ : Select)) := by
    intro recursive tables tables' hTables
    refine (similar_bodies h).bind fun _ _ hBodies => (similar_orderBy h).bind fun _ _ hOrder =>
      (similar_limit h).bind fun _ _ hLimit => pure fun _ _ hSpan => ?_
    simp_all [Like, Erasable.erase, Select.erase]
  refine spanned ((eatKeyword .WITH).bind ?_)
  rintro hasTables _ rfl
  cases hasTables with
  | true =>
    refine (eatKeyword .RECURSIVE).bind ?_
    rintro recursive _ rfl
    exact (separated (similar_commonTable h)).bind (hBodies recursive)
  | false => exact hBodies false [] [] rfl

/-! ## The knot -/

/-- The readers keep every simulation, however often they may come back to themselves. -/
theorem keep_upTo (S : Simulation e) (depth : Nat) : (Rules.upTo depth).Keep S := by
  induction depth with
  | zero => exact ⟨pure rfl, pure rfl, pure rfl⟩
  | succ depth ih => exact ⟨similar_expr ih, similar_select ih, similar_joinClause ih⟩

end SqlKit.Grammar
