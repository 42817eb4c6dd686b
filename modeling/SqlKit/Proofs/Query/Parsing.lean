import SqlKit.Proofs.Query.Conditions
import SqlKit.Query.TableQuery

/-!
# Queries over a table are read as what they ask

A query that is narrowed by a predicate is read as one `SELECT` over the table whose `WHERE` is the
conjunction of the conditions that its leaves are read as (`TableQuery.parsesAs_filter`). Rows and
trees are related without the text: the text of the query is read as the tokens of the row of that
`SELECT` (`TableQuery.hasRow_query`), and what is read from this row is the `SELECT` up to places
(`shown_overTable`). The only place in it is its own, as it has neither inner queries nor named
parameters (`Select.eq_overTable`).
-/

namespace SqlKit

open Grammar

/-! ## Queries -/

/-- The conjunction of some conditions. -/
def Conjunction.ofConditions (x : Condition) (xs : List Condition) : Conjunction :=
  xs.foldl .and (.single x)

theorem Conjunction.conditions_ofConditions (x : Condition) (xs : List Condition) :
    (ofConditions x xs).conditions = x :: xs := by
  have hFold : ∀ c : Conjunction, (xs.foldl .and c).conditions = c.conditions ++ xs := by
    induction xs with
    | nil => simp
    | cons x xs ih =>
      intro c
      rw [List.foldl_cons, ih, conditions, List.append_assoc, List.singleton_append]
  exact hFold _

theorem Conjunction.nodes_conditions (c : Conjunction) :
    c.nodes = c.conditions.flatMap Condition.nodes := by
  cases c with
  | single x => simp [nodes, conditions]
  | and left x => simp [nodes, conditions, left.nodes_conditions]

namespace Grammar

open Parse

/-- Conditions with `AND` between them are read back. -/
theorem shown_conjunction {k : Nat} {x : Condition} {xs : List Condition}
    (h : ∀ y ∈ x :: xs, Shown 0 .condition condition 5 (fun _ => True) y y.row) :
    Shown k .conjunction conjunction 6 (fun _ => True) (.ofConditions x xs)
      (x.row ++ BoundSql.andRow (xs.map Condition.row)) := by
  obtain ⟨hFirst, hRest⟩ := List.forall_mem_cons.mp h
  have hTail :=
    andOperators.tails (k := k) () (fun y hy => (hRest y hy).mono (Nat.zero_le _) le_rfl)
    (by decide : 5 ≤ 6) andSign?_none
  rw [List.map_id'] at hTail
  have hShown := folds_conjunction.prints.shown
    ((hFirst.mono (Nat.zero_le k) le_rfl).pair hTail)
  rw [BoundSql.andRow, List.flatMap_map]
  exact hShown

/-- The SQL of some leaves is read as the conjunction of their conditions. -/
theorem exists_conjunction {t : Table} {n : Nat} {ps : List Predicate} {bs : List BoundSql}
    {xs : List Condition} (h : AllReadAs t n ps bs xs) (hSome : bs ≠ []) :
    ∃ c : Conjunction, c.conditions = xs ∧ Placeless c ∧ (BoundSql.conjunction bs).HasRow c.row ∧
      ∀ k, Shown k .conjunction conjunction 6 (fun _ => True) c c.row := by
  cases h with
  | nil => exact absurd rfl hSome
  | @cons _ _ b x _ bs xs hFirst hRest =>
    have hAll := (AllReadAs.cons hFirst hRest).forall_mem
    have hConditions := Conjunction.conditions_ofConditions x xs
    have hShown : ∀ k, Shown k .conjunction conjunction 6 (fun _ => True) (.ofConditions x xs)
        (x.row ++ BoundSql.andRow (xs.map Condition.row)) := fun k =>
      shown_conjunction fun y hy => (hAll y hy).2
    refine ⟨.ofConditions x xs, hConditions, .conjunction fun y hy => ?_, ?_, fun k => ?_⟩
    · exact (hAll y (hConditions ▸ hy)).1
    · rw [show Conjunction.row _ = _ from (hShown 0).row]
      exact BoundSql.hasRow_conjunction hFirst.row hRest.rows
    · exact (hShown k).self

/-- A table as the only source is read back. -/
theorem shown_onlyTable {k : Nat} {q : QualifiedName} (hq : IsQualified q) :
    Shown k .joinClause joinClause 11 (fun ks => first ks = wordKind (leadingName q))
      (.single (.table q none)) q.row := by
  have hNoName : Tail (k + 1) .asName (fun _ => asName?) 7 8 none [] := tail_asName nofun
  have hTable := shown_table hq hNoName
  rw [show q.row ++ asNameRow none = q.row from List.append_nil _] at hTable
  exact (hTable.mono le_rfl (by decide : 8 ≤ 10)).single (f := joinedSource) folds_joinClause
    (by decide : 10 ≤ 11) joinStart?_none

end Grammar

/-- The query for some results from the rows of a table that satisfy a condition. -/
def Select.overTable (q : QualifiedName) (columns : List ResultColumn) (condition : Conjunction)
    (span : Span) : Select :=
  ⟨false, [], .single (.select false columns (some (.single (.table q none)))
    (some (.single condition)) [] none), [], .none, span⟩

section OverTable

open Parse

variable {q : QualifiedName} {columns : List ResultColumn} {c : Conjunction} {gs hs : Script}

theorem shown_overTable (hq : IsQualified q)
    (hColumns : Shown 2 Print.resultColumn.commas (fun rules => separated (resultColumn rules)) 11
      Fresh columns gs)
    (hCondition : Shown 3 .conjunction conjunction 6 (fun _ => True) c hs) (span : Span) :
    Shown 1 .select select 19 (fun ks => first ks = .keyword .SELECT) (.overTable q columns c span)
      (.keyword .SELECT :: .blank :: (gs ++ .blank :: .keyword .FROM :: .blank :: q.row ++
        .blank :: .keyword .WHERE :: .blank :: hs)) := by
  have hSource : Tail 2 (Print.joinClause.afterWord .FROM)
      (fun rules => after .FROM (joinClause rules)) 11 12 (some (.single (.table q none)))
      (.blank :: .keyword .FROM :: .blank :: q.row) :=
    tail_some ((shown_onlyTable hq).mono le_rfl (by decide)) (by decide)
  have hWhere : Tail 2 (Print.expr.afterWord .WHERE) (fun rules => after .WHERE (expr rules)) 12 13
      (some (.single c)) (.blank :: .keyword .WHERE :: .blank :: hs) :=
    tail_some (hCondition.expr.mono le_rfl (by decide)) (by decide)
  have hNoKeys : Tail 2 (Print.expr.listed .GROUP .BY)
      (fun rules => listed .GROUP .BY (expr rules)) 13 14 [] [] :=
    tail_listedNil (by decide) (by decide)
  have hNoFilter : Tail 2 (Print.expr.afterWord .HAVING)
      (fun rules => after .HAVING (expr rules)) 14 15 none [] := tail_none (by decide) (by decide)
  have hClauses := (((hColumns.pair hSource).pair hWhere).pair hNoKeys).pair hNoFilter
  rw [List.append_nil, List.append_nil] at hClauses
  exact shown_query hClauses span

/-- Only the place of the query itself is not known from its text. -/
theorem Select.eq_overTable (hColumns : ∀ x ∈ columns, Placeless x) (hc : Placeless c) {span : Span}
    {s : Select} (h : Like .spans (.overTable q columns c span) s) :
    s = .overTable q columns c s.span := by
  have hClauses : Placeless (α := Clauses)
      ((((columns, some (.single (.table q none))), some (.single c)), []), none) :=
    ((((Placeless.list hColumns).pair (Placeless.table q).some).pair hc.expr.some).pair
      (.list (by simp))).pair .none
  exact Clauses.eq_query hClauses h

theorem paramMarks_overTable (hColumns : paramMarks (Print.resultColumn.commas.nodes columns) = [])
    (span : Span) :
    paramMarks (Select.overTable q columns c span).nodes = paramMarks c.nodes := by
  simp [Select.overTable, Select.nodes, CommonTable.nodesAll, Bodies.nodes, Body.nodes,
    nodesAll_columns, hColumns, JoinClause.nodesOption, JoinClause.nodes, Source.nodes,
    Expr.nodesOption, Expr.nodes, Expr.nodesAll, OrderTerm.nodesAll, Limit.nodes]
  rfl

end OverTable

/-- The SQL of a query over a table is one query for some results, with one condition for each leaf
of the predicate. Its parameters are placeholders, one for each argument and in their order. -/
def ParsesAs (t : Table) (p : Predicate) (b : BoundSql) (columns : List ResultColumn) : Prop :=
  ∃ c span, parse .standard b.sql =
      ⟨[.select (.overTable ⟨t.schema, t.name⟩ columns c span)], [], []⟩ ∧
    List.Forall₂ (Asks t b.arguments) p.leaves c.conditions ∧
    paramMarks (Select.overTable ⟨t.schema, t.name⟩ columns c span).nodes =
      (List.range' 1 b.arguments.length).map .place

namespace TableQuery

variable {t : Table} {p : Predicate} {b : BoundSql}

/-- What a narrowed query is bound to, whatever it asks for. -/
theorem project_filter {projection : String}
    (h : ((TableQuery.all t).filter p).project projection = .ok b) :
    ∃ bound, p.bind t = .ok bound ∧ b.arguments = bound.arguments ∧
      b.sql = "SELECT " ++ projection ++ " FROM " ++ t.qualifiedName ++ " WHERE " ++ bound.sql := by
  have hProject : ((TableQuery.all t).filter p).project projection = (p.bind t).map fun bound =>
      ⟨"SELECT " ++ projection ++ " FROM " ++ t.qualifiedName ++ " WHERE " ++ bound.sql,
        bound.arguments⟩ := rfl
  rw [hProject] at h
  cases hBound : p.bind t with
  | error e => simp [hBound, Except.map] at h
  | ok bound =>
    rw [hBound] at h
    obtain rfl := Except.ok.inj h
    exact ⟨bound, rfl, rfl, rfl⟩

/-- The text of a narrowed query is read as the tokens of a row. -/
theorem hasRow_query {q : QualifiedName} (hq : IsQualified q) {gs hs : Script} {projection : String}
    (hLegal : Script.Legal gs) (hText : Script.chars gs = projection.toList) {bound : BoundSql}
    (h : bound.HasRow hs) :
    HasRow ("SELECT " ++ projection ++ " FROM " ++ q.sql ++ " WHERE " ++ bound.sql).toList []
      (.keyword .SELECT :: .blank :: (gs ++ .blank :: .keyword .FROM :: .blank :: q.row ++
        .blank :: .keyword .WHERE :: .blank :: hs)) := by
  have hFront : Script.Legal ((.keyword .SELECT :: .blank :: (gs ++ .blank :: .keyword .FROM ::
      .blank :: (q.row ++ [.blank, .keyword .WHERE]))) ++ [.blank]) := by
    have hName : Script.Legal (q.row ++ [.blank, .keyword .WHERE, .blank]) :=
      legal_qualifiedName hq (by simp [Glyph.Fits]) (Script.detached_cons rfl)
    simpa [hLegal] using hName
  have hFirst : HasRow _ (bound.sql.toList ++ []) _ := .legal hFront fun g hg d _ => by
    rw [List.getLast?_concat] at hg
    obtain rfl := Option.some.inj hg
    rfl
  have hBoth := hFirst.append (h [] (by simp))
  simpa [hText, q.chars_row, Glyph.chars, Keyword.text] using hBoth

/-- A query for results that are read back. -/
theorem parsesAs_project (ht : t.Named) {projection : String} {columns : List ResultColumn}
    {gs : Script}
    (hColumns :
    Shown 2 Print.resultColumn.commas (fun rules => Parse.separated (resultColumn rules))
      11 Fresh columns gs)
    (hText : Script.chars gs = projection.toList) (hPlaceless : ∀ x ∈ columns, Placeless x)
    (hMarks : paramMarks (Print.resultColumn.commas.nodes columns) = [])
    (h : ((TableQuery.all t).filter p).project projection = .ok b) : ParsesAs t p b columns := by
  obtain ⟨bound, hBound, hArguments, hSql⟩ := project_filter h
  obtain ⟨bs, hLeaves, hSome, rfl⟩ := p.bind_leaves bound hBound
  obtain ⟨xs, hRead⟩ := Predicate.exists_allReadAs ht p.isLeaf_of_mem_leaves hLeaves 0
  obtain ⟨c, rfl, hConjunction, hRow, hShown⟩ := exists_conjunction hRead hSome
  have hQuery := shown_overTable ht.name hColumns (hShown 3) default
  have hMarksAll : ∀ span, paramMarks (Select.overTable ⟨t.schema, t.name⟩ columns c span).nodes =
      marksFrom 0 b.arguments.length := by
    intro span
    rw [paramMarks_overTable hMarks, c.nodes_conditions, hRead.marks, hArguments,
      BoundSql.arguments_conjunction]
  have hSpells := (hasRow_query ht.name hColumns.legal hText hRow).spells
  rw [show QualifiedName.sql ⟨t.schema, t.name⟩ = t.qualifiedName from rfl, ← hSql] at hSpells
  have hFollows : Follows ⟨[], 0⟩ (paramMarks (Select.overTable ⟨t.schema, t.name⟩ columns c
      default).nodes) ⟨[], 0 + b.arguments.length⟩ := by
    rw [hMarksAll]
    exact follows_marksFrom [] 0 b.arguments.length
  obtain ⟨_, ⟨s, rfl, hLike⟩, hParse⟩ := parse_spelled hSpells hQuery.legal.fits
    (by simp [Glyph.kinds])
    (Reads.select_statement hQuery fun ks hks => by rw [hks]; rfl) hFollows
  rw [Select.eq_overTable hPlaceless hConjunction hLike] at hParse
  refine ⟨c, s.span, hParse, ?_, hMarksAll s.span⟩
  have hAsks := hRead.asks [] [] rfl
  rwa [List.nil_append, List.append_nil, ← BoundSql.arguments_conjunction, ← hArguments] at hAsks

/-- **A query over a table is read as what it asks.** Let the names of a table be words that are not
reserved. If a query over its rows can be narrowed by a predicate, then its text is read without an
error, as the one query for all columns of the table with one conjunction behind `WHERE`. Each leaf
of the predicate, from left to right, is one condition of it, which tests the column that the leaf
means. The placeholders are numbered from one to the number of arguments, and each stands where its
argument belongs. The same holds of the query for the number of rows. -/
theorem parsesAs_filter (ht : t.Named) (p : Predicate) (b : BoundSql) :
    (((TableQuery.all t).filter p).selectRows = .ok b → ParsesAs t p b [.star]) ∧
    (((TableQuery.all t).filter p).selectCount = .ok b →
      ParsesAs t p b [.expr (Term.callStar "COUNT").toExpr none]) := by
  refine ⟨fun h => ?_, fun h => ?_⟩
  · have hStar : ∀ x ∈ [ResultColumn.star], Placeless x := by simpa using Placeless.star
    exact parsesAs_project ht (shown_star.separated (by decide)) rfl hStar rfl h
  · have hName : IsName "COUNT" := by decide +kernel
    have hKind := isNameKind_wordKind hName
    have hCall := shown_pathOrCall (k := 2) hKind (shown_call hName shown_callStar)
    have hResult := shown_result hCall (ne_of_isNameKind hKind rfl) (ne_of_isNameKind hKind rfl)
      (ne_of_isNameKind hKind rfl)
    have hCount : ∀ x ∈ [ResultColumn.expr (Term.callStar "COUNT").toExpr none], Placeless x := by
      simpa using (Placeless.callStar "COUNT").toExpr.result
    exact parsesAs_project ht (hResult.separated (by decide)) rfl hCount rfl h

/-- A table whose names are words of the language that are not reserved. -/
def sampleWords : Table where
  name := "key"
  schema := some "main"
  columns := [⟨"p", "asc", "INT", false, true, false, false⟩,
    ⟨"q", "no", "TEXT", true, false, false, false⟩]
  primaryKey := ["asc"]
  uniqueKeys := []
  foreignKeys := []

/-- A predicate over it with conjunctions in it, one of them of nothing. -/
def samplePredicate : Predicate :=
  .all [.all [.equal "p" true (.integer 1), .oneOf "q" [.text "x", .null]], .all [],
    .equal "no" false .null, .oneOf "p" [], .like "asc" (.text "z")]

/-- Its SQL behind some results. -/
def sampleSql (projection : String) : BoundSql where
  sql := "SELECT " ++ projection ++ " FROM main.key WHERE " ++
    "asc<>? AND no IN (?, ?) AND 1=1 AND no IS NULL AND 1=0 AND asc LIKE ?"
  arguments := [.integer 1, .text "x", .null, .text "z"]

theorem parsesAs_filter_sampleWords :
    ParsesAs sampleWords samplePredicate (sampleSql "*") [.star] ∧
    ParsesAs sampleWords samplePredicate (sampleSql "COUNT(*)")
      [.expr (Term.callStar "COUNT").toExpr none] := by
  have hNamed : sampleWords.Named := by
    refine ⟨⟨?_, (by decide +kernel : IsName "key")⟩, ?_⟩
    · rintro _ ⟨rfl⟩
      exact (by decide +kernel : IsName "main")
    · have hFirst : IsName "asc" := by decide +kernel
      have hSecond : IsName "no" := by decide +kernel
      simp [sampleWords, hFirst, hSecond]
  have hRows : ((TableQuery.all sampleWords).filter samplePredicate).selectRows =
      .ok (sampleSql "*") := by decide +kernel
  have hCount : ((TableQuery.all sampleWords).filter samplePredicate).selectCount =
      .ok (sampleSql "COUNT(*)") := by decide +kernel
  exact ⟨(parsesAs_filter hNamed samplePredicate (sampleSql "*")).1 hRows,
    (parsesAs_filter hNamed samplePredicate (sampleSql "COUNT(*)")).2 hCount⟩

end TableQuery

end SqlKit
