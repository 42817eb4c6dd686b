import SqlKit.Proofs.Rendering.Source

/-!
# The bodies of queries are read back

The results behind `SELECT` and the clauses behind them, and rows of values.
-/

namespace SqlKit.Grammar

open Parse

variable {n k : Nat} {s : State}

/-! ## Result columns -/

def Print.resultColumn : Print ResultColumn := ⟨ResultColumn.row, ResultColumn.nodes⟩

/-- A row that starts with none of the words behind `SELECT`. -/
def Fresh (ks : List TokenKind) : Prop := first ks ≠ .keyword .ALL ∧ first ks ≠ .keyword .DISTINCT

/-- Whether the kinds of tokens start like `name.*`. -/
def isTableStar (ks : List TokenKind) : Bool :=
  isNameKind (first ks) && ks[1]? == some (.symbol .dot) && ks[2]? == some (.symbol .star)

/-- What is read of a result that is not `*`. -/
def columnBehind (rules : Rules) (tableStar : Bool) : Parse ResultColumn :=
  if tableStar = true then do
    let table ← Parse.name .table
    advance
    advance
    return .tableStar table
  else (fun x => .expr x.1 x.2) <$> both (expr rules) asName?

theorem resultColumn_eq : resultColumn = fun rules => eat .star >>= fun c =>
    if c = true then pure .star else seesTableStar >>= columnBehind rules := by
  funext rules
  refine bind_congr fun c => ?_
  cases c with
  | true => rfl
  | false => exact bind_congr fun c => by cases c <;> rfl

/-- A symbol that is looked for further on stands there. -/
theorem kindAt_beq_symbol (s : State) (n : Nat) (symbol : Symbol) :
    (s.kindAt n == .symbol symbol) = (s.tokens[n]?.map Token.kind == some (.symbol symbol)) := by
  unfold State.kindAt
  cases s.tokens[n]?.map Token.kind <;> rfl

theorem run_seesTableStar (s : State) :
    seesTableStar.run s = (isNameKind s.current.kind &&
      s.tokens[1]?.map Token.kind == some (.symbol .dot) &&
      s.tokens[2]?.map Token.kind == some (.symbol .star), s) := by
  rw [← isSome_nameOf?, ← kindAt_beq_symbol, ← kindAt_beq_symbol]
  rfl

theorem At.isTableStar {gs : Script} (h : At s gs) :
    seesTableStar.run s = (isTableStar (Script.kinds gs), s) := by
  rw [run_seesTableStar, Grammar.isTableStar, ← h.current, h.kinds]
  simp only [List.getElem?_map]

theorem Reads.tableStar {β : Type} (c : Bool) {gs : Script} {ms : List ParamMark} {level : Nat}
    {Q : β → Prop} {m : Rules → Bool → Parse β}
    (hLook : Leads level (fun ks => isTableStar ks = c) gs)
    (h : Reads k (fun rules => m rules c) gs ms level Q) :
    Reads k (fun rules => seesTableStar >>= m rules) gs ms level Q := by
  intro depth s more τ hs hDepth hMore hMarks
  simp only [run_bind, hs.isTableStar, hLook more hMore]
  exact h hs hDepth hMore hMarks

theorem After.tableStar {β : Type} {f : Bool → Parse β} {Q : β → State → Prop}
    (hTrue : ∀ t u v rest, s.tokens = t :: u :: v :: rest → After (f true) s Q)
    (hFalse : After (f false) s Q) : After (seesTableStar >>= f) s Q := by
  intro hError
  simp only [run_bind, run_seesTableStar] at hError ⊢
  cases hSees : (isNameKind s.current.kind && s.tokens[1]?.map Token.kind == some (.symbol .dot) &&
      s.tokens[2]?.map Token.kind == some (.symbol .star)) with
  | false =>
    rw [hSees] at hError
    exact hFalse hError
  | true =>
    rw [hSees] at hError
    obtain ⟨v, hThird, -⟩ :=
      Option.map_eq_some_iff.mp (beq_iff_eq.mp (Bool.and_eq_true_iff.mp hSees).2)
    match hTokens : s.tokens with
    | t :: u :: w :: rest => exact hTrue t u w rest hTokens hError
    | [] | [_] | [_, _] => rw [hTokens] at hThird; cases hThird

theorem shown_star : Shown k .resultColumn resultColumn 8 Fresh .star [.symbol .star] where
  row := rfl
  legal := by simp
  leads _ _ := by constructor <;> exact fun h => nomatch h
  reads := by
    rw [resultColumn_eq]
    exact Reads.eatThen rfl (Reads.pure rfl)

theorem shown_tableStar {m : String} (hm : IsName m) :
    Shown k .resultColumn resultColumn 8 Fresh (.tableStar m)
      [.name m, .symbol .dot, .symbol .star] where
  row := rfl
  legal := by
    refine Script.legal_cons.mpr ⟨hm, ?_, Script.legal_cons.mpr ⟨by simp, ?_, by simp⟩⟩
    · simp [Glyph.meets, Glyph.allows]
    · simp [Glyph.meets, Glyph.allows]
  leads _ _ := fresh_of_isNameKind (isNameKind_wordKind hm)
  reads := by
    have hStar : wordKind m ≠ .symbol .star := by
      unfold wordKind
      split <;> simp
    rw [resultColumn_eq]
    refine Reads.eatElse (fun _ _ => hStar) (Reads.tableStar true (fun more _ => ?_) ?_)
    · simp [isTableStar, first, Glyph.kinds, isNameKind_wordKind hm]
    · refine Reads.name hm (Reads.advance rfl (Reads.advance rfl (Reads.pure rfl)))

/-- An expression with another name. -/
theorem prints_value : Prints (Print.expr.pair .asName) .resultColumn
    fun x => ResultColumn.expr x.1 x.2 where
  row _ := rfl
  nodes _ := (List.append_nil _).symm
  like x y h := by
    obtain ⟨hValue, hName⟩ := Prod.mk.inj h
    exact congrArg₂ ResultColumn.expr hValue hName

theorem shown_value {x : ResultColumn} {gs : Script} (hStar : s.current.kind ≠ .symbol .star)
    (h : Shown k .resultColumn (fun rules => columnBehind rules false) 8 (Opens s) x gs) :
    Shown k .resultColumn resultColumn 8 Fresh x gs where
  row := h.row
  legal := h.legal
  leads := h.leads.imp fun ks hks => by
    obtain ⟨kind, hOpening, -⟩ := hks
    rw [Fresh, hOpening.head]
    exact hOpening.fresh
  reads := by
    rw [resultColumn_eq]
    refine Reads.eatElse (h.leads.imp fun ks hks => hks.ne hStar rfl) ?_
    refine Reads.tableStar false (h.leads.imp fun ks hks => ?_) h.reads
    obtain ⟨kind, hOpening, -⟩ := hks
    have hNoStar := hOpening.noStar
    rw [← hOpening.head] at hNoStar
    simpa [isTableStar, and_assoc] using hNoStar

/-- A result is written as it is read. -/
theorem Known.resultColumn (h : Known n) :
    Faithful n k .resultColumn resultColumn 8 fun _ => Fresh := by
  intro s hs
  refine After.of_eq (congrFun resultColumn_eq _) (After.eatIte (fun t rest hTokens _ => ?_) ?_)
  · exact .pure fun _ => ⟨⟨_, shown_star⟩, .refl _⟩
  · intro hStar
    have hNoStar := hs.current_ne hStar (by simp) (by simp)
    refine After.tableStar (fun t u v rest hTokens => ?_) ?_
    · refine After.name hs fun t' rest' m hTokens' hm _ => ?_
      obtain ⟨rfl, rfl⟩ := List.cons.inj (hTokens.symm.trans hTokens')
      refine After.advance rfl (After.advance rfl (.pure fun _ => ?_))
      exact ⟨⟨_, shown_tableStar hm⟩, .refl _⟩
    · have hNamed := ((h.disjunction (k := k)).pair faithful_asName).map prints_value
      refine After.imp (hNamed s hs) fun x s' hx => ?_
      exact hx.made (f := id) rfl rfl fun gs hgs => ⟨gs, shown_value hNoStar hgs⟩

/-! ## Lists behind two words -/

section Listed

variable {α : Type} [Erasable α] {p : Print α} {m : Rules → Parse α} {level next : Nat}
  {word word' : Keyword}

/-- Items behind two words, or none. -/
def Print.listed (word word' : Keyword) (p : Print α) : Print (List α) where
  row xs := if xs.isEmpty then []
    else [.blank, .keyword word, .blank, .keyword word', .blank] ++ p.commas.row xs
  nodes := p.commas.nodes

/-- Reads items behind two words, or nothing. -/
def Parse.listed (word word' : Keyword) (m : Parse α) : Parse (List α) := do
  if ← eatKeyword word then
    expectKeyword word'
    separated m
  else return []

theorem tail_listedNil (hLevel : level ≤ next) (hEnds : closes (.keyword word) < next) :
    Tail k (p.listed word word') (fun rules => Parse.listed word word' (m rules)) level next []
      [] where
  row := rfl
  legal := Script.legal_nil
  leads := stops_nil hLevel
  reads := by
    exact Reads.eatElse (leads_ne (by omega)) (Reads.pure rfl)
  detached := Script.detached_nil

theorem tail_listed {xs : List α} {gs : Script} {P : List TokenKind → Prop} (hSome : xs ≠ [])
    (h : Shown (k + 2) p.commas (fun rules => separated (m rules)) next P xs gs)
    (hWord : level ≤ closes (.keyword word)) :
    Tail k (p.listed word word') (fun rules => Parse.listed word word' (m rules)) level next xs
      (.blank :: .keyword word :: .blank :: .keyword word' :: .blank :: gs) where
  row := by
    rw [← h.row]
    simp [Print.listed, hSome]
  legal := by simpa using h.legal
  leads := stops_blank (stops_cons rfl hWord)
  reads := Reads.blank (Reads.eatThen rfl (Reads.blank (Reads.expectKeyword h.reads.blank)))
  detached := Script.detached_cons rfl

/-- Items behind two words are written as they are read, if each of them is. -/
theorem Faithful.listed {P : State → List TokenKind → Prop} (h : Faithful n (k + 2) p m 10 P)
    (hWord : level ≤ closes (.keyword word)) (hEnds : closes (.keyword word) < next)
    (hNext : 11 ≤ next) :
    FaithfulTail n k (p.listed word word') (fun rules => Parse.listed word word' (m rules)) level
      next := by
  intro s hs
  refine After.eatIte (fun t rest hTokens _ => ?_) fun _ => .pure fun _ => ?_
  · refine After.expectKeyword fun u rest' hTokens' _ => ?_
    have hTaken := (hs.take hTokens).take hTokens'
    intro hError hOkay
    obtain ⟨⟨gs, hShown⟩, hFollows⟩ := (h.separated le_rfl).mono le_rfl hNext _ hTaken hError hOkay
    exact ⟨⟨_, tail_listed (List.cons_ne_nil _ _) hShown hWord⟩, hFollows⟩
  · exact ⟨⟨[], tail_listedNil (by omega) hEnds⟩, .refl _⟩

end Listed

/-! ## Bodies -/

def Print.body : Print Body := ⟨Body.row, Body.nodes⟩

theorem valueRow_eq : valueRow = fun rules => enclosed (separated (expr rules)) := rfl

theorem Known.disjunctions (h : Known n) :
    Faithful n k Print.expr.commas (fun rules => separated (Grammar.expr rules)) 11 Opens :=
  (h.disjunction.mono le_rfl (by decide : 7 ≤ 10)).separated le_rfl

/-- Rows of values are written as they are read. -/
theorem Known.valueRows (h : Known n) :
    Faithful n k Print.expr.commas.enclosed.commas (fun rules => separated (valueRow rules)) 11
      fun _ ks => first ks = .symbol .leftParen := by
  rw [valueRow_eq]
  exact ((h.disjunctions.enclosed (by decide)).mono le_rfl (Nat.zero_le 10)).separated le_rfl

/-- The parts of a body behind `SELECT` and `DISTINCT`, from the left. -/
abbrev Clauses :=
  (((List ResultColumn × Option JoinClause) × Option Expr) × List Expr) × Option Expr

/-- The body that has some parts. -/
def Clauses.body (distinct : Bool) (x : Clauses) : Body :=
  .select distinct x.1.1.1.1 x.1.1.1.2 x.1.1.2 x.1.2 x.2

def Print.clauses : Print Clauses :=
  (((Print.resultColumn.commas.pair (Print.joinClause.afterWord .FROM)).pair
    (Print.expr.afterWord .WHERE)).pair (Print.expr.listed .GROUP .BY)).pair
    (Print.expr.afterWord .HAVING)

/-- Reads the parts of a body behind `SELECT` and `DISTINCT`. -/
def clauses (rules : Rules) : Parse Clauses :=
  both (both (both (both (separated (resultColumn rules)) (after .FROM (joinClause rules)))
    (after .WHERE (expr rules))) (Parse.listed .GROUP .BY (expr rules)))
    (after .HAVING (expr rules))

theorem body_eq : body = fun rules => eatKeyword .VALUES >>= fun c =>
    if c = true then .values <$> separated (valueRow rules)
    else expectKeyword .SELECT >>= fun _ => distinct >>= fun d =>
      Clauses.body d <$> clauses rules := by
  funext rules
  refine bind_congr fun c => ?_
  cases c with
  | true => rfl
  | false =>
    simp only [clauses, both, map_eq_pure_bind, bind_assoc, pure_bind]
    rfl

theorem Known.clauses (h : Known n) :
    Faithful n k .clauses clauses 15 fun _ => Fresh := by
  have hColumns := (h.resultColumn (k := k)).mono le_rfl (by decide : 8 ≤ 10)
  have hSource := (h.clause (k := k + 1)).mono le_rfl (by decide : 11 ≤ 12)
  have hCondition := (h.disjunction (k := k + 1)).mono le_rfl (by decide : 7 ≤ 13)
  have hKey := (h.disjunction (k := k + 2)).mono le_rfl (by decide : 7 ≤ 10)
  have hGroup : FaithfulTail n k (Print.expr.listed .GROUP .BY)
      (fun rules => Parse.listed .GROUP .BY (Grammar.expr rules)) 13 14 :=
    hKey.listed (by decide) (by decide) (by decide)
  have hHaving := (h.disjunction (k := k + 1)).mono le_rfl (by decide : 7 ≤ 15)
  exact ((((hColumns.separated le_rfl).pair (hSource.after (by decide) (by decide))).pair
    (hCondition.after (by decide) (by decide))).pair hGroup).pair
    (hHaving.after (by decide) (by decide))

theorem rowAll_columns (columns : List ResultColumn) :
    commaRow (ResultColumn.rowAll columns) = Print.resultColumn.commas.row columns := by
  have hMap : ResultColumn.rowAll columns = columns.map ResultColumn.row := by
    induction columns with
    | nil => rfl
    | cons c columns ih => rw [ResultColumn.rowAll, ih, List.map_cons]
  rw [hMap]
  rfl

theorem nodesAll_columns (columns : List ResultColumn) :
    ResultColumn.nodesAll columns = Print.resultColumn.commas.nodes columns := by
  induction columns with
  | nil => rfl
  | cons c columns ih => rw [ResultColumn.nodesAll, ih]; rfl

theorem rowRows_eq (rows : List (List Expr)) :
    commaRow (Expr.rowRows rows) = Print.expr.commas.enclosed.commas.row rows := by
  have hMap : Expr.rowRows rows = rows.map Print.expr.commas.enclosed.row := by
    induction rows with
    | nil => rfl
    | cons row rows ih => rw [Expr.rowRows, ih, List.map_cons, rowAll_expressions]; rfl
  rw [hMap]
  rfl

theorem nodesRows_eq (rows : List (List Expr)) :
    Expr.nodesRows rows = Print.expr.commas.enclosed.commas.nodes rows := by
  induction rows with
  | nil => rfl
  | cons row rows ih => rw [Expr.nodesRows, ih, nodesAll_expressions]; rfl

section Select

variable {x : Clauses} {d : Bool} {gs : Script}

theorem row_clauses : (x.body d).row =
    .keyword .SELECT :: .blank :: (optionalWord d .DISTINCT ++ Print.clauses.row x) := by
  obtain ⟨⟨⟨⟨columns, source⟩, condition⟩, groupBy⟩, having⟩ := x
  have hSource :
    JoinClause.rowAfterFrom source = (Print.joinClause.afterWord .FROM).row source := by
    cases source <;> rfl
  simp only [Clauses.body, Body.row, rowAll_columns, rowAll_expressions, rowAfter_eq, hSource]
  simp [Print.clauses, Print.pair, Print.listed]

theorem nodes_clauses : (x.body d).nodes = Print.clauses.nodes x := by
  obtain ⟨⟨⟨⟨columns, source⟩, condition⟩, groupBy⟩, having⟩ := x
  have hSource : JoinClause.nodesOption source =
      (Print.joinClause.afterWord .FROM).nodes source := by
    cases source <;> rfl
  simp only [Clauses.body, Body.nodes, nodesAll_columns, nodesAll_expressions, hSource,
    nodesOption_eq .WHERE condition, nodesOption_eq .HAVING having]
  simp [Print.clauses, Print.pair, Print.listed]

theorem like_clauses {y : Clauses} (h : Like .spans x y) : Like .spans (x.body d) (y.body d) := by
  obtain ⟨⟨⟨⟨columns, source⟩, condition⟩, groupBy⟩, having⟩ := x
  obtain ⟨⟨⟨⟨columns', source'⟩, condition'⟩, groupBy'⟩, having'⟩ := y
  simp_all [Like, Erasable.erase, Clauses.body, Body.erase]

theorem distinct_eq : distinct = eatKeyword .DISTINCT >>= fun c =>
    if c = true then pure true else eatKeyword .ALL >>= fun _ => pure false := rfl

theorem Reads.distinct {α : Type} {ms : List ParamMark} {level : Nat} {Q : α → Prop}
    {m : Rules → Bool → Parse α} (hFresh : Leads level Fresh gs)
    (h : Reads k (fun rules => m rules d) gs ms level Q) :
    Reads k (fun rules => distinct >>= m rules) (optionalWord d .DISTINCT ++ gs) ms level Q := by
  simp only [distinct_eq, bind_assoc]
  cases d with
  | true =>
    refine Reads.eat rfl (Reads.blank ?_)
    exact h.mono (Nat.le_succ k) le_rfl
  | false =>
    refine Reads.eatNone (hFresh.imp fun ks hks => hks.2) ?_
    simp only [Bool.false_eq_true, ↓reduceIte, bind_assoc, pure_bind]
    exact Reads.eatNone (m := fun rules _ => m rules false) (hFresh.imp fun ks hks => hks.1) h

theorem After.distinct {α : Type} {f : Bool → Parse α} {Q : α → State → Prop} (hs : Room n k s)
    (h : ∀ d s', s'.scope = s.scope → Room n k s' → After (f d) s' Q) :
    After (Grammar.distinct >>= f) s Q := by
  have hRoom : ∀ {t rest}, s.tokens = t :: rest → Room n k (s.take t rest) :=
    fun hTokens => (hs.take hTokens).mono (Nat.le_succ k)
  rw [distinct_eq, bind_assoc]
  refine After.eat (fun t rest hTokens _ => h true _ rfl (hRoom hTokens)) fun _ => ?_
  simp only [Bool.false_eq_true, ↓reduceIte, bind_assoc, pure_bind]
  exact After.eat (fun t rest hTokens _ => h false _ rfl (hRoom hTokens)) fun _ => h false s rfl hs

theorem shown_select (h : Shown (k + 1) .clauses clauses 15 Fresh x gs) :
    Shown k .body body 15 (fun ks => first ks = .keyword .SELECT) (x.body d)
      (.keyword .SELECT :: .blank :: (optionalWord d .DISTINCT ++ gs)) where
  row := by
    rw [← h.row]
    exact row_clauses
  legal := by
    cases d <;> simpa [optionalWord] using h.legal
  leads _ _ := rfl
  reads := by
    have hMarks : Print.body.marks (x.body d) = Print.clauses.marks x :=
      congrArg paramMarks (nodes_clauses (d := d))
    rw [body_eq, hMarks]
    refine Reads.eatElse (fun _ _ hKind => nomatch hKind) (Reads.expectKeyword (Reads.blank ?_))
    exact Reads.distinct h.leads (h.reads.map fun y hy => like_clauses hy)

end Select

theorem shown_values {rows : List (List Expr)} {gs : Script} {P : List TokenKind → Prop}
    (h : Shown (k + 1) Print.expr.commas.enclosed.commas
    (fun rules => separated (valueRow rules)) 11
      P rows gs) :
    Shown k .body body 15 (fun ks => first ks = .keyword .VALUES) (.values rows)
      (.keyword .VALUES :: .blank :: gs) where
  row := by
    rw [← h.row, ← rowRows_eq]
    rfl
  legal := by simpa using h.legal
  leads _ _ := rfl
  reads := by
    have hMarks : Print.body.marks (.values rows) = Print.expr.commas.enclosed.commas.marks rows :=
      congrArg paramMarks (nodesRows_eq rows)
    rw [body_eq, hMarks]
    refine Reads.eatThen rfl (Reads.blank ((h.reads.mono le_rfl (by decide)).map fun y hy => ?_))
    have hRows : rows.map (List.map (Expr.erase .spans)) = y.map (List.map (Expr.erase .spans)) :=
      hy
    simp [Like, Erasable.erase, Body.erase, hRows]

/-- A row that starts as the tokens do, with a word that starts a body. -/
def StartsBody (s : State) (ks : List TokenKind) : Prop := Starts s ks ∧ closes (first ks) = 19

/-- A body is written as it is read. -/
theorem Known.body (h : Known n) : Faithful n k .body body 15 StartsBody := by
  intro s hs
  refine After.of_eq (congrFun body_eq _)
    (After.eatIte (fun t rest hTokens hKind => ?_) fun _ => ?_)
  · refine After.imp (After.made (h.valueRows _ (hs.take hTokens))) ?_
    rintro _ s' ⟨rows, rfl, hInner⟩
    refine hInner.made (f := Body.values) rfl (nodesRows_eq rows) fun gs hgs => ?_
    refine ⟨_, (shown_values hgs).imp fun ks hks => ?_⟩
    rw [StartsBody, Starts, State.current_cons hTokens, hKind, hks]
    exact ⟨rfl, rfl⟩
  · refine After.expectKeyword fun t rest hTokens hKind => ?_
    refine After.distinct (hs.take hTokens) fun d s₁ hScope hs₁ => ?_
    refine After.imp (After.made (h.clauses s₁ hs₁)) ?_
    rintro _ s' ⟨x, rfl, hInner⟩
    refine hInner.made (f := Clauses.body d) hScope (nodes_clauses (d := d)) fun gs hgs => ?_
    refine ⟨_, (shown_select hgs).imp fun ks hks => ?_⟩
    rw [StartsBody, Starts, State.current_cons hTokens, hKind, hks]
    exact ⟨rfl, rfl⟩

end SqlKit.Grammar
