import SqlKit.Proofs.Rendering.Parameters

/-!
# Terms are read back

The terms that hold expressions and queries again, under the assumption that what the grammar comes
back to is read back (`Known`); then terms without a sign, and terms.

A sign in front of a number changes the number, so that the signs that were read are not those that
are written. A row may therefore start with another sign than the tokens did, or with a number in
place of a sign: `Opens` allows for that.
-/

namespace SqlKit.Grammar

open Parse

/-! ## What the grammar comes back to -/

def Print.expr : Print Expr := ⟨Expr.row, Expr.nodes⟩

def Print.select : Print Select := ⟨Select.row, Select.nodes⟩

def Print.joinClause : Print JoinClause := ⟨JoinClause.row, JoinClause.nodes⟩

/-- A row that starts with a token of the kind that is next. -/
def Starts (s : State) (ks : List TokenKind) : Prop := first ks = s.current.kind

/-- The kinds of tokens that signs before a term are written as: signs, or a number. -/
def isSigned : TokenKind → Bool
  | .symbol .minus | .symbol .plus | .integer _ => true
  | _ => false

/-- How the row of an expression starts: as the tokens that were read, but for their signs. -/
def Opens (s : State) (ks : List TokenKind) : Prop :=
  ∃ kind, Opening kind ks ∧
    (kind = s.current.kind ∨ isSigned s.current.kind = true ∧ isSigned kind = true)

theorem Opens.ne {s : State} {ks : List TokenKind} {kind : TokenKind} (h : Opens s ks)
    (hKind : s.current.kind ≠ kind) (hSigned : isSigned kind = false) : first ks ≠ kind := by
  obtain ⟨kind', hOpening, rfl | ⟨-, hSigned'⟩⟩ := h
  · rwa [hOpening.head]
  · rw [hOpening.head]
    rintro rfl
    exact Bool.noConfusion (hSigned.symm.trans hSigned')

/-- The readers that the grammar comes back to are read back, behind a token. -/
structure Known (n : Nat) : Prop where
  expr : Faithful n 1 .expr Rules.expr 7 Opens
  select : Faithful n 1 .select Rules.select 19 Starts
  joinClause : Faithful n 1 .joinClause Rules.joinClause 11 Starts

variable {n k : Nat} {s : State}

/-! ## Parentheses -/

/-- Kinds of tokens that a query starts with. -/
def isQueryStart : TokenKind → Bool
  | .keyword .SELECT | .keyword .WITH | .keyword .VALUES => true
  | _ => false

theorem isQueryStart_of_isSigned {kind : TokenKind} (h : isSigned kind = true) :
    isQueryStart kind = false := by
  unfold isSigned at h
  split at h <;> first | rfl | cases h

theorem Opens.isQueryStart {s : State} {ks : List TokenKind} (h : Opens s ks) :
    isQueryStart (first ks) = isQueryStart s.current.kind := by
  obtain ⟨kind, hOpening, rfl | ⟨hSigned, hSigned'⟩⟩ := h
  · rw [hOpening.head]
  · rw [hOpening.head, isQueryStart_of_isSigned hSigned, isQueryStart_of_isSigned hSigned']

/-- What is read between parentheses, a query or an expression. -/
def between (rules : Rules) (query : Bool) : Parse Term :=
  if query = true then Term.subquery <$> rules.select else Term.paren <$> rules.expr

theorem parenthesized_eq : parenthesized = fun rules => do
    advance
    let query ← Parse.look fun s => isQueryStart s.current.kind
    let term ← between rules query
    expect .rightParen
    return term := by
  funext rules
  refine bind_congr fun _ => bind_congr fun query => ?_
  cases query <;> rfl

theorem okay_cons {t : Term} {ns : List Node} (h : ∀ n ∈ Node.term t :: ns, n.Plain) :
    ∀ n ∈ ns, n.Plain := fun n hn => h n (List.mem_cons_of_mem _ hn)

/-- A part in parentheses, if it is read back alone. -/
theorem shown_parenthesized {α : Type} [Erasable α] {p : Print α} {m : Rules → Parse α} {x : α}
    {level : Nat} {P : List TokenKind → Prop} {gs : Script} (query : Bool)
    (make : α → Term)
    (h : Shown (k + 1) p m level P x gs) (hLevel : level ≤ 19)
    (hStart : ∀ ks, P ks → isQueryStart (first ks) = query)
    (hMake : ∀ rules, between rules query = make <$> m rules)
    (hRow : (make x).row = .symbol .leftParen :: (p.row x ++ [.symbol .rightParen]))
    (hMarks : Print.term.marks (make x) = p.marks x)
    (hLike : ∀ y, Like .spans x y → Like .spans (make x) (make y)) :
    Shown k .term parenthesized 1 (Opening (.symbol .leftParen)) (make x)
      (.symbol .leftParen :: (gs ++ [.symbol .rightParen])) where
  row := by rw [← h.row]; exact hRow
  legal := by simpa using h.legal
  leads more _ := Opening.of_not_name rfl rfl (by simp)
  reads := by
    rw [parenthesized_eq, hMarks]
    have hStops : Stops level 1 [.symbol .rightParen] := stops_cons rfl hLevel
    refine Reads.advance rfl (Reads.lookKind query (fun more hMore => ?_) ?_)
    · exact hStart _ ((h.leads.append hStops) more hMore)
    · simp only [hMake]
      exact (h.reads.map hLike).bindLast hStops fun y hy => Reads.expect (Reads.pure hy)

/-- An expression or a query in parentheses is written as it is read. -/
theorem Known.parenthesized (h : Known n) (hs : Room n k s)
    (hKind : s.current.kind = .symbol .leftParen) :
    FaithfulAt n k .term parenthesized 1 (Opening s.current.kind) s := by
  obtain ⟨t, rest, hTokens, -⟩ := hs.exists_token (by simp [hKind]) (by simp [hKind])
  have hTaken := (hs.take hTokens).mono (Nat.succ_le_succ (Nat.zero_le k))
  rw [hKind]
  refine After.of_eq (congrFun parenthesized_eq _) ?_
  refine After.advance hTokens (After.look ?_)
  cases hQuery : isQueryStart (s.take t rest).current.kind with
  | true =>
    refine After.bind (After.made (h.select _ hTaken)) ?_
    rintro _ s₁ ⟨query, rfl, hInner⟩ -
    refine After.expect fun u rest' _ _ => .pure fun hOkay => ?_
    obtain ⟨⟨gs, hShown⟩, hFollows⟩ := hInner (okay_cons hOkay)
    have hInner' := hShown.mono (Nat.succ_le_succ (Nat.zero_le k)) (Nat.le_refl 19)
    refine ⟨⟨_,
      shown_parenthesized true .subquery hInner' (Nat.le_refl 19) (fun ks hks => ?_) ?_ ?_ rfl ?_⟩,
      hFollows⟩
    · rw [hks, hQuery]
    · exact fun _ => rfl
    · exact Term.row.eq_6 query
    · exact fun y hy => congrArg Term.subquery hy
  | false =>
    refine After.bind (After.made (h.expr _ hTaken)) ?_
    rintro _ s₁ ⟨inner, rfl, hInner⟩ -
    refine After.expect fun u rest' _ _ => .pure fun hOkay => ?_
    obtain ⟨⟨gs, hShown⟩, hFollows⟩ := hInner (okay_cons hOkay)
    have hInner' := hShown.mono (Nat.succ_le_succ (Nat.zero_le k)) (Nat.le_refl 7)
    refine ⟨⟨_,
      shown_parenthesized false .paren hInner' (by decide) (fun ks hks => ?_) ?_ ?_ rfl ?_⟩,
      hFollows⟩
    · rw [hks.isQueryStart, hQuery]
    · exact fun _ => rfl
    · exact Term.row.eq_5 inner
    · exact fun y hy => congrArg Term.paren hy

/-! ## Casts -/

theorem shown_cast {x : Expr} {type : ColumnType} {gs hs : Script} {P Q : List TokenKind → Prop}
    (h : Shown 1 .expr Rules.expr 7 P x gs)
    (hType : Shown 0 .columnType (fun _ => columnType) 1 Q type hs) :
    Shown k .term castTerm 1 (Opening (.keyword .CAST)) (.cast x type)
      (.keyword .CAST :: .symbol .leftParen :: (gs ++ .blank :: .keyword .AS :: .blank ::
        (hs ++ [.symbol .rightParen]))) where
  row := by
    have hExpr : x.row = gs := h.row
    have hTypeRow : type.row = hs := hType.row
    simp [Print.term, Term.row, hExpr, hTypeRow]
  legal := by simp [h.legal, hType.legal]
  leads more _ := Opening.of_not_name rfl rfl (by simp)
  reads := by
    refine Reads.advance rfl (Reads.expect ?_)
    refine (h.reads.mono (by omega) le_rfl).bindLast (stops_blank (stops_cons rfl le_rfl)) ?_
    intro y hy
    refine Reads.blank (Reads.expectKeyword (Reads.blank ?_))
    refine (hType.reads.mono (Nat.zero_le _) le_rfl).bindLast (stops_cons rfl (by decide)) ?_
    intro z hz
    exact Reads.expect (Reads.pure (congrArg₂ Term.cast hy hz))

/-- A cast is written as it is read. -/
theorem Known.castTerm (h : Known n) (hs : Room n k s) (hKind : s.current.kind = .keyword .CAST) :
    FaithfulAt n k .term castTerm 1 (Opening s.current.kind) s := by
  obtain ⟨t, rest, hTokens, -⟩ := hs.exists_token (by simp [hKind]) (by simp [hKind])
  have hTaken := hs.take hTokens
  rw [hKind]
  refine After.advance hTokens (After.expect fun u rest₁ hTokens₁ _ => ?_)
  have hTaken₁ := (hTaken.take hTokens₁).mono (Nat.succ_le_succ (Nat.zero_le (k + 1)))
  refine After.bind (h.expr _ hTaken₁) fun x s₁ hInner hMoves => ?_
  refine After.expectKeyword fun v rest₂ hTokens₂ _ => ?_
  have hTaken₂ := ((hTaken₁.moves hMoves).take hTokens₂).mono (Nat.zero_le _)
  refine After.bind (faithful_columnType _ hTaken₂) fun type s₂ hType _ => ?_
  refine After.expect fun w rest₃ _ _ => .pure fun hOkay => ?_
  obtain ⟨⟨gs, hShown⟩, hFollows⟩ := hInner (okay_cons hOkay)
  obtain ⟨⟨hs', hShown'⟩, hFollows'⟩ := hType (by simp [Print.Okay, Print.columnType])
  refine ⟨⟨_, shown_cast hShown hShown'⟩, ?_⟩
  have hScope : s₁.scope = s₂.scope := hFollows'
  exact (show Follows s.scope (Print.expr.marks x) s₁.scope from hFollows).trans_eq hScope

/-! ## Cases -/

/-- A branch behind its first word. -/
def Print.branch : Print Branch where
  row b := b.condition.row ++ ([.blank, .keyword .THEN, .blank] ++ b.result.row)
  nodes b := b.condition.nodes ++ b.result.nodes

/-- A branch is written as it is read. -/
theorem Known.branch (h : Known n) : Faithful n 1 .branch branch 7 Opens := by
  have hResult := (h.expr.mono (Nat.le_succ 1) le_rfl).behindWord
    (by decide : 7 ≤ closes (.keyword .THEN))
  refine (h.expr.pair hResult).map (q := .branch) (f := fun x => ⟨x.1, x.2⟩)
    ⟨fun _ => rfl, fun _ => rfl, ?_⟩
  rintro ⟨x, x'⟩ ⟨y, y'⟩ hLike
  obtain ⟨hFirst, hSecond⟩ := Prod.mk.inj hLike
  exact congrArg₂ Branch.mk hFirst hSecond

/-- The word in front of a branch. -/
def whenOperators : Operators whenAccept Print.branch
    (Print.branch.behind [.blank, .keyword .WHEN, .blank]) 7 [.blank] fun _ x => x where
  glyph _ := .keyword .WHEN
  kind _ := .keyword .WHEN
  kinds _ := rfl
  fits _ := trivial
  accepts _ _ h := if_pos h
  ends _ := le_rfl
  layout := Or.inl rfl
  row _ _ := rfl
  nodes _ _ := rfl
  like _ _ _ h := h

/-- The branches of a `CASE` as they are written. -/
def Print.branches : Print (List Branch) :=
  (Print.branch.behind [.blank, .keyword .WHEN, .blank]).all

theorem whenAccept_none (t : Token) (h : 8 ≤ closes t.kind) : whenAccept t = none :=
  accept_none (by decide) t h

/-- Branches are read back where the word in front of the first one is asked for. -/
theorem shown_caseBranches {branches : List Branch} {gs : Script}
    (h : Tail 1 .branches (fun rules => chain whenAccept fun _ => branch rules) 7 8 branches gs)
    (hWhen : Leads 8 (fun ks => first ks = .keyword .WHEN) gs) :
    Shown 1 .branches caseBranches 8 (fun ks => first ks = .keyword .WHEN) branches gs where
  row := h.row
  legal := h.legal
  leads := hWhen
  reads := by
    unfold caseBranches seesKeyword
    refine Reads.lookKind (f := fun kind => kind == .keyword .WHEN) true ?_ h.reads
    exact hWhen.imp fun ks hks => by rw [hks]; rfl

/-- The branches of a `CASE` are written as they are read. -/
theorem Known.caseBranches (h : Known n) (hs : Room n 1 s) :
    After (caseBranches (.upTo n)) s fun branches s' => Legible .branches
      (fun gs => Shown 1 .branches Grammar.caseBranches 8 (fun ks => first ks = .keyword .WHEN)
        branches gs ∧ Script.Detached gs) branches s s' := by
  have hBranch := h.branch.mono (Nat.le_succ 1) le_rfl
  refine After.look ?_
  split
  · next hSees =>
    have hKind : s.current.kind = .keyword .WHEN := by simpa using hSees
    obtain ⟨t, rest, hTokens, hCurrent⟩ := hs.exists_token (by simp [hKind]) (by simp [hKind])
    have hTaken := hs.take hTokens
    refine After.chain hTokens (if_pos (hCurrent ▸ hKind) : whenAccept t = some ()) ?_
    refine After.bind (hBranch _ hTaken) fun x s₁ hFirst hMoves => ?_
    have hChain := (whenOperators.faithful hBranch).chain (by decide : 7 ≤ 8) whenAccept_none
    have hRoom := (hTaken.moves hMoves).mono (Nat.le_succ 1)
    refine After.imp (After.made (hChain _ hRoom)) ?_
    rintro _ s₂ ⟨xs, rfl, hRest⟩ hOkay
    obtain ⟨hOkayFirst, hOkayRest⟩ := Print.okay_append
      (show ∀ n ∈ Print.branch.nodes x ++ xs.flatMap Print.branch.nodes, n.Plain from hOkay)
    obtain ⟨⟨gs, hShown⟩, hFollows⟩ := hFirst hOkayFirst
    obtain ⟨⟨hs', hTail⟩, hFollows'⟩ := hRest hOkayRest
    have hCons := tail_cons (whenOperators.tail (b := ()) hShown) hTail
    refine ⟨⟨_, shown_caseBranches hCons fun more _ => rfl, hCons.detached⟩, ?_⟩
    have hMarks : Print.branches.marks (x :: xs) =
        Print.branch.marks x ++ Print.branches.marks xs := paramMarks_append _ _
    exact hMarks ▸ hFollows.append hFollows'
  · exact After.fail

theorem rowAfter_eq (word : Keyword) (o : Option Expr) :
    Expr.rowAfter [.blank, .keyword word, .blank] o = (Print.expr.afterWord word).row o := by
  cases o <;> rfl

theorem nodesOption_eq (word : Keyword) (o : Option Expr) :
    Expr.nodesOption o = (Print.expr.afterWord word).nodes o := by
  cases o <;> rfl

theorem rowAll_branches (branches : List Branch) :
    Branch.rowAll branches = Print.branches.row branches := by
  induction branches with
  | nil => rfl
  | cons b branches ih =>
    obtain ⟨condition, result⟩ := b
    rw [Branch.rowAll, ih]
    rfl

theorem nodesAll_branches (branches : List Branch) :
    Branch.nodesAll branches = Print.branches.nodes branches := by
  induction branches with
  | nil => rfl
  | cons b branches ih =>
    obtain ⟨condition, result⟩ := b
    rw [Branch.nodesAll, ih]
    rfl

/-- What is read of a `CASE` behind its operand. -/
def caseRest (rules : Rules) (operand : Option Expr) : Parse Term := do
  let branches ← caseBranches rules
  let otherwise ← after .ELSE rules.expr
  expectKeyword .END
  return .case operand branches otherwise

/-- The rest of a `CASE` in a row. -/
theorem Reads.caseRest {branches : List Branch} {otherwise operand operand' : Option Expr}
    {gs hs : Script}
    (h : Shown 1 .branches caseBranches 8 (fun ks => first ks = .keyword .WHEN) branches gs)
    (h' : Tail 1 (Print.expr.afterWord .ELSE)
    (fun rules => after .ELSE rules.expr) 8 9 otherwise hs)
    (hOperand : Like .spans operand operand') :
    Reads 1 (fun rules => caseRest rules operand') (gs ++ (hs ++ [.blank, .keyword .END]))
      (Print.branches.marks branches ++ (Print.expr.afterWord .ELSE).marks otherwise) 1
      (Like .spans (Term.case operand branches otherwise)) := by
  have hEnd : Stops 9 1 [.blank, .keyword .END] := stops_blank (stops_cons rfl le_rfl)
  refine h.reads.bind (h'.leads.append hEnd) fun bs hbs => ?_
  refine h'.reads.bindLast hEnd fun o ho => Reads.blank (Reads.expectKeyword (Reads.pure ?_))
  simp_all [Like, Erasable.erase, Term.erase]

/-- The operand of a `CASE` as it is written. -/
def Print.operandOfCase : Print (Option Expr) := (Print.expr.behind [.blank]).option

/-- The row of an operand of a `CASE`, if there is one. It is read back in front of a branch. -/
structure ShownOperand (operand : Option Expr) (gs : Script) : Prop where
  row : Print.operandOfCase.row operand = gs
  legal : Script.Legal gs
  detached : Script.Detached gs
  reads : ∀ {hs : Script} {ns : List ParamMark} {Q : Term → Prop},
    Leads 1 (fun ks => first ks = .keyword .WHEN) hs →
    (∀ o, Like .spans operand o → Reads 1 (fun rules => caseRest rules o) hs ns 1 Q) →
    Reads 1 (fun rules => caseOperand rules >>= caseRest rules) (gs ++ hs)
      (Print.operandOfCase.marks operand ++ ns) 1 Q

/-- What is read of a `CASE` behind its first word, if it is known whether a branch is next. -/
def caseBehind (rules : Rules) (sees : Bool) : Parse Term :=
  (if sees = true then pure none else some <$> rules.expr) >>= caseRest rules

theorem shownOperand_none : ShownOperand none [] where
  row := rfl
  legal := Script.legal_nil
  detached := Script.detached_nil
  reads hWhen hRest := by
    refine Reads.lookKind (f := fun kind => kind == .keyword .WHEN) (m := caseBehind) true ?_
      (hRest none rfl)
    exact hWhen.imp fun ks hks => by rw [hks]; rfl

theorem shownOperand_some {x : Expr} {gs : Script} {P : List TokenKind → Prop}
    (h : Shown 1 .expr Rules.expr 7 P x gs) (hP : ∀ ks, P ks → first ks ≠ .keyword .WHEN) :
    ShownOperand (some x) (.blank :: gs) where
  row := by rw [← h.row]; rfl
  legal := (Script.legal_blank gs).mpr h.legal
  detached := Script.detached_cons rfl
  reads {hs} _ _ hWhen hRest := by
    have hStops : Stops 7 1 hs := hWhen.imp fun ks hks => by rw [hks]; decide
    refine Reads.lookKind (f := fun kind => kind == .keyword .WHEN) (m := caseBehind) false ?_ ?_
    · exact (h.leads.append hStops).imp fun ks hks => beq_eq_false_iff_ne.mpr (hP ks hks)
    · exact Reads.blank (h.reads.bind hStops fun y hy => hRest (some y) (Like.some hy))

/-- The operand of a `CASE` is written as it is read. -/
theorem Known.caseOperand (h : Known n) (hs : Room n 1 s) :
    After (caseOperand (.upTo n)) s fun o s' => Legible .operandOfCase (ShownOperand o) o s s' := by
  refine After.look ?_
  split
  · exact .pure fun _ => ⟨⟨[], shownOperand_none⟩, .refl _⟩
  · next hSees =>
    have hKind : s.current.kind ≠ .keyword .WHEN := by simpa using hSees
    refine After.imp (After.made (h.expr s hs)) ?_
    rintro _ s' ⟨x, rfl, hx⟩ hOkay
    obtain ⟨⟨gs, hShown⟩, hFollows⟩ := hx hOkay
    exact ⟨⟨_, shownOperand_some hShown fun ks hks => hks.ne hKind rfl⟩, hFollows⟩

section Case

variable {operand otherwise : Option Expr} {branches : List Branch}

theorem nodes_case : Print.term.nodes (.case operand branches otherwise) =
    .term (.case operand branches otherwise) :: (Print.operandOfCase.nodes operand ++
      (Print.branches.nodes branches ++ (Print.expr.afterWord .ELSE).nodes otherwise)) := by
  rw [← nodesAll_branches, ← nodesOption_eq]
  cases operand <;> rfl

theorem marks_case : Print.term.marks (.case operand branches otherwise) =
    Print.operandOfCase.marks operand ++
      (Print.branches.marks branches ++ (Print.expr.afterWord .ELSE).marks otherwise) := by
  rw [Print.marks, nodes_case]
  exact (paramMarks_append _ _).trans (congrArg _ (paramMarks_append _ _))

theorem shown_case {fs gs hs : Script} (h : ShownOperand operand fs)
    (h' : Shown 1 .branches caseBranches 8 (fun ks => first ks = .keyword .WHEN) branches gs)
    (hDetached : Script.Detached gs)
    (h'' : Tail 1 (Print.expr.afterWord .ELSE) (fun rules => after .ELSE rules.expr) 8 9 otherwise
      hs) :
    Shown k .term caseTerm 1 (Opening (.keyword .CASE)) (.case operand branches otherwise)
      (.keyword .CASE :: (fs ++ (gs ++ (hs ++ [.blank, .keyword .END])))) where
  row := by
    have hOperand : Expr.rowAfter [.blank] operand = fs := by
      rw [← h.row]
      cases operand <;> rfl
    have hElse := (rowAfter_eq .ELSE otherwise).trans h''.row
    have hBranches := (rowAll_branches branches).trans h'.row
    simp [Print.term, Term.row, hOperand, hElse, hBranches]
  legal := by
    have hEnd : Script.Detached [.blank, .keyword .END] := Script.detached_cons rfl
    have hRest := hDetached.append (h''.detached.append hEnd)
    rw [Script.legal_cons_detached (h.detached.append hRest), Script.legal_append hRest,
      Script.legal_append (h''.detached.append hEnd), Script.legal_append_blank]
    simp [h.legal, h'.legal, h''.legal]
  leads _ _ := Opening.of_not_name rfl rfl (by simp)
  reads := by
    rw [marks_case, caseTerm_eq]
    have hStops : Stops 8 1 (hs ++ [.blank, .keyword .END]) :=
      h''.leads.append (stops_blank (stops_cons rfl le_rfl))
    refine Reads.advance rfl
      ((h.reads (h'.leads.append hStops) fun o ho => ?_).mono (by omega) le_rfl)
    exact Reads.caseRest h' h'' ho

/-- A `CASE` is written as it is read. -/
theorem Known.caseTerm (h : Known n) (hs : Room n k s) (hKind : s.current.kind = .keyword .CASE) :
    FaithfulAt n k .term caseTerm 1 (Opening s.current.kind) s := by
  obtain ⟨t, rest, hTokens, -⟩ := hs.exists_token (by simp [hKind]) (by simp [hKind])
  have hTaken := (hs.take hTokens).mono (Nat.succ_le_succ (Nat.zero_le k))
  rw [hKind]
  refine After.of_eq (congrFun caseTerm_eq _) (After.advance hTokens ?_)
  refine After.bind (h.caseOperand hTaken) fun operand s₁ hOperand hMoves => ?_
  have hRoom := hTaken.moves hMoves
  refine After.bind (h.caseBranches hRoom) fun branches s₂ hBranches hMoves' => ?_
  have hElse := h.expr.mono (Nat.le_succ 1) (by decide : 7 ≤ 9)
  have hAfter := hElse.after (by decide : 8 ≤ closes (.keyword .ELSE)) (by decide)
  refine After.bind (hAfter _ (hRoom.moves hMoves')) fun otherwise s₃ hOtherwise _ => ?_
  refine After.expectKeyword fun u rest' _ _ => .pure fun hOkay => ?_
  rw [Print.Okay, nodes_case] at hOkay
  obtain ⟨hOkayFirst, hOkayRest⟩ := Print.okay_append (okay_cons hOkay)
  obtain ⟨hOkaySecond, hOkayThird⟩ := Print.okay_append hOkayRest
  obtain ⟨⟨fs, hFirst⟩, hFollows⟩ := hOperand hOkayFirst
  obtain ⟨⟨gs, hSecond, hDetached⟩, hFollows'⟩ := hBranches hOkaySecond
  obtain ⟨⟨hs', hThird⟩, hFollows''⟩ := hOtherwise hOkayThird
  exact ⟨⟨_, shown_case hFirst hSecond hDetached hThird⟩,
    marks_case ▸ hFollows.append (hFollows'.append hFollows'')⟩

end Case

/-! ## Calls -/

theorem rowAll_expressions (es : List Expr) :
    commaRow (Expr.rowAll es) = Print.expr.commas.row es := by
  have hMap : Expr.rowAll es = es.map Expr.row := by
    induction es with
    | nil => rfl
    | cons e es ih => rw [Expr.rowAll, ih, List.map_cons]
  rw [hMap]
  rfl

theorem nodesAll_expressions (es : List Expr) : Expr.nodesAll es = Print.expr.commas.nodes es := by
  induction es with
  | nil => rfl
  | cons e es ih => rw [Expr.nodesAll, ih]; rfl

/-- The list of the expressions that the grammar comes back to. -/
theorem Known.expressions (h : Known n) :
    Faithful n 1 Print.expr.commas (fun rules => separated rules.expr) 11 Opens :=
  (h.expr.mono le_rfl (by decide : 7 ≤ 10)).separated le_rfl

/-- The row of a call behind its opening parenthesis. -/
structure ShownArguments (k : Nat) (function : String) (call : Term) (gs : Script) : Prop where
  row : call.row = .name function :: .symbol .leftParen :: gs
  legal : Script.Legal gs
  reads : Reads k (fun rules => callArguments rules function) gs (Print.term.marks call) 1
    (Like .spans call)

variable {function : String}

theorem shown_callStar : ShownArguments k function (.callStar function)
    [.symbol .star, .symbol .rightParen] where
  row := by simp [Term.row]
  legal := by simp [Script.legal_cons, Glyph.meets, Glyph.isOpen]
  reads := Reads.eatThen rfl (Reads.expect (Reads.pure rfl))

theorem shown_callEmpty : ShownArguments k function (.call function false [])
    [.symbol .rightParen] where
  row := by simp [Term.row, Expr.rowAll, commaRow, optionalWord]
  legal := by simp
  reads := by
    refine Reads.eatElse (fun _ _ hKind => by cases hKind) ?_
    refine Reads.lookKind (f := fun kind => kind == .symbol .rightParen) true (fun _ _ => rfl) ?_
    exact Reads.expect (Reads.pure rfl)

/-- The arguments of a call behind what is read in front of them. -/
def callList (function : String) (rules : Rules) (distinct : Bool) : Parse Term := do
  let arguments ← separated rules.expr
  expect .rightParen
  return .call function distinct arguments

theorem nodes_call {distinct : Bool} {arguments : List Expr} :
    Print.term.nodes (.call function distinct arguments) =
      .term (.call function distinct arguments) :: Print.expr.commas.nodes arguments :=
  congrArg _ (nodesAll_expressions arguments)

theorem marks_call {distinct : Bool} {arguments : List Expr} :
    Print.term.marks (.call function distinct arguments) = Print.expr.commas.marks arguments := by
  rw [Print.marks, nodes_call]
  rfl

theorem Reads.callList {arguments : List Expr} {gs : Script} {P : List TokenKind → Prop}
    (h : Shown 1 Print.expr.commas (fun rules => separated rules.expr) 11 P arguments gs)
    (distinct : Bool) (hk : 1 ≤ k) :
    Reads k (fun rules => callList function rules distinct) (gs ++ [.symbol .rightParen])
      (Print.term.marks (.call function distinct arguments)) 1
      (Like .spans (Term.call function distinct arguments)) := by
  rw [marks_call]
  refine (h.reads.mono hk le_rfl).bindLast (stops_cons rfl (by decide)) fun es hes => ?_
  refine Reads.expect (Reads.pure ?_)
  simp_all [Like, Erasable.erase, Term.erase]

theorem shown_callList {arguments : List Expr} {distinct : Bool} {gs : Script}
    {P : List TokenKind → Prop}
    (h : Shown 1 Print.expr.commas (fun rules => separated rules.expr) 11 P arguments gs)
    (hP : distinct = false → ∀ ks, P ks → first ks ≠ .symbol .star ∧
      first ks ≠ .symbol .rightParen ∧ first ks ≠ .keyword .DISTINCT) (hk : 1 ≤ k) :
    ShownArguments k function (.call function distinct arguments)
      (optionalWord distinct .DISTINCT ++ (gs ++ [.symbol .rightParen])) where
  row := by
    have hArguments := (rowAll_expressions arguments).trans h.row
    simp [Term.row, hArguments]
  legal := by
    cases distinct <;> simp [optionalWord, h.legal]
  reads := by
    have hStops : Stops 11 1 [.symbol .rightParen] := stops_cons rfl (by decide)
    cases distinct with
    | true =>
      refine Reads.eatElse (fun _ _ hKind => nomatch hKind) ?_
      refine Reads.lookKind (f := fun kind => kind == .symbol .rightParen) false (fun _ _ => rfl) ?_
      exact Reads.eat (m := callList function) rfl (Reads.blank (Reads.callList h true (by omega)))
    | false =>
      have hFirst := (h.leads.append hStops).imp (hP rfl)
      refine Reads.eatElse (hFirst.imp fun ks hks => hks.1) ?_
      refine Reads.lookKind (f := fun kind => kind == .symbol .rightParen) false
        (hFirst.imp fun ks hks => beq_eq_false_iff_ne.mpr hks.2.1) ?_
      exact Reads.eatNone (m := callList function) (hFirst.imp fun ks hks => hks.2.2)
        (Reads.callList h false hk)

/-- The arguments of a call are written as they are read. -/
theorem Known.callArguments (h : Known n) (hs : Room n (k + 1) s) :
    After (callArguments (.upTo n) function) s fun call s' =>
      Legible .term (ShownArguments (k + 1) function call) call s s' := by
  refine After.eatIte (fun t rest hTokens _ => ?_) fun hStar => After.look ?_
  · exact After.expect fun u rest' _ _ => .pure fun _ => ⟨⟨_, shown_callStar⟩, .refl _⟩
  · have hNoStar := hs.current_ne hStar (by simp) (by simp)
    split
    · exact After.expect fun u rest' _ _ => .pure fun _ => ⟨⟨_, shown_callEmpty⟩, .refl _⟩
    · next hSees =>
      have hNoParen : s.current.kind ≠ .symbol .rightParen := by simpa using hSees
      have hList : ∀ (distinct : Bool) (s₀ : State), s₀.scope = s.scope → Room n 1 s₀ →
          (distinct = false → s₀.current.kind ≠ .symbol .star ∧
            s₀.current.kind ≠ .symbol .rightParen ∧ s₀.current.kind ≠ .keyword .DISTINCT) →
          After (callList function (.upTo n) distinct) s₀ fun call s' =>
            Legible .term (ShownArguments (k + 1) function call) call s s' := by
        intro distinct s₀ hScope hs₀ hFirst
        refine After.bind (h.expressions s₀ hs₀) fun arguments s₁ hArguments _ => ?_
        refine After.expect fun u rest' _ _ => .pure fun hOkay => ?_
        rw [Print.Okay, nodes_call] at hOkay
        obtain ⟨⟨gs, hShown⟩, hFollows⟩ := hArguments (okay_cons hOkay)
        refine ⟨⟨_, shown_callList hShown (fun hDistinct ks hks => ?_) (by omega)⟩, ?_⟩
        · obtain ⟨hStar, hParen, hWord⟩ := hFirst hDistinct
          exact ⟨hks.ne hStar rfl, hks.ne hParen rfl, hks.ne hWord rfl⟩
        · rw [marks_call, ← hScope]
          exact hFollows
      refine After.eat (f := callList function (.upTo n))
        (fun t rest hTokens _ => ?_) fun hWord => ?_
      · exact hList true _ rfl ((hs.take hTokens).mono (by omega)) (by simp)
      · refine hList false s rfl (hs.mono (by omega)) fun _ => ⟨hNoStar, hNoParen, ?_⟩
        exact hs.current_ne hWord (by simp) (by simp)

/-! ## Paths -/

theorem Reads.path {names : List String} {m : String} (hm : IsName m)
    (hNames : ∀ part ∈ names, IsName part) :
    Reads k pathOrCall (.name m :: dotted names) [] 1 (Like .spans (Term.path ⟨m, names⟩)) := by
  refine Reads.name hm (Reads.eatElse ?_ ?_)
  · cases names with
    | nil => exact leads_ne (by decide)
    | cons part names => exact fun _ _ hKind => nomatch hKind
  · refine (Reads.dottedRest hNames).bindEnd fun parts hParts => ?_
    rw [hParts]
    exact Reads.pure rfl

/-- How a row starts that is a name with a parenthesis or no further name behind it. -/
theorem opening_path {names : List String} {m : String} (hm : IsName m) :
    Leads 1 (Opening (wordKind m)) (.name m :: dotted names) := by
  intro more hMore
  refine ⟨rfl, fresh_of_isNameKind (isNameKind_wordKind hm), ?_⟩
  rintro ⟨-, hDot, hStar⟩
  cases names with
  | nil =>
    have hLead : Script.lead more = .symbol .dot := by
      rw [Script.lead]
      change (Script.kinds more)[0]? = _ at hDot
      cases hKinds : Script.kinds more with
      | nil => simp [hKinds] at hDot
      | cons kind ks => simpa [hKinds] using hDot
    rw [hLead] at hMore
    cases hMore
  | cons part names =>
    have hKind : wordKind part = .symbol .star := Option.some.inj hStar
    unfold wordKind at hKind
    split at hKind <;> cases hKind

theorem shown_call {call : Term} {gs : Script} (hName : IsName function)
    (h : ShownArguments (k + 2) function call gs) :
    Shown k .term pathOrCall 1 (Opening (wordKind function)) call
      (.name function :: .symbol .leftParen :: gs) where
  row := h.row
  legal := by simpa [h.legal] using hName
  leads _ _ := by
    refine ⟨rfl, fresh_of_isNameKind (isNameKind_wordKind hName), ?_⟩
    rintro ⟨-, hDot, -⟩
    cases hDot
  reads := Reads.name hName (Reads.eatThen rfl h.reads)

/-- A path or a call is written as it is read. -/
theorem Known.pathOrCall (h : Known n) (hs : Room n k s) :
    FaithfulAt n k .term pathOrCall 1 (Opening s.current.kind) s := by
  refine After.name hs fun t rest m hTokens hm hKind => ?_
  rw [State.current_cons hTokens, hKind]
  have hTaken := hs.take hTokens
  refine After.eatIte (fun u rest' hTokens' _ => ?_) fun _ => ?_
  · refine After.imp (h.callArguments (hTaken.take hTokens')) fun call s' hCall hOkay => ?_
    obtain ⟨⟨gs, hShown⟩, hFollows⟩ := hCall hOkay
    exact ⟨⟨_, shown_call hm hShown⟩, hFollows⟩
  · refine (After.dottedRest hTaken).bind ?_
    rintro names s' ⟨hNames, hScope⟩ - hError -
    refine ⟨⟨_, ?_, legal_dotted hm hNames, opening_path hm, Reads.path hm hNames⟩, hScope.symm⟩
    simp [Print.term, Term.row, Path.row]

/-! ## Terms without a sign -/

theorem shown_named {kind : TokenKind} {x : Term} {gs : Script} (hName : isNameKind kind = true)
    (h : Shown k .term pathOrCall 1 (Opening kind) x gs) :
    Shown k .term namedTerm 1 (Opening kind) x gs where
  row := h.row
  legal := h.legal
  leads := h.leads
  reads := by
    refine Reads.look true (fun s more hs hMore => ?_) h.reads
    rw [isSome_nameOf?, hs.current, (h.leads more hMore).head, hName]

/-- A term that starts with a name is written as it is read. -/
theorem Known.namedTerm (h : Known n) (hs : Room n k s) :
    FaithfulAt n k .term namedTerm 1 (Opening s.current.kind) s := by
  refine After.look ?_
  split
  · next hSees =>
    refine After.imp (h.pathOrCall hs) fun x s' hx hOkay => ?_
    obtain ⟨⟨gs, hShown⟩, hFollows⟩ := hx hOkay
    exact ⟨⟨gs, shown_named (isSome_nameOf? s.current ▸ hSees) hShown⟩, hFollows⟩
  · exact After.fail

theorem termOfKind_of_ne {rules : Rules} {kind : TokenKind} (hQuestion : kind ≠ .symbol .question)
    (hAt : kind ≠ .symbol .atSign) (hParen : kind ≠ .symbol .leftParen)
    (hCase : kind ≠ .keyword .CASE) (hCast : kind ≠ .keyword .CAST) :
    termOfKind rules kind = Grammar.namedTerm rules := by
  unfold termOfKind
  split <;> first | rfl | contradiction

/-- A term that is no constant is written as it is read. -/
theorem Known.termOfKind (h : Known n) (hs : Room n k s) {kind : TokenKind}
    (hKind : s.current.kind = kind) :
    FaithfulAt n k .term (fun rules => termOfKind rules kind) 1 (Opening s.current.kind) s := by
  by_cases hQuestion : kind = .symbol .question
  · subst hQuestion
    exact faithful_placeholder hs hKind
  by_cases hAt : kind = .symbol .atSign
  · subst hAt
    exact faithful_namedParameter hs hKind
  by_cases hParen : kind = .symbol .leftParen
  · subst hParen
    exact h.parenthesized hs hKind
  by_cases hCase : kind = .keyword .CASE
  · subst hCase
    exact h.caseTerm hs hKind
  by_cases hCast : kind = .keyword .CAST
  · subst hCast
    exact h.castTerm hs hKind
  simp only [termOfKind_of_ne hQuestion hAt hParen hCase hCast]
  exact h.namedTerm hs

theorem shown_unsignedTerm {kind : TokenKind} {x : Term} {gs : Script}
    (hLiteral : ∀ t : Token, t.kind = kind → literalOf? t = none)
    (h : Shown k .term (fun rules => termOfKind rules kind) 1 (Opening kind) x gs) :
    Shown k .term unsignedTerm 1 (Opening kind) x gs where
  row := h.row
  legal := h.legal
  leads := h.leads
  reads := by
    rw [funext unsignedTerm_eq]
    refine Reads.takeNone (h.leads.imp fun ks hks t ht => ?_) ?_
    · exact hLiteral t (ht.trans hks.head)
    · refine Reads.lookKind (f := id) (m := Grammar.termOfKind) kind ?_ h.reads
      exact h.leads.imp fun ks hks => hks.head

theorem shown_literal {value : Literal} {kind : TokenKind} {g : Glyph}
    (hRow : value.row = [g]) (hKinds : g.kinds = [kind]) (hFits : g.Fits)
    (hName : isNameKind kind = false)
    (hFresh : kind ≠ .keyword .ALL ∧ kind ≠ .keyword .DISTINCT)
    (hLiteral : ∀ t : Token, t.kind = kind → literalOf? t = some value) :
    Shown k .term unsignedTerm 1 (Opening kind) (.literal value) [g] where
  row := by simp [Print.term, Term.row, hRow]
  legal := (Script.legal_singleton g).mpr hFits
  leads more _ := Opening.of_not_name (by simp [hKinds, first]) hName hFresh
  reads := by
    rw [funext unsignedTerm_eq]
    exact Reads.take hKinds (fun t ht _ => hLiteral t ht) (Reads.pure rfl)

/-- A term without a sign is written as it is read. -/
theorem Known.unsignedTerm (h : Known n) (hs : Room n k s) :
    FaithfulAt n k .term unsignedTerm 1 (Opening s.current.kind) s := by
  refine After.of_eq (unsignedTerm_eq _) (After.take (fun t rest value hTokens hValue => ?_) ?_)
  · refine .pure fun hOkay => ?_
    have hFloat : ∀ x, value ≠ .float x := by
      rintro x rfl
      exact hOkay _ List.mem_cons_self
    obtain ⟨g, hChars, hKinds, hFits, hName, hFresh⟩ :=
      exists_glyph_of_literalOf? (hs.bare_head hTokens) hValue hFloat
    have hLiteral : ∀ u : Token, u.kind = t.kind → literalOf? u = some value :=
      fun u hu => (literalOf?_congr hu).trans hValue
    rw [State.current_cons hTokens]
    exact ⟨⟨[g], shown_literal hChars hKinds hFits hName hFresh hLiteral⟩, .refl _⟩
  · intro hNone
    refine After.look (After.imp (h.termOfKind hs rfl) fun x s' hx hOkay => ?_)
    obtain ⟨⟨gs, hShown⟩, hFollows⟩ := hx hOkay
    refine ⟨⟨gs, shown_unsignedTerm (fun t ht => ?_) hShown⟩, hFollows⟩
    cases hTokens : s.tokens with
    | cons u rest =>
      rw [State.current_cons hTokens] at ht
      exact (literalOf?_congr ht).trans (hNone u rest hTokens)
    | nil =>
      rw [State.current_nil hTokens] at ht
      unfold literalOf?
      rcases hs.terminator with hEnd | hEnd
      · rw [ht, hEnd]
      · rw [ht, hEnd]

/-! ## Signs -/

/-- Signs stand in front of terms. -/
theorem leaders_sign : Leaders signOf? (fun negative => .symbol (signSymbol negative))
    fun negative => .symbol (signSymbol negative) where
  kinds _ := rfl
  accepts negative t h := by
    unfold signOf?
    rw [h]
    cases negative <;> rfl
  accepted negative t h := by
    unfold signOf? at h
    split at h
    · next hKind =>
      obtain rfl := Option.some.inj h
      exact hKind
    · next hKind =>
      obtain rfl := Option.some.inj h
      exact hKind
    · cases h
  inside negative := by cases negative <;> simp [signSymbol]

/-- Some signs in a row. -/
def signRow (signs : List Bool) : Script :=
  leadRow (fun negative => .symbol (signSymbol negative)) [] signs

/-- Terms that a sign in front of them changes. -/
def isNumber : Term → Bool
  | .literal (.integer _) | .literal (.float _) => true
  | _ => false

section Number

variable {rules : Rules} {kind : TokenKind}

theorem isNumber_namedParameter : isNumber (namedParameter.run s).1 = false := by
  rw [namedParameter_eq]
  simp only [run_bind, parameterOf]
  split
  · rfl
  · simp only [run_bind]
    split <;> rfl

theorem isNumber_parenthesized : isNumber ((parenthesized rules).run s).1 = false := by
  rw [parenthesized_eq]
  simp only [run_bind, run_pure, between]
  split <;> rfl

theorem isNumber_namedTerm : isNumber ((namedTerm rules).run s).1 = false := by
  simp only [namedTerm, run_bind]
  split
  · simp only [pathOrCall, run_bind]
    split
    · simp only [callArguments, run_bind]
      split
      · rfl
      · simp only [run_bind]
        split <;> rfl
    · rfl
  · rfl

/-- Only a constant is a number. -/
theorem isNumber_termOfKind : isNumber ((termOfKind rules kind).run s).1 = false := by
  unfold termOfKind
  split
  · rfl
  · exact isNumber_namedParameter
  · exact isNumber_parenthesized
  · rw [caseTerm_eq]
    rfl
  · rfl
  · exact isNumber_namedTerm

end Number

/-! ## Terms with signs -/

section Signed

variable {signs : List Bool} {x : Term} {gs : Script} {kind : TokenKind}

theorem foldr_applySign (h : isNumber x = false) :
    signs.foldr applySign x = signs.foldr .signed x ∧
      isNumber (signs.foldr .signed x) = false := by
  induction signs with
  | nil => exact ⟨rfl, h⟩
  | cons negative signs ih =>
    refine ⟨?_, rfl⟩
    rw [List.foldr_cons, ih.1, List.foldr_cons]
    have hNumber := ih.2
    unfold applySign
    split <;> simp_all [isNumber]

theorem row_signed : (signs.foldr Term.signed x).row = signRow signs ++ x.row := by
  induction signs with
  | nil => rfl
  | cons negative signs ih =>
    rw [List.foldr_cons, Term.row, ih]
    rfl

theorem marks_signed : Print.term.marks (signs.foldr .signed x) = Print.term.marks x := by
  induction signs with
  | nil => rfl
  | cons negative signs ih => exact ih

/-- The nodes of a term behind signs. -/
theorem okay_signed (h : Print.term.Okay (signs.foldr .signed x)) : Print.term.Okay x := by
  induction signs with
  | nil => exact h
  | cons negative signs ih => exact ih (okay_cons h)

/-- Signs stand in front of a term that starts with none, but no minus in front of another. -/
theorem legal_signed (h : Script.Legal gs) (hHead : ∀ g ∈ gs.head?, g ≠ .symbol .minus)
    (hOkay : Print.term.Okay (signs.foldr .signed x)) : Script.Legal (signRow signs ++ gs) := by
  induction signs with
  | nil => exact h
  | cons negative signs ih =>
    refine Script.legal_cons.mpr ⟨by cases negative <;> simp [signSymbol], fun g hg => ?_,
      ih (okay_cons hOkay)⟩
    cases negative with
    | false => simp [Glyph.meets, Glyph.allows, signSymbol]
    | true =>
      have hMinus : g ≠ .symbol .minus := by
        cases signs with
        | nil => exact hHead g hg
        | cons negative signs =>
          obtain rfl := Option.some.inj hg
          cases negative with
          | true => exact (hOkay _ List.mem_cons_self).elim
          | false => simp [signSymbol]
      simp [Glyph.meets, Glyph.allows, signSymbol, hMinus]

variable (signs) in
theorem Reads.signed (h : Shown k .term unsignedTerm 1 (Opening kind) x gs)
    (hKind : ∀ negative, kind ≠ .symbol (signSymbol negative)) :
    Reads k Grammar.term (signRow signs ++ gs) (Print.term.marks x) 1
      (Like .spans (signs.foldr applySign x)) := by
  refine Reads.leading
    (m := fun rules signs => signs.foldr applySign <$> Grammar.unsignedTerm rules)
    leaders_sign (Or.inl rfl) (h.leads.imp fun ks hks negative => ?_) (h.reads.map fun y hy => ?_)
  · exact hks.head ▸ hKind negative
  · induction signs with
    | nil => exact hy
    | cons negative signs ih => exact like_applySign negative ih

/-- The kind of token that a row with signs in front of it starts with. -/
def openKind (signs : List Bool) (kind : TokenKind) : TokenKind :=
  match signs with
  | [] => kind
  | negative :: _ => .symbol (signSymbol negative)

variable (signs) in
theorem shown_signed (h : Shown k .term unsignedTerm 1 (Opening kind) x gs)
    (hKind : ∀ negative, kind ≠ .symbol (signSymbol negative))
    (hSame : signs.foldr applySign x = signs.foldr .signed x)
    (hOkay : Print.term.Okay (signs.foldr .signed x)) :
    Shown k .term Grammar.term 1 (Opening (openKind signs kind)) (signs.foldr .signed x)
      (signRow signs ++ gs) where
  row := by
    rw [← h.row]
    exact row_signed
  legal := by
    refine legal_signed h.legal (fun g hg => ?_) hOkay
    rintro rfl
    have hHead := (h.leads [] (by decide)).head
    cases gs with
    | nil => cases hg
    | cons g gs =>
      obtain rfl := Option.some.inj hg
      exact hKind true hHead.symm
  leads := by
    cases signs with
    | nil => exact h.leads
    | cons negative signs =>
      exact fun _ _ => Opening.of_not_name rfl (by cases negative <;> rfl) (by simp [openKind])
  reads := by
    rw [marks_signed, ← hSame]
    exact Reads.signed signs h hKind

/-- A term without a sign is a term. -/
theorem shown_unsigned (h : Shown k .term unsignedTerm 1 (Opening kind) x gs)
    (hKind : ∀ negative, kind ≠ .symbol (signSymbol negative)) :
    Shown k .term Grammar.term 1 (Opening kind) x gs :=
  ⟨h.row, h.legal, h.leads, Reads.signed [] h hKind⟩

theorem ne_of_isNameKind {other : TokenKind} (h : isNameKind kind = true)
    (hOther : isNameKind other = false) : kind ≠ other := by
  rintro rfl
  exact Bool.noConfusion (h.symm.trans hOther)

/-- A path or a call is a term. -/
theorem shown_pathOrCall (hName : isNameKind kind = true)
    (h : Shown k .term pathOrCall 1 (Opening kind) x gs) :
    Shown k .term Grammar.term 1 (Opening kind) x gs := by
  have hKind : (fun rules => termOfKind rules kind) = Grammar.namedTerm := funext fun _ =>
    termOfKind_of_ne (ne_of_isNameKind hName rfl) (ne_of_isNameKind hName rfl)
      (ne_of_isNameKind hName rfl) (ne_of_isNameKind hName rfl) (ne_of_isNameKind hName rfl)
  have hNamed := shown_named hName h
  rw [← hKind] at hNamed
  have hLiteral : ∀ t : Token, t.kind = kind → literalOf? t = none := by
    intro t ht
    cases hValue : literalOf? t with
    | none => rfl
    | some value =>
      rw [← ht, kind_of_literalOf? hValue] at hName
      cases value with
      | boolean value => cases value <;> cases hName
      | _ => cases hName
  exact shown_unsigned (shown_unsignedTerm hLiteral hNamed) fun negative =>
    ne_of_isNameKind hName rfl

/-- A minus in front of the digits of a number is made a part of the number. -/
theorem shown_minus {v w : Literal} {g : Glyph}
    (h : Shown k .term unsignedTerm 1 (Opening kind) (.literal v) [g])
    (hKind : ∀ negative, kind ≠ .symbol (signSymbol negative)) (hGlyph : g ≠ .symbol .minus)
    (hSigned : applySign true (.literal v) = .literal w) (hRow : w.row = [.symbol .minus, g]) :
    Shown k .term Grammar.term 1 (Opening (.symbol .minus)) (.literal w) [.symbol .minus, g] where
  row := hRow
  legal := by
    refine Script.legal_cons.mpr ⟨by simp, fun g' hg => ?_, h.legal⟩
    obtain rfl := Option.some.inj hg
    simp [Glyph.meets, Glyph.allows, hGlyph]
  leads _ _ := Opening.of_not_name rfl rfl (by simp)
  reads := by
    have hReads := Reads.signed [true] h hKind
    rw [List.foldr_cons, List.foldr_nil, hSigned] at hReads
    exact hReads

/-- A number behind signs is written with one minus or none. -/
theorem exists_shown_integer {v w : Int64} (hv : 0 ≤ v.toInt) (hw : w = v ∨ w = -v) :
    ∃ kind gs, Shown k .term Grammar.term 1 (Opening kind) (.literal (.integer w)) gs ∧
      isSigned kind = true := by
  have hGlyph : Shown k .term unsignedTerm 1 (Opening (.integer v)) (.literal (.integer v))
      [.integer v.toInt.toNat] := by
    refine shown_literal ?_ ?_ (toNat_toInt_le v) rfl (by simp) fun t ht => ?_
    · have hAbs : v.toInt.natAbs = v.toInt.toNat := by omega
      rw [Literal.row, integerRow, if_neg (by omega), hAbs]
    · rw [Glyph.kinds, Glyph.integerKind, ofNat_toNat_toInt hv]
    · unfold literalOf?
      rw [ht]
  have hKind : ∀ negative, TokenKind.integer v ≠ .symbol (signSymbol negative) := by simp
  have hPlain := shown_unsigned hGlyph hKind
  rcases hw with rfl | rfl
  · exact ⟨_, _, hPlain, rfl⟩
  by_cases hZero : v.toInt = 0
  · obtain rfl : v = 0 := Int64.toInt_inj.mp hZero
    exact ⟨_, _, hPlain, rfl⟩
  refine ⟨.symbol .minus, _, shown_minus hGlyph hKind (by simp) rfl ?_, rfl⟩
  have hNegative : (-v).toInt = -v.toInt := toInt_neg_of_le (by omega)
  have hAbs : (-v.toInt).natAbs = v.toInt.toNat := by omega
  simp only [Literal.row, integerRow, hNegative, hAbs]
  exact if_pos (by omega)

/-- The number that a number behind signs stands for. -/
def foldSigns (signs : List Bool) (value : Int64) : Int64 :=
  signs.foldr (fun negative value => if negative then -value else value) value

/-- Signs in front of a number change its sign or do not. -/
theorem foldr_applySign_integer (signs : List Bool) (v : Int64) :
    signs.foldr applySign (.literal (.integer v)) = .literal (.integer (foldSigns signs v)) ∧
      (foldSigns signs v = v ∨ foldSigns signs v = -v) := by
  induction signs with
  | nil => exact ⟨rfl, Or.inl rfl⟩
  | cons negative signs ih =>
    obtain ⟨hSame, hValue⟩ := ih
    rw [List.foldr_cons, hSame]
    cases negative with
    | false => exact ⟨rfl, hValue⟩
    | true =>
      have hFold : foldSigns (true :: signs) v = -foldSigns signs v := rfl
      refine ⟨rfl, ?_⟩
      rcases hValue with hValue | hValue
      · exact Or.inr (by rw [hFold, hValue])
      · exact Or.inl (by rw [hFold, hValue, Int64.neg_neg])

theorem foldr_applySign_float (signs : List Bool) (v : Binary64) :
    ∃ w, signs.foldr applySign (.literal (.float v)) = .literal (.float w) := by
  induction signs with
  | nil => exact ⟨v, rfl⟩
  | cons negative signs ih =>
    obtain ⟨w, hSame⟩ := ih
    rw [List.foldr_cons, hSame]
    cases negative <;> exact ⟨_, rfl⟩

end Signed

/-- A number that is read without a sign has none. -/
theorem After.unsignedInteger (hs : Room n k s) :
    After (unsignedTerm (.upTo n)) s fun x _ =>
      ∀ v, x = .literal (.integer v) → 0 ≤ v.toInt := by
  refine After.of_eq (unsignedTerm_eq _) (After.take (fun t rest value hTokens hValue => ?_) ?_)
  · refine .pure ?_
    rintro v ⟨rfl⟩
    exact (hs.bare_head hTokens).integer _ (kind_of_literalOf? hValue)
  · intro _
    refine After.look fun hError v hValue => ?_
    have hNumber : isNumber ((termOfKind (.upTo n) s.current.kind).run s).1 = false :=
      isNumber_termOfKind
    rw [hValue] at hNumber
    cases hNumber

theorem exists_of_isNumber {x : Term} (h : isNumber x = true) :
    (∃ v, x = .literal (.integer v)) ∨ ∃ v, x = .literal (.float v) := by
  unfold isNumber at h
  split at h
  · exact Or.inl ⟨_, rfl⟩
  · exact Or.inr ⟨_, rfl⟩
  · cases h

/-- A term behind at least one sign is written as it is read, except for the signs of numbers. -/
theorem legible_signed {x : Term} {negative : Bool} {signs : List Bool} {s₁ s₂ : State}
    (hKind : s.current.kind = .symbol (signSymbol negative)) (hScope : s₁.scope = s.scope)
    (hEnd : ∀ negative, s₁.current.kind ≠ .symbol (signSymbol negative))
    (hInteger : ∀ v, x = .literal (.integer v) → 0 ≤ v.toInt)
    (hx : Legible .term (Shown k .term unsignedTerm 1 (Opening s₁.current.kind) x) x s₁ s₂) :
    Legible .term
      (Shown k .term Grammar.term 1 (Opens s) ((negative :: signs).foldr applySign x))
      ((negative :: signs).foldr applySign x) s s₂ := by
  intro hOkay
  rw [← hScope]
  cases hNumber : isNumber x with
  | false =>
    have hSame : (negative :: signs).foldr applySign x = _ := (foldr_applySign hNumber).1
    rw [hSame] at hOkay ⊢
    obtain ⟨⟨gs, hShown⟩, hFollows⟩ := hx (okay_signed hOkay)
    refine ⟨⟨_, (shown_signed _ hShown hEnd hSame hOkay).imp fun ks hks => ?_⟩, ?_⟩
    · exact ⟨_, hks, Or.inl hKind.symm⟩
    · rw [marks_signed]
      exact hFollows
  | true =>
    rcases exists_of_isNumber hNumber with ⟨v, rfl⟩ | ⟨v, rfl⟩
    · obtain ⟨hSame, hValue⟩ := foldr_applySign_integer (negative :: signs) v
      obtain ⟨kind, gs, hShown, hSigned⟩ :=
        exists_shown_integer (k := k) (hInteger v rfl) hValue
      obtain ⟨-, hFollows⟩ := hx (by simp [Print.Okay, Print.term, Term.nodes, Node.Plain])
      rw [hSame]
      refine ⟨⟨gs, hShown.imp fun ks hks => ⟨kind, hks, Or.inr ⟨?_, hSigned⟩⟩⟩, hFollows⟩
      rw [hKind]
      cases negative <;> rfl
    · obtain ⟨w, hSame⟩ := foldr_applySign_float (negative :: signs) v
      rw [hSame] at hOkay
      exact (hOkay _ List.mem_cons_self).elim

/-- A term is written as it is read, except for the signs of numbers. -/
theorem Known.term (h : Known n) : Faithful n k .term term 1 Opens := by
  intro s hs
  refine After.bind (After.leading leaders_sign hs) ?_
  rintro signs s₁ ⟨hScope, hEnd, hSigns⟩ hMoves
  have hRoom := hs.moves hMoves
  have hTerm : After (Grammar.unsignedTerm (.upTo n)) s₁ fun x s' =>
      (∀ v, x = .literal (.integer v) → 0 ≤ v.toInt) ∧ Legible .term
        (Shown k .term Grammar.unsignedTerm 1 (Opening s₁.current.kind) x) x s₁ s' :=
    fun hError => ⟨After.unsignedInteger hRoom hError, h.unsignedTerm hRoom hError⟩
  refine hTerm.bind ?_
  rintro x s₂ ⟨hInteger, hx⟩ -
  rcases hSigns with ⟨rfl, rfl⟩ | ⟨negative, signs, rfl, hKind⟩
  · refine .pure fun hOkay => ?_
    obtain ⟨⟨gs, hShown⟩, hFollows⟩ := hx hOkay
    refine ⟨⟨_, (shown_unsigned hShown hEnd).imp fun ks hks => ?_⟩, hFollows⟩
    exact ⟨_, hks, Or.inl rfl⟩
  · exact .pure (legible_signed hKind hScope hEnd hInteger hx)

end SqlKit.Grammar
