import SqlKit.Proofs.Simulation.Basic

/-!
# Recursion takes tokens

The readers of the grammar come back to themselves through `Rules`. Here is shown that they do so
only after a token is taken, whatever was noted before: what a reader does with `n` tokens depends
on its rules only as far as fewer than `n` tokens are left (`SameBelow`). So the recursion needs no
bound. There are rules that satisfy the equations of the grammar (`Rules.Unbounded`), they are the
only ones, and readers that come back to themselves a bounded number of times agree with them as
soon as the bound is above the number of tokens.

Everything is stated for states with an end behind the statement: only a token that is no end is
taken for the start of anything.

* `Rules.SameBelow.next`: one round of the recursion takes a token.
* `Rules.unbounded`, `Rules.Unbounded.unique`: the recursion without a bound.
* `length_chain_le`: one round of a loop takes a token.
-/

namespace SqlKit.Grammar

/-- Two readers that do the same with fewer than `n` tokens. -/
def SameBelow {α : Type} (n : Nat) (m m' : Parse α) : Prop :=
  ∀ s : State, s.terminator.kind.IsEnd → s.tokens.length < n → m.run s = m'.run s

/-- Rules whose readers do the same with fewer than `n` tokens. -/
structure Rules.SameBelow (n : Nat) (rules rules' : Rules) : Prop where
  expr : Grammar.SameBelow n rules.expr rules'.expr
  select : Grammar.SameBelow n rules.select rules'.select
  joinClause : Grammar.SameBelow n rules.joinClause rules'.joinClause

namespace SameBelow

variable {α β : Type} {n : Nat}

theorem refl (m : Parse α) : SameBelow n m m := fun _ _ _ => rfl

theorem mono {m m' : Parse α} {k : Nat} (h : SameBelow n m m') (hk : k ≤ n) : SameBelow k m m' := by
  intro s hEnd hLength
  exact h s hEnd (Nat.lt_of_lt_of_le hLength hk)

theorem less {m m' : Parse α} (h : SameBelow (n + 1) m m') : SameBelow n m m' := h.mono n.le_succ

/-- Readers one behind the other: no token comes back. -/
theorem bind {m m' : Parse α} {f f' : α → Parse β} (h : SameBelow n m m')
    (hf : ∀ a, SameBelow n (f a) (f' a)) : SameBelow n (m >>= f) (m' >>= f') := by
  intro s hEnd hLength
  have hRest := m.length_run_le s
  have hEnd' : (m.run s).2.terminator.kind.IsEnd := (m.moves s).terminator_eq ▸ hEnd
  rw [Parse.run_bind, Parse.run_bind, ← h s hEnd hLength]
  exact hf _ _ hEnd' (by omega)

theorem map {m m' : Parse α} (f : α → β) (h : SameBelow n m m') :
    SameBelow n (f <$> m) (f <$> m') := by
  intro s hEnd hLength
  rw [Parse.run_map, Parse.run_map, h s hEnd hLength]

/-- Readers behind one that is the same. -/
theorem behind (m : Parse α) {f f' : α → Parse β} (hf : ∀ a, SameBelow n (f a) (f' a)) :
    SameBelow n (m >>= f) (m >>= f') := (refl m).bind hf

/-! ### Behind a token -/

/-- Behind a token there are fewer. -/
theorem run_take {f f' : Parse α} (hf : SameBelow n f f') {s : State} {t : Token}
    {rest : List Token} (hTokens : s.tokens = t :: rest) (hEnd : s.terminator.kind.IsEnd)
    (hLength : s.tokens.length < n + 1) : f.run (s.take t rest) = f'.run (s.take t rest) := by
  rw [hTokens, List.length_cons] at hLength
  exact hf (s.take t rest) hEnd (Nat.lt_of_succ_lt_succ hLength)

/-- What is read behind an accepted token, and what is read in place of it. -/
theorem take? {accept : Token → Option α} {f f' : Option α → Parse β}
    (hSome : ∀ a, SameBelow n (f (some a)) (f' (some a)))
    (hNone : SameBelow (n + 1) (f none) (f' none)) :
    SameBelow (n + 1) (Parse.take? accept >>= f) (Parse.take? accept >>= f') := by
  intro s hEnd hLength
  rw [Parse.run_bind, Parse.run_bind]
  cases hTokens : s.tokens with
  | nil =>
    rw [Parse.run_take?_nil hTokens]
    exact hNone s hEnd hLength
  | cons t rest =>
    cases hAccept : accept t with
    | none =>
      rw [Parse.run_take?_none hTokens hAccept]
      exact hNone s hEnd hLength
    | some a =>
      rw [Parse.run_take?_some hTokens hAccept]
      exact (hSome a).run_take hTokens hEnd hLength

/-- What is read behind a token of some kind, and what is read in place of it. -/
theorem eatKind {kind : TokenKind} {f f' : Bool → Parse β} (hTrue : SameBelow n (f true) (f' true))
    (hFalse : SameBelow (n + 1) (f false) (f' false)) :
    SameBelow (n + 1) (Parse.eatKind kind >>= f) (Parse.eatKind kind >>= f') := by
  unfold Parse.eatKind
  rw [bind_assoc, bind_assoc]
  refine take? (fun _ => ?_) ?_
  · exact hTrue
  · exact hFalse

/-- A choice by a token that is taken. -/
theorem ite {kind : TokenKind} {m m' k k' : Parse β} (hThen : SameBelow n m m')
    (hElse : SameBelow (n + 1) k k') :
    SameBelow (n + 1) (Parse.eatKind kind >>= fun b => if b = true then m else k)
      (Parse.eatKind kind >>= fun b => if b = true then m' else k') :=
  eatKind hThen hElse

/-- A choice by a look at the state. -/
theorem choose (c : Parse Bool) {m m' k k' : Parse β} (hThen : SameBelow n m m')
    (hElse : SameBelow n k k') :
    SameBelow n (c >>= fun b => if b = true then m else k)
      (c >>= fun b => if b = true then m' else k') := by
  refine behind c fun b => ?_
  cases b with
  | true => exact hThen
  | false => exact hElse

/-- What is read behind a token that is there. -/
theorem run_advance {f f' : Unit → Parse β} (hf : SameBelow n (f ()) (f' ())) {s : State}
    (hTokens : s.tokens ≠ []) (hEnd : s.terminator.kind.IsEnd) (hLength : s.tokens.length < n + 1) :
    (Parse.advance >>= f).run s = (Parse.advance >>= f').run s := by
  cases hRest : s.tokens with
  | nil => exact absurd hRest hTokens
  | cons t rest =>
    rw [Parse.run_bind, Parse.run_bind, Parse.run_advance_cons hRest]
    exact hf.run_take hRest hEnd hLength

/-! ### Repeating -/

theorem chain {accept : Token → Option α} {item item' : α → Parse β}
    (h : ∀ a, SameBelow n (item a) (item' a)) :
    SameBelow (n + 1) (Parse.chain accept item) (Parse.chain accept item') := by
  intro s hEnd hLength
  show Parse.chainFrom accept item s = Parse.chainFrom accept item' s
  fun_induction Parse.chainFrom accept item s with
  | case1 s hTokens => rw [Parse.chainFrom_nil hTokens]
  | case2 s t rest hTokens hAccept => rw [Parse.chainFrom_none hTokens hAccept]
  | case3 s t rest hTokens a hAccept after more ih =>
    have hItem := (h a).run_take hTokens hEnd hLength
    have hMoves := (Move.take hTokens).moves.trans ((item a).moves (s.take t rest))
    have hLess := hMoves.length_le
    have hMore := ih (hMoves.terminator_eq ▸ hEnd) (Nat.lt_of_le_of_lt hLess hLength)
    rw [Parse.chainFrom_some hTokens hAccept, ← hItem, ← hMore]

theorem chainOf {symbol : Symbol} {item item' : Parse β} (h : SameBelow n item item') :
    SameBelow (n + 1) (Parse.chainOf symbol item) (Parse.chainOf symbol item') := chain fun _ => h

theorem separated {item item' : Parse β} (h : SameBelow (n + 1) item item') :
    SameBelow (n + 1) (Parse.separated item) (Parse.separated item') :=
  h.bind fun _ => (chainOf h.less).bind fun _ => refl _

/-! ### Parts of statements -/

theorem after {word : Keyword} {item item' : Parse β} (h : SameBelow n item item') :
    SameBelow (n + 1) (Parse.after word item) (Parse.after word item') :=
  ite (h.bind fun _ => refl _) (refl _)

theorem spanned {item item' : Parse (Span → β)} (h : SameBelow n item item') :
    SameBelow n (Parse.spanned item) (Parse.spanned item') :=
  behind _ fun _ => h.bind fun _ => refl _

/-- Between an opening and a closing token. -/
theorem enclosed {front back : Parse Unit} {item item' : Parse β} (h : SameBelow n item item') :
    SameBelow n (do front; let x ← item; back; return x)
      (do front; let x ← item'; back; return x) :=
  behind _ fun _ => h.bind fun _ => refl _

end SameBelow

open SameBelow

variable {n : Nat} {rules rules' : Rules}

/-! ## Terms -/

theorem sameBelow_callArguments (h : rules.SameBelow n rules') (function : String) :
    SameBelow n (callArguments rules function) (callArguments rules' function) := by
  refine choose _ (refl _) (choose _ (refl _) (behind _ fun _ => ?_))
  have hAll : SameBelow n (Parse.separated rules.expr) (Parse.separated rules'.expr) :=
    h.expr.bind fun _ => (chainOf h.expr).less.bind fun _ => refl _
  exact hAll.bind fun _ => refl _

theorem sameBelow_pathOrCall (h : rules.SameBelow n rules') :
    SameBelow (n + 1) (pathOrCall rules) (pathOrCall rules') :=
  behind _ fun first => ite (sameBelow_callArguments h first) (refl _)

theorem sameBelow_branch (h : rules.SameBelow n rules') :
    SameBelow n (branch rules) (branch rules') :=
  h.expr.bind fun _ => behind _ fun _ => h.expr.bind fun _ => refl _

theorem sameBelow_caseBranches (h : rules.SameBelow n rules') :
    SameBelow n (caseBranches rules) (caseBranches rules') := by
  have hBranches : SameBelow n (Parse.chain whenAccept fun _ => branch rules)
      (Parse.chain whenAccept fun _ => branch rules') :=
    (chain fun _ => sameBelow_branch h).less
  exact choose _ hBranches (behind _ fun _ => hBranches)

section Terms

variable {s : State} (h : rules.SameBelow n rules') (hTokens : s.tokens ≠ [])
  (hEnd : s.terminator.kind.IsEnd) (hLength : s.tokens.length < n + 1)

include h hTokens hEnd hLength

theorem run_caseTerm : (caseTerm rules).run s = (caseTerm rules').run s := by
  rw [caseTerm_eq]
  refine run_advance ?_ hTokens hEnd hLength
  have hOperand : SameBelow n (caseOperand rules) (caseOperand rules') :=
    choose _ (refl _) (h.expr.map _)
  have hOtherwise : SameBelow n (Parse.after .ELSE rules.expr) (Parse.after .ELSE rules'.expr) :=
    (after h.expr).less
  exact hOperand.bind fun _ => (sameBelow_caseBranches h).bind fun _ => hOtherwise.bind
    fun _ => refl _

theorem run_castTerm : (castTerm rules).run s = (castTerm rules').run s := by
  refine run_advance ?_ hTokens hEnd hLength
  exact behind _ fun _ => h.expr.bind fun _ => refl _

theorem run_parenthesized : (parenthesized rules).run s = (parenthesized rules').run s := by
  refine run_advance (behind _ fun query => ?_) hTokens hEnd hLength
  cases query with
  | true => exact (h.select.map _).bind fun _ => refl _
  | false => exact (h.expr.map _).bind fun _ => refl _

end Terms

theorem sameBelow_namedTerm (h : rules.SameBelow n rules') :
    SameBelow (n + 1) (namedTerm rules) (namedTerm rules') :=
  choose _ (sameBelow_pathOrCall h) (refl _)

/-- The kinds that a term starts with are no ends of a statement. -/
theorem tokens_ne_nil {s : State} (hEnd : s.terminator.kind.IsEnd)
    (hKind : ¬ s.current.kind.IsEnd) : s.tokens ≠ [] := by
  intro hTokens
  rw [State.current_nil hTokens] at hKind
  exact hKind hEnd

theorem sameBelow_unsignedTerm (h : rules.SameBelow n rules') :
    SameBelow (n + 1) (unsignedTerm rules) (unsignedTerm rules') := by
  rw [unsignedTerm_eq, unsignedTerm_eq]
  refine SameBelow.take? (fun _ => refl _) fun s hEnd hLength => ?_
  have hThere : ∀ kind, s.current.kind = kind → ¬ kind.IsEnd → s.tokens ≠ [] := by
    rintro _ rfl hKind
    exact tokens_ne_nil hEnd hKind
  show (termOfKind rules s.current.kind).run s = (termOfKind rules' s.current.kind).run s
  unfold termOfKind
  split
  · rfl
  · rfl
  · next hKind =>
      exact run_parenthesized h (hThere _ hKind (by simp [TokenKind.IsEnd])) hEnd hLength
  · next hKind => exact run_caseTerm h (hThere _ hKind (by simp [TokenKind.IsEnd])) hEnd hLength
  · next hKind => exact run_castTerm h (hThere _ hKind (by simp [TokenKind.IsEnd])) hEnd hLength
  · exact sameBelow_namedTerm h s hEnd hLength

theorem sameBelow_term (h : rules.SameBelow n rules') :
    SameBelow (n + 1) (term rules) (term rules') :=
  behind _ fun _ => (sameBelow_unsignedTerm h).bind fun _ => refl _

/-! ## Operands and conditions -/

theorem sameBelow_product (h : rules.SameBelow n rules') :
    SameBelow (n + 1) (product rules) (product rules') :=
  (sameBelow_term h).bind fun _ => (chain fun _ => (sameBelow_term h).less.map _).bind
    fun _ => refl _

theorem sameBelow_sum (h : rules.SameBelow n rules') :
    SameBelow (n + 1) (sum rules) (sum rules') :=
  (sameBelow_product h).bind fun _ => (chain fun _ => (sameBelow_product h).less.map _).bind
    fun _ => refl _

theorem sameBelow_operand (h : rules.SameBelow n rules') :
    SameBelow (n + 1) (operand rules) (operand rules') :=
  (sameBelow_sum h).bind fun _ => (chainOf (sameBelow_sum h).less).bind fun _ => refl _

theorem sameBelow_membership (h : rules.SameBelow n rules') (left : Operand) (negated : Bool) :
    SameBelow n (membership rules left negated) (membership rules' left negated) := by
  have hAll : SameBelow n (Parse.separated rules.expr) (Parse.separated rules'.expr) :=
    h.expr.bind fun _ => (chainOf h.expr).less.bind fun _ => refl _
  refine behind _ fun _ => behind _ fun query => behind _ fun empty => ?_
  cases query with
  | true => exact (h.select.map _).bind fun _ => refl _
  | false =>
    cases empty with
    | true => exact refl _
    | false => exact (hAll.map _).bind fun _ => refl _

theorem sameBelow_identity (h : rules.SameBelow n rules') (left : Operand) :
    SameBelow (n + 1) (identity rules left) (identity rules' left) :=
  behind _ fun _ => ite (refl _) ((sameBelow_operand h).bind fun _ => refl _)

theorem sameBelow_test (h : rules.SameBelow n rules') (left : Operand) :
    SameBelow (n + 1) (test rules left) (test rules' left) := by
  have hOperand := sameBelow_operand h
  refine SameBelow.take? (fun _ => hOperand.less.bind fun _ => refl _) ?_
  refine ite (sameBelow_identity h left).less (behind _ fun negated => ?_)
  refine ite (hOperand.less.bind fun _ => behind _ fun _ => hOperand.less.bind fun _ => refl _) ?_
  refine ite (sameBelow_membership h left negated) ?_
  refine ite (hOperand.less.bind fun _ => (after hOperand.less).less.bind fun _ => refl _) ?_
  exact ite (hOperand.less.bind fun _ => refl _) (refl _)

theorem sameBelow_plainCondition (h : rules.SameBelow n rules') :
    SameBelow (n + 1) (plainCondition rules) (plainCondition rules') :=
  ite (behind _ fun _ => h.select.bind fun _ => refl _)
    ((sameBelow_operand h).bind fun left => sameBelow_test h left)

theorem sameBelow_condition (h : rules.SameBelow n rules') :
    SameBelow (n + 1) (condition rules) (condition rules') :=
  behind _ fun _ => (sameBelow_plainCondition h).bind fun _ => refl _

theorem sameBelow_conjunction (h : rules.SameBelow n rules') :
    SameBelow (n + 1) (conjunction rules) (conjunction rules') :=
  (sameBelow_condition h).bind fun _ => (chain fun _ => (sameBelow_condition h).less).bind
    fun _ => refl _

theorem sameBelow_expr (h : rules.SameBelow n rules') :
    SameBelow (n + 1) (expr rules) (expr rules') :=
  (sameBelow_conjunction h).bind fun _ => (chain fun _ => (sameBelow_conjunction h).less).bind
    fun _ => refl _

/-! ## Sources -/

theorem sameBelow_parenthesizedSource (h : rules.SameBelow n rules') :
    SameBelow n (parenthesizedSource rules) (parenthesizedSource rules') :=
  choose _ (h.select.bind fun _ => refl _) (h.joinClause.bind fun _ => refl _)

theorem sameBelow_source (h : rules.SameBelow n rules') :
    SameBelow (n + 1) (source rules) (source rules') :=
  ite (sameBelow_parenthesizedSource h) (refl _)

theorem sameBelow_joinConstraint (h : rules.SameBelow n rules') :
    SameBelow (n + 1) (joinConstraint rules) (joinConstraint rules') :=
  ite ((sameBelow_expr h).less.bind fun _ => refl _) (refl _)

theorem sameBelow_joinedSource (h : rules.SameBelow n rules') (start : JoinStart) :
    SameBelow (n + 1) (joinedSource rules start) (joinedSource rules' start) :=
  behind _ fun _ => (sameBelow_source h).bind fun _ => (sameBelow_joinConstraint h).bind
    fun _ => refl _

theorem sameBelow_joinClause (h : rules.SameBelow n rules') :
    SameBelow (n + 1) (joinClause rules) (joinClause rules') :=
  (sameBelow_source h).bind fun _ => (chain fun start => (sameBelow_joinedSource h start).less).bind
    fun _ => refl _

/-! ## Queries -/

theorem sameBelow_resultColumn (h : rules.SameBelow n rules') :
    SameBelow (n + 1) (resultColumn rules) (resultColumn rules') :=
  ite (refl _) (choose _ (refl _) ((sameBelow_expr h).bind fun _ => refl _))

theorem sameBelow_valueRow (h : rules.SameBelow n rules') :
    SameBelow (n + 1) (valueRow rules) (valueRow rules') :=
  behind _ fun _ => (separated (sameBelow_expr h)).bind fun _ => refl _

theorem sameBelow_groupBy (h : rules.SameBelow n rules') :
    SameBelow (n + 1) (groupBy rules) (groupBy rules') :=
  ite (behind _ fun _ => (separated (sameBelow_expr h)).less) (refl _)

theorem sameBelow_body (h : rules.SameBelow n rules') :
    SameBelow (n + 1) (body rules) (body rules') := by
  have hExpr := sameBelow_expr h
  refine ite ((separated (sameBelow_valueRow h)).less.bind fun _ => refl _) ?_
  refine behind _ fun _ => behind _ fun _ => ?_
  exact (separated (sameBelow_resultColumn h)).bind fun _ =>
    (after (sameBelow_joinClause h).less).bind fun _ => (after hExpr.less).bind fun _ =>
    (sameBelow_groupBy h).bind fun _ => (after hExpr.less).bind fun _ => refl _

theorem sameBelow_compound (h : rules.SameBelow n rules') (operator : SetOperator) :
    SameBelow (n + 1) (compound rules operator) (compound rules' operator) := by
  have hBody : ∀ operator : SetOperator, SameBelow (n + 1)
      (do return (operator, ← body rules)) (do return (operator, ← body rules')) :=
    fun operator => (sameBelow_body h).bind fun _ => refl _
  unfold compound
  split
  · refine behind _ fun all => ?_
    cases all with
    | true => exact hBody .unionAll
    | false => exact hBody .union
  · exact hBody operator

theorem sameBelow_bodies (h : rules.SameBelow n rules') :
    SameBelow (n + 1) (bodies rules) (bodies rules') :=
  (sameBelow_body h).bind fun _ => (chain fun operator => (sameBelow_compound h operator).less).bind
    fun _ => refl _

theorem sameBelow_commonTable (h : rules.SameBelow n rules') :
    SameBelow n (commonTable rules) (commonTable rules') :=
  behind _ fun _ => behind _ fun _ => behind _ fun _ => behind _ fun _ => h.select.bind
    fun _ => refl _

theorem sameBelow_orderTerm (h : rules.SameBelow n rules') :
    SameBelow (n + 1) (orderTerm rules) (orderTerm rules') :=
  (sameBelow_expr h).bind fun _ => refl _

theorem sameBelow_orderBy (h : rules.SameBelow n rules') :
    SameBelow (n + 1) (orderBy rules) (orderBy rules') :=
  ite (behind _ fun _ => (separated (sameBelow_orderTerm h)).less) (refl _)

theorem sameBelow_limit (h : rules.SameBelow n rules') :
    SameBelow (n + 1) (limit rules) (limit rules') := by
  have hExpr := (sameBelow_expr h).less
  refine ite (hExpr.bind fun _ => ?_) (refl _)
  refine behind _ fun hasOffset => ?_
  cases hasOffset with
  | true => exact hExpr.bind fun _ => refl _
  | false => exact choose _ (hExpr.bind fun _ => refl _) (refl _)

theorem sameBelow_select (h : rules.SameBelow n rules') :
    SameBelow (n + 1) (select rules) (select rules') := by
  have hParts : ∀ (recursive : Bool) (tables : List CommonTable), SameBelow (n + 1)
      (do
        let bodies ← bodies rules
        let orderBy ← orderBy rules
        let limit ← limit rules
        return fun span => (⟨recursive, tables, bodies, orderBy, limit, span⟩ : Select))
      (do
        let bodies ← bodies rules'
        let orderBy ← orderBy rules'
        let limit ← limit rules'
        return fun span => (⟨recursive, tables, bodies, orderBy, limit, span⟩ : Select)) :=
    fun recursive tables => (sameBelow_bodies h).bind fun _ => (sameBelow_orderBy h).bind
      fun _ => (sameBelow_limit h).bind fun _ => refl _
  have hTables : SameBelow n (Parse.separated (commonTable rules))
      (Parse.separated (commonTable rules')) :=
    (sameBelow_commonTable h).bind fun _ => (chainOf (sameBelow_commonTable h)).less.bind
      fun _ => refl _
  refine spanned (eatKind ?_ (hParts false []))
  exact behind _ fun recursive => hTables.bind fun tables => (hParts recursive tables).less

/-- The readers that come back to themselves through `rules`. -/
def Rules.next (rules : Rules) : Rules where
  expr := Grammar.expr rules
  select := Grammar.select rules
  joinClause := Grammar.joinClause rules

/-- **One round of the recursion takes a token.** Rules that do the same with fewer than `n` tokens
make readers that do the same with one token more. -/
theorem Rules.SameBelow.next (h : rules.SameBelow n rules') :
    rules.next.SameBelow (n + 1) rules'.next :=
  ⟨sameBelow_expr h, sameBelow_select h, sameBelow_joinClause h⟩

/-! ## Other statements -/

theorem sameBelow_checkCondition (h : rules.SameBelow n rules') :
    SameBelow (n + 1) (checkCondition rules) (checkCondition rules') :=
  enclosed (sameBelow_expr h)

theorem sameBelow_columnRest (h : rules.SameBelow n rules') (name : String) (first : Span) :
    SameBelow (n + 1) (columnRest rules name first) (columnRest rules' name first) := by
  refine behind _ fun _ => (after (sameBelow_term h).less).bind fun _ => ?_
  refine behind _ fun _ => behind _ fun _ => behind _ fun _ => behind _ fun _ => ?_
  exact (after (sameBelow_checkCondition h).less).bind fun _ => refl _

theorem sameBelow_columnDefinition (h : rules.SameBelow n rules') :
    SameBelow (n + 1) (columnDefinition rules) (columnDefinition rules') :=
  behind _ fun _ => behind _ fun name => sameBelow_columnRest h name _

theorem sameBelow_demand (h : rules.SameBelow n rules') :
    SameBelow (n + 1) (demand rules) (demand rules') :=
  ite (refl _) (ite (refl _) (ite ((sameBelow_checkCondition h).less.bind fun _ => refl _)
    (refl _)))

theorem sameBelow_tableConstraint (h : rules.SameBelow n rules') :
    SameBelow (n + 1) (tableConstraint rules) (tableConstraint rules') :=
  spanned (behind _ fun _ => (sameBelow_demand h).bind fun _ => refl _)

theorem sameBelow_tableElement (h : rules.SameBelow n rules') :
    SameBelow (n + 1) (tableElement rules) (tableElement rules') :=
  choose _ ((sameBelow_columnDefinition h).bind fun _ => refl _)
    ((sameBelow_tableConstraint h).bind fun _ => refl _)

theorem sameBelow_tableElements (h : rules.SameBelow n rules') :
    SameBelow (n + 1) (tableElements rules) (tableElements rules') :=
  choose _ ((separated (sameBelow_tableElement h)).bind fun _ => refl _) (refl _)

theorem sameBelow_createTable (h : rules.SameBelow n rules') :
    SameBelow (n + 1) (createTable rules) (createTable rules') :=
  spanned (behind _ fun _ => behind _ fun _ => behind _ fun _ => behind _ fun _ => behind _ fun _ =>
    (sameBelow_tableElements h).bind fun _ => refl _)

theorem sameBelow_addition (h : rules.SameBelow n rules') :
    SameBelow (n + 1) (addition rules) (addition rules') :=
  choose _ ((sameBelow_tableConstraint h).bind fun _ => refl _)
    (behind _ fun _ => (sameBelow_columnDefinition h).bind fun _ => refl _)

theorem sameBelow_columnChange (h : rules.SameBelow n rules') (column : String) (first : Span) :
    SameBelow (n + 1) (columnChange rules column first) (columnChange rules' column first) := by
  refine ite (refl _) (ite ?_ (ite (refl _) ?_))
  · exact choose _ ((sameBelow_term h).less.bind fun _ => refl _) (refl _)
  · exact (sameBelow_columnRest h column first).bind fun _ => refl _

theorem sameBelow_alteration (h : rules.SameBelow n rules') :
    SameBelow (n + 1) (alteration rules) (alteration rules') := by
  have hBehind : SameBelow (n + 1)
      (do
        let first := (← Parse.current).span
        let column ← Parse.name .column
        return AlterAction.alterColumn column (← columnChange rules column first))
      (do
        let first := (← Parse.current).span
        let column ← Parse.name .column
        return AlterAction.alterColumn column (← columnChange rules' column first)) :=
    behind _ fun _ => behind _ fun column => (sameBelow_columnChange h column _).bind fun _ =>
      refl _
  refine behind _ fun seen => behind _ fun next => ?_
  split
  · exact behind _ fun _ => hBehind
  · exact hBehind

theorem sameBelow_alterAction (h : rules.SameBelow n rules') :
    SameBelow (n + 1) (alterAction rules) (alterAction rules') :=
  ite (sameBelow_addition h).less (ite (sameBelow_alteration h).less (refl _))

theorem sameBelow_alterTable (h : rules.SameBelow n rules') :
    SameBelow (n + 1) (alterTable rules) (alterTable rules') :=
  spanned (behind _ fun _ => behind _ fun _ => behind _ fun _ => (sameBelow_alterAction h).bind
    fun _ => refl _)

theorem sameBelow_insertSource (h : rules.SameBelow n rules') :
    SameBelow (n + 1) (insertSource rules) (insertSource rules') :=
  ite ((separated (sameBelow_valueRow h)).less.bind fun _ => refl _)
    (ite (refl _) ((sameBelow_select h).bind fun _ => refl _))

theorem sameBelow_insert (h : rules.SameBelow n rules') :
    SameBelow (n + 1) (insert rules) (insert rules') :=
  spanned (behind _ fun _ => behind _ fun _ => behind _ fun _ => behind _ fun _ =>
    (sameBelow_insertSource h).bind fun _ => refl _)

theorem sameBelow_assignment (h : rules.SameBelow n rules') :
    SameBelow (n + 1) (assignment rules) (assignment rules') :=
  behind _ fun _ => behind _ fun _ => (sameBelow_expr h).bind fun _ => refl _

theorem sameBelow_update (h : rules.SameBelow n rules') :
    SameBelow (n + 1) (update rules) (update rules') :=
  spanned (behind _ fun _ => behind _ fun _ => behind _ fun _ => behind _ fun _ =>
    (separated (sameBelow_assignment h)).bind fun _ => (after (sameBelow_expr h).less).bind
    fun _ => refl _)

theorem sameBelow_delete (h : rules.SameBelow n rules') :
    SameBelow (n + 1) (delete rules) (delete rules') :=
  spanned (behind _ fun _ => behind _ fun _ => behind _ fun _ =>
    (after (sameBelow_expr h).less).bind fun _ => refl _)

theorem sameBelow_statement (h : rules.SameBelow n rules') :
    SameBelow (n + 1) (statement rules) (statement rules') := by
  refine SameBelow.bind (behind _ fun kind => ?_) fun _ => refl _
  split
  · exact (sameBelow_createTable h).map _
  · exact (sameBelow_alterTable h).map _
  · exact refl _
  · exact (sameBelow_insert h).map _
  · exact (sameBelow_insert h).map _
  · exact (sameBelow_update h).map _
  · exact (sameBelow_delete h).map _
  · exact (sameBelow_select h).map _

/-! ## Recursion without a bound -/

namespace SameBelow

variable {α : Type}

theorem symm {m m' : Parse α} (h : SameBelow n m m') : SameBelow n m' m :=
  fun s hEnd hLength => (h s hEnd hLength).symm

theorem trans {m m' m'' : Parse α} (h : SameBelow n m m') (h' : SameBelow n m' m'') :
    SameBelow n m m'' :=
  fun s hEnd hLength => (h s hEnd hLength).trans (h' s hEnd hLength)

theorem zero (m m' : Parse α) : SameBelow 0 m m' :=
  fun _ _ hLength => absurd hLength (Nat.not_lt_zero _)

end SameBelow

namespace Rules

namespace SameBelow

theorem symm (h : rules.SameBelow n rules') : rules'.SameBelow n rules :=
  ⟨h.expr.symm, h.select.symm, h.joinClause.symm⟩

theorem trans {rules'' : Rules} (h : rules.SameBelow n rules') (h' : rules'.SameBelow n rules'') :
    rules.SameBelow n rules'' :=
  ⟨h.expr.trans h'.expr, h.select.trans h'.select, h.joinClause.trans h'.joinClause⟩

theorem zero (rules rules' : Rules) : rules.SameBelow 0 rules' :=
  ⟨.zero _ _, .zero _ _, .zero _ _⟩

end SameBelow

/-- Readers that come back to themselves through themselves, as often as it takes. -/
def Unbounded (rules : Rules) : Prop := ∀ n, rules.SameBelow n rules.next

/-- There is at most one way to come back without a bound. -/
theorem Unbounded.unique (h : rules.Unbounded) (h' : rules'.Unbounded) (n : Nat) :
    rules.SameBelow n rules' := by
  induction n with
  | zero => exact .zero rules rules'
  | succ n ih => exact (h (n + 1)).trans (ih.next.trans (h' (n + 1)).symm)

/-- Bounds above the number of tokens are never used up. -/
theorem sameBelow_upTo {depth depth' : Nat} (h : n ≤ depth) (h' : n ≤ depth') :
    (upTo depth).SameBelow n (upTo depth') := by
  induction n generalizing depth depth' with
  | zero => exact .zero _ _
  | succ n ih =>
    obtain ⟨depth, rfl⟩ := Nat.exists_eq_add_of_le' h
    obtain ⟨depth', rfl⟩ := Nat.exists_eq_add_of_le' h'
    have hSame : (upTo (depth + n)).SameBelow n (upTo (depth' + n)) := ih (by omega) (by omega)
    exact hSame.next

/-- The reader that starts with a bound above the number of tokens. -/
def limit {α : Type} (reader : Nat → Parse α) : Parse α where
  run s := (reader (s.tokens.length + 1)).run s
  moves s := (reader (s.tokens.length + 1)).moves s

/-- The readers of the grammar, without a bound. -/
def unbounded : Rules where
  expr := limit fun depth => (upTo depth).expr
  select := limit fun depth => (upTo depth).select
  joinClause := limit fun depth => (upTo depth).joinClause

/-- With few tokens the readers without a bound do the same as those with a large one. -/
theorem sameBelow_unbounded {depth : Nat} (h : n ≤ depth) :
    unbounded.SameBelow n (upTo depth) := by
  have hSame : ∀ s : State, s.tokens.length < n →
      (upTo (s.tokens.length + 1)).SameBelow (s.tokens.length + 1) (upTo depth) :=
    fun s hLength => sameBelow_upTo (Nat.le_refl _) (by omega)
  refine ⟨?_, ?_, ?_⟩
  · intro s hEnd hLength
    exact (hSame s hLength).expr s hEnd (Nat.lt_succ_self _)
  · intro s hEnd hLength
    exact (hSame s hLength).select s hEnd (Nat.lt_succ_self _)
  · intro s hEnd hLength
    exact (hSame s hLength).joinClause s hEnd (Nat.lt_succ_self _)

theorem unbounded_unbounded : unbounded.Unbounded := by
  intro n
  cases n with
  | zero => exact .zero _ _
  | succ n =>
    have hNext : unbounded.next.SameBelow (n + 1) (upTo (n + 1)) :=
      (sameBelow_unbounded (Nat.le_refl n)).next
    exact (sameBelow_unbounded (Nat.le_refl (n + 1))).trans hNext.symm

/-- Rules whose readers fail. -/
def failing : Rules where
  expr := Parse.fail .expression >>= fun _ => Rules.exhausted.expr
  select := Parse.fail .expression >>= fun _ => Rules.exhausted.select
  joinClause := Parse.fail .expression >>= fun _ => Rules.exhausted.joinClause

/-- Rules that fail in place of those at the bound of the recursion do the same. What is true of
failing rules, and of the next ones if it is of any, is true of them. -/
theorem exists_sameBelow {P : Rules → Prop} (hFail : P .failing)
    (hNext : ∀ rules : Rules, P rules → P rules.next) {n depth : Nat} (h : n ≤ depth) :
    ∃ rules : Rules, P rules ∧ rules.SameBelow n (.upTo depth) := by
  induction n generalizing depth with
  | zero => exact ⟨.failing, hFail, .zero _ _⟩
  | succ n ih =>
    obtain ⟨depth, rfl⟩ := Nat.exists_eq_add_of_le' h
    obtain ⟨rules, hRules, hSame⟩ := ih (Nat.le_add_left n depth)
    exact ⟨rules.next, hNext rules hRules, hSame.next⟩

end Rules

/-- Each round of a loop takes a token. -/
theorem length_chain_le {α β : Type} (accept : Token → Option β) (item : β → Parse α) (s : State) :
    ((Parse.chain accept item).run s).1.length + ((Parse.chain accept item).run s).2.tokens.length ≤
      s.tokens.length := by
  show (Parse.chainFrom accept item s).1.length + (Parse.chainFrom accept item s).2.tokens.length ≤
    s.tokens.length
  fun_induction Parse.chainFrom accept item s with
  | case1 s => exact Nat.le_of_eq (Nat.zero_add _)
  | case2 s => exact Nat.le_of_eq (Nat.zero_add _)
  | case3 s t rest hTokens b hAccept after more ih =>
    have hItem : after.2.tokens.length ≤ rest.length := (item b).length_run_le (s.take t rest)
    have hMore : more.1.length + more.2.tokens.length ≤ after.2.tokens.length := ih
    rw [hTokens, List.length_cons, List.length_cons]
    show more.1.length + 1 + more.2.tokens.length ≤ rest.length + 1
    omega

end SqlKit.Grammar
