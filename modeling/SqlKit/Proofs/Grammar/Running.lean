import SqlKit.Grammar.Statement
import SqlKit.Proofs.Syntax.Erasure

/-!
# How readers run

Equations for the building blocks of readers, for a state whose next token is known. Arguments about
readers use these and leave the definitions closed.
-/

namespace SqlKit.Grammar

namespace State

theorem current_nil {s : State} (h : s.tokens = []) : s.current = s.terminator := by
  simp [current, h]

theorem current_cons {s : State} {t : Token} {rest : List Token} (h : s.tokens = t :: rest) :
    s.current = t := by simp [current, h]

theorem atEnd_of_nil {s : State} (hTokens : s.tokens = []) :
    s.atEnd = endsStatement s.terminator := by rw [atEnd, current_nil hTokens]

/-- At an end, with no end among the tokens, no token is left. -/
theorem tokens_of_atEnd {s : State} (hInside : ∀ t ∈ s.tokens, endsStatement t = false)
    (hEnd : s.atEnd = true) : s.tokens = [] := by
  cases hTokens : s.tokens with
  | nil => rfl
  | cons t rest =>
    rw [atEnd, current_cons hTokens, hInside t (hTokens ▸ List.mem_cons_self)] at hEnd
    cases hEnd

/-- The error of a state is an old one, or else the one that is noted. -/
theorem mem_error_note {s : State} {e e' : ParseError} (h : (s.note e).error = some e') :
    s.error = some e' ∨ s.error = none ∧ e' = e := by
  rw [error_note] at h
  cases hOld : s.error with
  | none =>
    rw [hOld] at h
    exact .inr ⟨rfl, (Option.some.inj h).symm⟩
  | some old =>
    rw [hOld] at h
    exact .inl h

end State

/-- Behind a statement without error no token is left, if none of those in front of it is an end. -/
theorem tokens_statement (rules : Rules) {s : State}
    (hInside : ∀ t ∈ s.tokens, endsStatement t = false)
    (hError : ((statement rules).run s).2.error = none) :
    ((statement rules).run s).2.tokens = [] := by
  have hSuffix := ((statement rules).moves s).suffix
  exact State.tokens_of_atEnd (fun t ht => hInside t (hSuffix.subset ht))
    (atEnd_statement rules (State.error_eq_none.mp hError))

/-- What moves take is the front of the tokens, and the place of the token taken last is kept. -/
theorem Moves.exists_taken {s s' : State} (h : Moves s s') :
    ∃ ts, s.tokens = ts ++ s'.tokens ∧
    s'.previous = (ts.getLast?.map Token.span).getD s.previous := by
  induction h with
  | refl => exact ⟨[], rfl, rfl⟩
  | tail _ m ih =>
    obtain ⟨ts, hTokens, hPrevious⟩ := ih
    cases m with
    | @take t rest hTake =>
      refine ⟨ts ++ [t], ?_, by simp [State.take]⟩
      rw [hTokens, hTake, List.append_assoc, List.singleton_append]
      rfl
    | unexpected | untyped =>
      exact ⟨ts, by rw [State.note_tokens, hTokens], by rw [State.note_previous, hPrevious]⟩
    | declare | countPlaceholder => exact ⟨ts, hTokens, hPrevious⟩

namespace Parse

variable {α β : Type} {s : State} {t : Token} {rest : List Token}

@[simp] theorem run_look (f : State → α) : (look f).run s = (f s, s) := rfl

@[simp] theorem run_map (f : α → β) (m : Parse α) :
    (f <$> m).run s = (f (m.run s).1, (m.run s).2) := rfl

/-! ## Taking -/

theorem run_take?_nil {accept : Token → Option α} (h : s.tokens = []) :
    (take? accept).run s = (none, s) := by
  simp only [take?, h]

theorem run_take?_none {accept : Token → Option α} (h : s.tokens = t :: rest)
    (hAccept : accept t = none) : (take? accept).run s = (none, s) := by
  simp only [take?, h, hAccept]

theorem run_take?_some {accept : Token → Option α} {a : α} (h : s.tokens = t :: rest)
    (hAccept : accept t = some a) : (take? accept).run s = (some a, s.take t rest) := by
  simp only [take?, h, hAccept]

theorem run_advance_cons (h : s.tokens = t :: rest) : advance.run s = ((), s.take t rest) := by
  simp only [advance, run_bind]
  rw [run_take?_some (a := ()) h rfl]
  rfl

theorem run_eatKind_cons {kind : TokenKind} (h : s.tokens = t :: rest) (hKind : t.kind = kind) :
    (eatKind kind).run s = (true, s.take t rest) := by
  simp only [eatKind, run_bind]
  rw [run_take?_some (a := ()) h (if_pos hKind)]
  rfl

theorem run_eatKind_of_ne {kind : TokenKind} (h : ∀ t ∈ s.tokens.head?, t.kind ≠ kind) :
    (eatKind kind).run s = (false, s) := by
  simp only [eatKind, run_bind]
  cases hTokens : s.tokens with
  | nil =>
    rw [run_take?_nil hTokens]
    rfl
  | cons t rest =>
    rw [run_take?_none hTokens (if_neg (h t (by rw [hTokens]; rfl)))]
    rfl

/-! ## Repeating -/

section Chain

variable {accept : Token → Option β} {item : β → Parse α}

theorem chainFrom_nil (h : s.tokens = []) : chainFrom accept item s = ([], s) := by
  rw [chainFrom]
  split
  · rfl
  · simp_all

theorem chainFrom_none (h : s.tokens = t :: rest) (hAccept : accept t = none) :
    chainFrom accept item s = ([], s) := by
  rw [chainFrom]
  split
  · rfl
  · next hTokens =>
    obtain ⟨rfl, rfl⟩ := List.cons.inj (hTokens.symm.trans h)
    simp only [hAccept]

theorem chainFrom_some {b : β} (h : s.tokens = t :: rest) (hAccept : accept t = some b) :
    chainFrom accept item s =
      (((item b).run (s.take t rest)).1 ::
          (chainFrom accept item ((item b).run (s.take t rest)).2).1,
        (chainFrom accept item ((item b).run (s.take t rest)).2).2) := by
  rw [chainFrom]
  split
  · next hTokens => simp [hTokens] at h
  · next hTokens =>
    obtain ⟨rfl, rfl⟩ := List.cons.inj (hTokens.symm.trans h)
    simp only [hAccept]

end Chain

end Parse

/-! ## Parts of readers -/

open Parse

/-- What is read of a column type behind its name. -/
def typeArguments (typeName : String) : Parse ColumnType := do
  if (SqlType.ofName typeName).acceptsLength then
    if ← eat .leftParen then
      let length ← ask .length 0 unsigned?
      let scale ← if ← eat .comma then some <$> ask .scale 0 unsigned? else pure none
      expect .rightParen
      return ⟨typeName, some length, scale⟩
  return ⟨typeName, none, none⟩

/-- The name of a type of one word, or of two. -/
def typeName (first : String) : Option String → String
  | some word => first ++ " " ++ word
  | none => first

theorem columnType_eq : columnType = (do
    let first ← name .type
    let second ← take? (secondWord? first)
    typeArguments (typeName first second)) := by
  unfold columnType
  congr

/-- What is read of a placeholder behind its question mark. -/
def placeholderBehind (mark : Span) : Parse Term := do
  let number ← take? fun t =>
    if t.span.first.offset = mark.last.offset then unsigned? t else none
  return .placeholder ⟨number, ← nextPlaceholder⟩

theorem placeholder_eq : placeholder = (do
    let mark := (← current).span
    advance
    placeholderBehind mark) := rfl

/-- What is read of a named parameter behind its name. -/
def parameterOf (mark : Span) (name : String) : Parse Term := do
  if ← eat .colon then
    let first ← Parse.name .type
    let typeName := ".".intercalate (first :: (← dottedRest .type))
    declare name.toLower typeName
    return .parameter ⟨name, typeName, true, ← spanFrom mark⟩
  else
    match ← declaredType? name.toLower with
    | some typeName => return .parameter ⟨name, typeName, false, ← spanFrom mark⟩
    | none =>
      failUntyped mark.first name
      return .parameter ⟨name, "", false, ← spanFrom mark⟩

theorem namedParameter_eq : namedParameter = (do
    let mark := (← current).span
    advance
    parameterOf mark (← name .parameter)) := rfl

section Terms

variable (rules : Rules)

/-- A path or a call. Where no name is, `NULL` stands in for it. -/
def namedTerm : Parse Term := do
  if ← seesName then pathOrCall rules
  else
    fail .expression
    return .literal .null

/-- A term that is no constant, by the kind of its first token. -/
def termOfKind : TokenKind → Parse Term
  | .symbol .question => placeholder
  | .symbol .atSign => namedParameter
  | .symbol .leftParen => parenthesized rules
  | .keyword .CASE => caseTerm rules
  | .keyword .CAST => castTerm rules
  | _ => namedTerm rules

theorem unsignedTerm_eq : unsignedTerm rules = (do
    match ← take? literalOf? with
    | some literal => return .literal literal
    | none => termOfKind rules (← kind)) := rfl

/-- Whether a token is the word in front of a branch. -/
def whenAccept (t : Token) : Option Unit := if t.kind = .keyword .WHEN then some () else none

/-- The operand of a `CASE`, if it has one. -/
def caseOperand : Parse (Option Expr) := do
  if ← seesKeyword .WHEN then pure none else some <$> rules.expr

/-- The branches of a `CASE`, at least one. -/
def caseBranches : Parse (List Branch) := do
  if ← seesKeyword .WHEN then chain whenAccept fun _ => branch rules
  else
    fail (.keyword .WHEN)
    chain whenAccept fun _ => branch rules

theorem caseTerm_eq : caseTerm = fun rules => do
    advance
    let operand ← caseOperand rules
    let branches ← caseBranches rules
    let otherwise ← after .ELSE rules.expr
    expectKeyword .END
    return .case operand branches otherwise := by
  funext rules
  refine bind_congr fun _ => ?_
  simp only [caseOperand, caseBranches, bind_assoc]
  refine bind_congr fun c => ?_
  cases c with
  | false =>
    simp only [Bool.false_eq_true, ↓reduceIte]
    refine bind_congr fun operand => bind_congr fun d => ?_
    cases d <;> rfl
  | true =>
    simp only [↓reduceIte, pure_bind]
    refine bind_congr fun d => ?_
    cases d <;> rfl

end Terms

/-! ## Looking ahead -/

/-- Whether a `NOT` is next that belongs to a predicate. -/
def State.negates (s : State) : Bool :=
  s.current.kind == .keyword .NOT && isPredicateWord (s.kindAt 1)

theorem run_predicateNot {α : Type} (f : Bool → Parse α) (s : State) :
    (predicateNot >>= f).run s =
      if s.negates then (Parse.advance >>= fun _ => f true).run s else (f false).run s := by
  unfold predicateNot
  simp only [run_bind, seesKeyword, Parse.kindAt, run_look]
  cases hNegates : s.negates with
  | true =>
    rw [State.negates] at hNegates
    simp only [hNegates, ↓reduceIte]
    rfl
  | false =>
    rw [State.negates] at hNegates
    simp only [hNegates, Bool.false_eq_true, ↓reduceIte]
    rfl

namespace State

theorem kindAt_one_cons {s : State} {t : Token} {rest : List Token} (h : s.tokens = t :: rest) :
    s.kindAt 1 = (rest.head?.map Token.kind).getD .endOfInput := by
  cases rest <;> simp [kindAt, h]

theorem negates_of_ne {s : State} (h : s.current.kind ≠ .keyword .NOT) : s.negates = false := by
  rw [negates, beq_eq_false_iff_ne.mpr h, Bool.false_and]

theorem negates_cons {s : State} {t : Token} {rest : List Token} (hTokens : s.tokens = t :: rest) :
    s.negates = true ↔
      t.kind = .keyword .NOT ∧ ∃ u ∈ rest.head?, isPredicateWord u.kind = true := by
  rw [negates, current_cons hTokens, kindAt_one_cons hTokens]
  cases rest <;> simp [isPredicateWord]

end State

/-- What is altered, behind a word `COLUMN` that is not its name. -/
def alterationBehind (rules : Rules) : Parse AlterAction := do
  let first := (← current).span
  let column ← name .column
  return .alterColumn column (← columnChange rules column first)

/-- Whether a word `COLUMN` is next that is not the name of a column. -/
def State.announces (s : State) : Bool :=
  s.current.kind == .keyword .COLUMN && isName (s.kindAt 1)

theorem run_alteration {rules : Rules} (s : State) :
    (alteration rules).run s =
      if s.announces then (Parse.advance >>= fun _ => alterationBehind rules).run s
      else (alterationBehind rules).run s := by
  unfold alteration
  simp only [run_bind, seesKeyword, Parse.kindAt, run_look]
  cases hAnnounces : s.announces with
  | true =>
    rw [State.announces] at hAnnounces
    simp only [hAnnounces, ↓reduceIte]
    rfl
  | false =>
    rw [State.announces] at hAnnounces
    simp only [hAnnounces, Bool.false_eq_true, ↓reduceIte]
    rfl

/-- `name.*`, behind the look at it. -/
def tableStar : Parse ResultColumn := do
  let table ← name .table
  Parse.advance
  Parse.advance
  return .tableStar table

/-- `name.*`, or something else. -/
def tableStarOr (otherwise : Parse ResultColumn) : Parse ResultColumn := do
  if ← seesTableStar then tableStar else otherwise

theorem run_tableStarOr {m : Parse ResultColumn} (s : State) :
    (tableStarOr m).run s = if (seesTableStar.run s).1 then tableStar.run s else m.run s := by
  have hRun : seesTableStar.run s = ((seesTableStar.run s).1, s) := rfl
  rw [tableStarOr, run_bind, hRun]
  cases (seesTableStar.run s).1 <;> rfl

theorem seesTableStar_eq (s : State) :
    (seesTableStar.run s).1 = ((nameOf? s.current).isSome && s.kindAt 1 == .symbol .dot &&
      s.kindAt 2 == .symbol .star) := rfl

/-- What stands behind a name when it is found to start `name.*`. -/
theorem exists_of_seesTableStar {s : State} {t : Token} {rest : List Token}
    (hTokens : s.tokens = t :: rest) (h : (seesTableStar.run s).1 = true) :
    ∃ u v more, rest = u :: v :: more ∧ u.kind = .symbol .dot ∧ v.kind = .symbol .star := by
  have hKinds : (rest[0]?.map Token.kind).getD .endOfInput = .symbol .dot ∧
      (rest[1]?.map Token.kind).getD .endOfInput = .symbol .star := by
    simp only [seesTableStar, seesName, kindAt, State.kindAt, run_bind, run_look, run_pure, hTokens,
      Bool.and_eq_true, beq_iff_eq] at h
    exact ⟨h.1.2, h.2⟩
  match rest, hKinds with
  | u :: v :: more, hKinds => exact ⟨u, v, more, rfl, by simpa using hKinds⟩
  | [_], hKinds => simp at hKinds
  | [], hKinds => simp at hKinds

/-- A sign does the same to terms that are alike. -/
theorem like_applySign {e : Erasure} {a b : Term} (negative : Bool) (h : Like e a b) :
    Like e (applySign negative a) (applySign negative b) := by
  have hErase : ∀ t : Term, (applySign negative t).erase e = applySign negative (t.erase e) := by
    intro t
    cases negative <;> cases t with
    | literal value => cases value <;> rfl
    | _ => rfl
  simp_all [Like, Erasable.erase]

/-! ## Joined sources up to what does not count -/

def JoinedSource.erase (e : Erasure) (j : JoinedSource) : JoinedSource :=
  ⟨j.operator, j.source.erase e, j.constraint.erase e⟩

instance : Erasable JoinedSource := ⟨JoinedSource.erase⟩

end SqlKit.Grammar
