import SqlKit.Proofs.Completion.Readers

/-!
# Every reader completes what it took
-/

namespace SqlKit.Grammar

open Parse

/-! ## Profiles of the grammar -/

namespace Profile

/-- What stands behind expressions and their parts. -/
def expr : Profile :=
  ⟨[.symbol .rightParen, .keyword .WHEN, .keyword .THEN, .keyword .END, .keyword .AS],
    true, false, true, [.keyword .NULL]⟩

/-- Parts of conditions may stand in front of an `AND` as well. -/
def term : Profile :=
  ⟨[.symbol .rightParen, .keyword .WHEN, .keyword .THEN, .keyword .END, .keyword .AS,
    .keyword .AND], false, false, false, [.keyword .NULL]⟩

def type : Profile := ⟨[.symbol .rightParen], false, false, false, [someName]⟩

def select : Profile :=
  ⟨[.symbol .rightParen], true, false, false, [.keyword .SELECT, .keyword .NULL]⟩

def sources : Profile := ⟨[.symbol .rightParen], true, false, false, [someName]⟩

end Profile

/-- Readers that complete what they took of fewer than `n` tokens. -/
structure Rules.Viable (n : Nat) (rules : Rules) : Prop where
  expr : Grammar.Viable n .expr rules.expr
  select : Grammar.Viable n .select rules.select
  joinClause : Grammar.Viable n .sources rules.joinClause

variable {n : Nat} {rules : Rules} {s : State}

/-- What looks at the kind of a token alone refuses the kinds that it refuses in a sample. -/
theorem refuses_of_kind {β : Type} {accept : Token → Option β} {ks : List TokenKind}
    (hKind : ∀ t, accept t = accept ⟨t.kind, .atStart, ""⟩)
    (h : (ks.all fun k => (accept ⟨k, .atStart, ""⟩).isNone) = true) : Refuses accept ks := by
  intro t ht
  rw [hKind]
  exact Option.isNone_iff_eq_none.mp (List.all_eq_true.mp h _ ht)

/-! ## Types -/

theorem refuses_unsigned : Refuses unsigned? (startsBut (.integer 1)) :=
  refuses_of_kind (fun _ => rfl) rfl

theorem viable_unsigned (expected : Expected) :
    Viable n (.token (.integer 1)) (ask expected 0 unsigned?) :=
  .ask _ (a := 1) rfl (fun _ => refuses_of_kind (fun _ => rfl) rfl) (by decide)

/-- What stands behind the parts of a type. -/
def Profile.afterType : Profile := ⟨[.symbol .rightParen], false, true, false, []⟩

theorem viable_typeArguments (typeName : String) :
    Viable n .afterType (typeArguments typeName) := by
  have hEnd : ∀ (n : Nat) (type : ColumnType), Viable n (.token (.symbol .rightParen))
      (do expect .rightParen; return type) := fun _ _ =>
        (Viable.expect .rightParen (by decide)).made
  have hScale := fun length => Viable.ite (n := n) (c := .symbol .comma)
    (((viable_unsigned .scale).map some).bind (by rfl) fun scale =>
      hEnd n ⟨typeName, some length, scale⟩)
    (hEnd (n + 1) ⟨typeName, some length, none⟩) (by decide)
  unfold typeArguments
  split
  · exact (Viable.ite (c := .symbol .leftParen) ((viable_unsigned .length).bind (by rfl)
      fun length => (hScale length).less) (.pure ⟨typeName, none, none⟩) (by decide)).less.mono
        (p := .afterType) (by rfl) (by rfl)
  · exact (Viable.pure _).mono (by rfl) (by rfl)

theorem viable_columnType : Viable n .type columnType := by
  have hSecond : ∀ first, Refuses (secondWord? first) [.symbol .rightParen] := by
    intro first t ht
    simp only [secondWord?, List.mem_singleton.mp ht]
  rw [columnType_eq]
  exact ((Viable.name .type).bind (by rfl) fun first => (Viable.take? (fun word =>
    viable_typeArguments (n := n) (typeName first (some word))) (viable_typeArguments _)
    (hSecond first) (fun _ hk => by cases hk)).less).mono (by rfl) (by rfl)

theorem viable_dottedRest (role : NameRole) :
    Viable n (.many starts (.token someName)) (dottedRest role) :=
  ((Viable.name role).chainOf (by decide)).less

/-! ## Terms -/

theorem silent_nextPlaceholder : Silent nextPlaceholder := ⟨fun _ _ => rfl, fun _ => rfl⟩

theorem viable_placeholderBehind (mark : Span) :
    Viable n (.option (startsBut (.integer 1)) .nothing .nothing) (placeholderBehind mark) := by
  have hCount : ∀ number, Silent (do return Term.placeholder ⟨number, ← nextPlaceholder⟩) :=
    fun number => silent_nextPlaceholder.bind fun _ => .pure _
  have hTouching : Refuses (fun t => if t.span.first.offset = mark.last.offset then unsigned? t
      else none) (startsBut (.integer 1)) := by
    intro t ht
    simp only [refuses_unsigned t ht, ite_self]
  exact (Viable.take? (fun number => (hCount (some number)).viable) (hCount none).viable
    hTouching fun _ hk => by cases hk).less

/-! ### Named parameters -/

/-- What is read of a named parameter behind its name, with something done where it has no type. -/
def parameterBehind (undeclared : Parse Unit) (mark : Span) (name : String) : Parse Term := do
  if ← eat .colon then
    let first ← Parse.name .type
    let typeName := ".".intercalate (first :: (← dottedRest .type))
    declare name.toLower typeName
    return .parameter ⟨name, typeName, true, ← spanFrom mark⟩
  else
    match ← declaredType? name.toLower with
    | some typeName => return .parameter ⟨name, typeName, false, ← spanFrom mark⟩
    | none =>
      undeclared
      return .parameter ⟨name, "", false, ← spanFrom mark⟩

/-- A named parameter, with the error where its type should be. -/
def typedParameter : Parse Term := do
  let mark := (← current).span
  advance
  parameterBehind (fail (.symbol .colon)) mark (← name .parameter)

def Profile.parameterBehind : Profile :=
  ⟨startsBut (.symbol .colon), false, true, false, [.symbol .colon, someName]⟩

theorem viable_parameterBehind (mark : Span) (name : String) :
    Viable n .parameterBehind (parameterBehind (fail (.symbol .colon)) mark name) := by
  have hDeclare : ∀ typeName, Silent (do
      declare name.toLower typeName
      return Term.parameter ⟨name, typeName, true, ← spanFrom mark⟩) := fun _ =>
    Silent.bind ⟨fun _ _ => rfl, fun _ => rfl⟩ fun _ => (Silent.spanFrom mark).bind fun _ => .pure _
  have hTyped := fun n => (Viable.name (n := n) .type).bind (by rfl) fun first =>
    (viable_dottedRest (n := n) .type).silent fun rest =>
      hDeclare (".".intercalate (first :: rest))
  have hUntyped : Sound (n + 1) .nothing (do
      match ← declaredType? name.toLower with
      | some typeName => return Term.parameter ⟨name, typeName, false, ← spanFrom mark⟩
      | none =>
        fail (.symbol .colon)
        return .parameter ⟨name, "", false, ← spanFrom mark⟩) := by
    intro s hs
    cases hType : s.bindings.lookup name.toLower with
    | some typeName =>
      have hPure : Silent (do return Term.parameter ⟨name, typeName, false, ← spanFrom mark⟩) :=
        (Silent.spanFrom mark).bind fun _ => .pure _
      refine (hPure.viable.sound s hs).of_run fun ts => ?_
      have hSame : (s.withTokens ts).bindings.lookup name.toLower = some typeName := hType
      simp only [run_bind, declaredType?, run_look, hSame]
    | none =>
      refine ViableAt.of_run (fun ts => ?_) (Sound.fail (.symbol .colon) (f := fun _ => do
        return Term.parameter ⟨name, "", false, ← spanFrom mark⟩) s hs)
      have hSame : (s.withTokens ts).bindings.lookup name.toLower = none := hType
      simp only [run_bind, declaredType?, run_look, hSame]
  exact (Viable.eatFirst (fun hn => (hTyped _).ready hn) (hTyped n) hUntyped
    (by decide)).less.mono (by rfl) (by rfl)

/-- Where no token is taken, nothing changes. -/
theorem state_of_eatKind {kind : TokenKind} (h : ((eatKind kind).run s).1 = false) :
    ((eatKind kind).run s).2 = s := by
  have hRun : ∀ r, (take? fun t : Token => if t.kind = kind then some () else none).run s = r →
      (eatKind kind).run s = (r.1.isSome, r.2) := by
    rintro r rfl
    rfl
  by_cases hRefused : ∀ t ∈ s.tokens.head?, (if t.kind = kind then some () else none) = none
  · rw [hRun _ (run_take?_of_refuses rfl hRefused)]
  · obtain ⟨t, rest, b, hTokens, hAccept⟩ := exists_accepted hRefused
    rw [hRun _ (run_take?_some hTokens hAccept)] at h
    cases h

theorem note_of_error {e e' : ParseError} (h : s.error = some e) : s.note e' = s := by
  have hFailed : s.failed = true := by rw [← State.error_isSome, h, Option.isSome_some]
  rw [State.note, if_pos hFailed]

/-- A parameter is read alike whatever is done where it has no type, unless it has none. -/
theorem run_parameterBehind (mark : Span) (name : String) (s : State) :
    (∀ m k, (parameterBehind m mark name).run s = (parameterBehind k mark name).run s) ∨
      ∀ m, (parameterBehind m mark name).run s = (do
        m
        return Term.parameter ⟨name, "", false, ← spanFrom mark⟩).run s := by
  cases hColon : ((eat .colon).run s).1 with
  | true =>
    refine Or.inl fun m k => ?_
    simp only [parameterBehind, run_bind, hColon, ↓reduceIte]
  | false =>
    have hSame : ((eat .colon).run s).2 = s := state_of_eatKind hColon
    cases hType : s.bindings.lookup name.toLower with
    | some typeName =>
      refine Or.inl fun m k => ?_
      simp [parameterBehind, run_bind, hColon, hSame, declaredType?, hType]
    | none =>
      refine Or.inr fun m => ?_
      simp [parameterBehind, run_bind, hColon, hSame, declaredType?, hType]

/-- Either the two readers of a parameter do the same, or it has no type. -/
theorem run_namedParameter {t : Token} {rest : List Token} (hTokens : s.tokens = t :: rest) :
    namedParameter.run s = typedParameter.run s ∨
      (∃ name, (namedParameter.run s).2.error = some ⟨t.span.first, .untypedParameter name⟩) ∧
        (typedParameter.run s).2.error ≠ none := by
  have hRun : ∀ m : Parse Unit, (do
      let mark := (← current).span
      advance
      parameterBehind m mark (← name .parameter) : Parse Term).run s =
      (parameterBehind m t.span ((name .parameter).run (s.take t rest)).1).run
        ((name .parameter).run (s.take t rest)).2 := by
    intro m
    have hCurrent : s.current = t := State.current_cons hTokens
    simp only [run_bind, run_advance_cons hTokens, current, run_look, hCurrent]
  have hNamed : namedParameter.run s = (parameterBehind
      (failUntyped t.span.first ((name .parameter).run (s.take t rest)).1) t.span
      ((name .parameter).run (s.take t rest)).1).run ((name .parameter).run (s.take t rest)).2 := by
    have hCurrent : s.current = t := State.current_cons hTokens
    rw [namedParameter_eq]
    simp only [run_bind, run_advance_cons hTokens, current, run_look, hCurrent]
    rfl
  have hTyped : typedParameter.run s = _ := hRun (fail (.symbol .colon))
  rcases run_parameterBehind t.span ((name .parameter).run (s.take t rest)).1
    ((name .parameter).run (s.take t rest)).2 with hSame | hNone
  · exact Or.inl (hNamed.trans ((hSame _ _).trans hTyped.symm))
  · rw [hNone] at hNamed hTyped
    cases hError : ((Parse.name .parameter).run (s.take t rest)).2.error with
    | some e =>
      refine Or.inl (hNamed.trans (Eq.trans ?_ hTyped.symm))
      simp only [run_bind, failUntyped, fail, note_of_error hError]
    | none =>
      refine Or.inr ⟨⟨((Parse.name .parameter).run (s.take t rest)).1, ?_⟩, ?_⟩
      · rw [hNamed]
        exact error_note hError _
      · rw [hTyped]
        exact fun hNone => Option.some_ne_none _ ((error_note hError _).symm.trans hNone)

theorem viableAt_namedParameter (hs : Fewer (n + 1) s) (hKind : s.current.kind = .symbol .atSign) :
    ViableAt .term namedParameter s := by
  obtain ⟨t, rest, hTokens, hAt⟩ := hs.exists_head hKind (by simp [TokenKind.IsEnd])
  have hTyped : ViableAt .term typedParameter s := by
    have hMark : ∀ mark : Token, ViableAt .term (do
        advance
        parameterBehind (fail (.symbol .colon)) mark.span (← Parse.name .parameter)) s := by
      intro mark
      exact .advance hs hKind ((Viable.name .parameter).bind (by rfl)
        fun name => viable_parameterBehind mark.span name) (by rfl) (by decide)
    exact .look (g := fun t => t) hs.toIntact (hMark _) (fun h => by cases h) (.refl _)
  rcases run_namedParameter hTokens with hSame | ⟨⟨name, hError⟩, hTypedError⟩
  · refine hTyped.congr hSame (fun ts us more hTake _ hNil hNone => ?_) (.refl _)
    cases ts with
    | nil => exact absurd (hNil rfl).1 (by simp [Profile.term])
    | cons u ts =>
      have hHead : (s.withTokens (u :: ts ++ more)).tokens = u :: (ts ++ more) := rfl
      exact (run_namedParameter hHead).resolve_right fun h => h.2 hNone
  · refine ⟨fun hNone => ?_, fun e he => ⟨[], s.tokens, rfl, ?_, .nil, fun h => absurd rfl h⟩⟩
    · rw [hNone] at hError
      cases hError
    · obtain rfl := Option.some.inj (hError.symm.trans he)
      have hEnd : s.current.isEnd = false := by simp [Token.isEnd, hKind]
      refine ⟨?_, fun _ _ hCause => by cases hCause⟩
      show t.span.first = s.errorPosition
      rw [State.errorPosition, hEnd, State.current_cons hTokens]
      rfl

/-! ### Terms that hold expressions -/

theorem viableAt_placeholder (hs : Fewer (n + 1) s) (hKind : s.current.kind = .symbol .question) :
    ViableAt .term placeholder s := by
  have hBehind : ∀ mark : Token, ViableAt .term (do
      advance
      placeholderBehind mark.span) s := fun mark =>
    .advance hs hKind (viable_placeholderBehind mark.span) (by rfl) (by decide)
  exact .look (g := fun t => t) hs.toIntact (hBehind _) (fun h => by cases h) (.refl _)

/-- A token that may be there, and what is known of the reader that takes it. -/
def Profile.mark (kind : TokenKind) : Profile := .option (startsBut kind) .nothing .nothing

theorem viable_eatKind (kind : TokenKind) : Viable n (.mark kind) (eatKind kind) :=
  (Viable.eat (f := Pure.pure) (.pure true) (.pure false) nofun).less

theorem viable_eatKeyword (word : Keyword) : Viable n (.mark (.keyword word)) (eatKeyword word) :=
  viable_eatKind _

def Profile.arguments : Profile := ⟨starts, false, false, true, [.symbol .rightParen]⟩

theorem viable_callArguments (h : rules.Viable n) (function : String) :
    Viable n .arguments (callArguments rules function) := by
  have hEnd : ∀ (n : Nat) (term : Term), Viable n (.token (.symbol .rightParen))
      (do expect .rightParen; return term) := fun _ _ =>
        (Viable.expect .rightParen (by decide)).made
  have hArguments := (viable_eatKeyword (n := n) .DISTINCT).bind (by rfl) fun distinct =>
    h.expr.separated.bind (by rfl) fun arguments => hEnd n (.call function distinct arguments)
  have hChoice := Viable.chooseFirst (g := fun t => t.kind == .symbol .rightParen)
    (hEnd n (.call function false [])).ready (fun s hs _ => (hEnd n _).sound s hs) hArguments.sound
    (by rfl) (fun h => by cases h) (fun k hk => by cases hk; rfl)
  cases n with
  | zero => exact .zero
  | succ n =>
    exact (Viable.ite (hEnd n (.callStar function)) hChoice (by decide)).mono (by rfl) (by rfl)

theorem viable_pathOrCall (h : rules.Viable n) :
    Viable (n + 1) (Profile.term.withText [someName]) (pathOrCall rules) := by
  have hPath := fun first => (viable_dottedRest (n := n + 1) .identifier).made
    (f := fun rest => Term.path ⟨first, rest⟩)
  exact ((Viable.name .identifier).bind (by rfl) fun first =>
    Viable.ite (viable_callArguments h first) (hPath first) (by decide)).mono (by rfl) (by rfl)

def Profile.branch : Profile :=
  Profile.expr.withText [.keyword .NULL, .keyword .THEN, .keyword .NULL]

theorem viable_branch (h : rules.Viable n) : Viable n .branch (branch rules) :=
  (h.expr.bind (by rfl) fun _ => (Viable.expectKeyword .THEN).bind (by rfl) fun _ =>
    h.expr.made).mono (by rfl) (by rfl)

theorem refuses_whenAccept : Refuses whenAccept (startsBut (.keyword .WHEN)) :=
  refuses_of_kind (fun _ => rfl) rfl

def Profile.branches : Profile :=
  ⟨[.symbol .rightParen, .keyword .THEN, .keyword .END, .keyword .AS], true, false, false,
    [.keyword .WHEN, .keyword .NULL, .keyword .THEN, .keyword .NULL]⟩

theorem viable_caseBranches (h : rules.Viable n) : Viable n .branches (caseBranches rules) := by
  have hBranch := fun _ : Unit => viable_branch h
  have hReady : 0 < n → Ready .branches (chain whenAccept fun _ => branch rules) := fun hn =>
    (Ready.chain_cons (b := ()) ((hBranch ()).ready hn)
      (show whenAccept (sample (.keyword .WHEN)) = some () from rfl) refuses_whenAccept rfl
      (by decide)).mono (Profile.covers_of_eq rfl) rfl
  refine Viable.mono (Viable.chooseFirst (p := .branches) (q := .branches)
    (g := fun t => t.kind == .keyword .WHEN) hReady (fun s hs hWhen => ?_) (.fail _) (by rfl)
    (fun h => by cases h) (fun k hk => by cases hk; rfl)) (by rfl) (by rfl)
  obtain ⟨t, rest, hTokens, hKind⟩ :=
    hs.exists_head (beq_iff_eq.mp hWhen) (by simp [TokenKind.IsEnd])
  cases n with
  | zero => exact absurd hs.pos (Nat.lt_irrefl 0)
  | succ n =>
    have hLess := fun b => (hBranch b).less
    exact (ViableAt.chain_cons (w := fun _ => Profile.branch.text) hLess refuses_whenAccept rfl hs
      hTokens (if_pos hKind) fun s' hs' _ => Sound.chain (w := fun _ => Profile.branch.text) hLess
      refuses_whenAccept rfl s' hs'.less).mono (Profile.covers_of_eq rfl)

theorem caseOperand_bind {α : Type} (f : Option Expr → Parse α) :
    (caseOperand rules >>= f) = (seesKeyword .WHEN >>= fun c =>
      if c = true then f none else some <$> rules.expr >>= f) := by
  rw [caseOperand, bind_assoc]
  refine bind_congr fun c => ?_
  cases c <;> rfl

theorem viableAt_caseTerm (h : rules.Viable n) (hs : Fewer (n + 1) s)
    (hKind : s.current.kind = .keyword .CASE) : ViableAt .term (caseTerm rules) s := by
  have hRest : ∀ operand : Option Expr, Viable n _ (do
      let branches ← caseBranches rules
      let otherwise ← after .ELSE rules.expr
      expectKeyword .END
      return Term.case operand branches otherwise) := fun operand =>
    (viable_caseBranches h).bind (by rfl) fun branches =>
      (h.expr.after .ELSE).less.bind (by rfl) fun otherwise =>
      (Viable.expectKeyword .END).made
  have hBoth := Viable.choose (g := fun t => t.kind == .keyword .WHEN)
    (fun s hs _ => (hRest none).sound s hs) ((h.expr.map some).bind (by rfl) hRest) (by rfl)
    (fun h => by cases h) (fun k hk => by cases hk; rfl)
  rw [caseTerm_eq]
  exact .advance hs hKind (.of_eq (caseOperand_bind _) hBoth) (by rfl) (by decide)

theorem viableAt_castTerm (h : rules.Viable n) (hs : Fewer (n + 1) s)
    (hKind : s.current.kind = .keyword .CAST) : ViableAt .term (castTerm rules) s := by
  exact .advance hs hKind ((Viable.expect .leftParen (by decide)).bind (by rfl) fun _ =>
      h.expr.bind (by rfl) fun _ =>
    (Viable.expectKeyword .AS).bind (by rfl) fun _ => viable_columnType.bind (by rfl) fun _ =>
      (Viable.expect .rightParen (by decide)).made) (by rfl) (by decide)

/-- Whether a token is a word that a query starts with. -/
def opensQuery (t : Token) : Bool :=
  match t.kind with
  | .keyword .SELECT | .keyword .WITH | .keyword .VALUES => true
  | _ => false

theorem viableAt_parenthesized (h : rules.Viable n) (hs : Fewer (n + 1) s)
    (hKind : s.current.kind = .symbol .leftParen) : ViableAt .term (parenthesized rules) s := by
  have hEnd : ∀ term : Term, Viable n (.token (.symbol .rightParen))
      (do expect .rightParen; return term) := fun _ => (Viable.expect .rightParen (by decide)).made
  have hBoth := Viable.choose (g := opensQuery)
    (fun s hs _ => ((h.select.map Term.subquery).bind (by rfl) hEnd).sound s hs)
    ((h.expr.map Term.paren).bind (by rfl) hEnd) (by rfl) (fun h => by cases h)
    (fun k hk => by cases hk; rfl)
  exact .advance hs hKind hBoth (by rfl) (by decide)

/-! ### Terms -/

theorem viable_namedTerm (h : rules.Viable n) :
    Viable (n + 1) (Profile.term.withText [someName]) (namedTerm rules) :=
  (Viable.chooseFirst (q := .term) (g := fun t => (nameOf? t).isSome)
    (viable_pathOrCall h).ready (fun s hs _ => (viable_pathOrCall h).sound s hs)
    (Sound.fail .expression) (by rfl) (fun h => by cases h)
    (fun k hk => by cases hk; rfl)).mono (by rfl) (by rfl)

/-- The kinds that stand behind a term or in front of a condition. -/
def stopTerm : List TokenKind := .keyword .NOT :: Profile.term.follow

theorem refuses_literalOf : Refuses literalOf? stopTerm :=
  refuses_of_kind (fun _ => rfl) rfl

theorem viable_unsignedTerm (h : rules.Viable n) : Viable (n + 1) .term (unsignedTerm rules) := by
  have hKinds : Sound (n + 1) .term (kind >>= termOfKind rules) := by
    refine Sound.look (g := Token.kind) (fun s hs => ?_) rfl
    unfold termOfKind
    split
    · exact viableAt_placeholder hs ‹_›
    · exact viableAt_namedParameter hs ‹_›
    · exact viableAt_parenthesized h hs ‹_›
    · exact viableAt_caseTerm h hs ‹_›
    · exact viableAt_castTerm h hs ‹_›
    · exact ((viable_namedTerm h).sound s hs).mono (Profile.covers_of_eq rfl)
  rw [unsignedTerm_eq]
  refine Viable.mono (q := (Profile.option stopTerm .nothing .term).withText [.keyword .NULL])
    ⟨fun _ => ?_, .withText ?_ _⟩ (by rfl) (by rfl)
  · exact Ready.takeSome (p := .nothing) (b := Literal.null)
      ((Silent.pure _).viable.ready Nat.one_pos) rfl (by simp [TokenKind.IsEnd])
  · exact Sound.take? (fun literal => .pure _) hKinds refuses_literalOf

theorem refuses_signOf : Refuses signOf? starts := refuses_of_kind (fun _ => rfl) rfl

theorem viable_term (h : rules.Viable n) : Viable (n + 1) .term (term rules) :=
  ((Viable.many (fun sign => .pure sign) refuses_signOf (by rfl)).bind (by rfl) fun signs =>
    (viable_unsignedTerm h).made).mono (by rfl) (by rfl)

/-! ## Operands -/

theorem refuses_mulOp : Refuses mulOp? starts := refuses_of_kind (fun _ => rfl) rfl

theorem refuses_addOp : Refuses addOp? starts := refuses_of_kind (fun _ => rfl) rfl

theorem viable_product (h : rules.Viable n) : Viable (n + 1) .term (product rules) :=
  ((viable_term h).bind (by rfl) fun _ => (Viable.many (fun operator =>
    (viable_term h).map (operator, ·)) refuses_mulOp (by rfl)).less.made).mono (by rfl) (by rfl)

theorem viable_sum (h : rules.Viable n) : Viable (n + 1) .term (sum rules) :=
  ((viable_product h).bind (by rfl) fun _ => (Viable.many (fun operator =>
    (viable_product h).map (operator, ·)) refuses_addOp (by rfl)).less.made).mono (by rfl) (by rfl)

theorem viable_operand (h : rules.Viable n) : Viable (n + 1) .term (operand rules) :=
  ((viable_sum h).bind (by rfl) fun _ =>
    ((viable_sum h).chainOf (by decide)).less.made).mono (by rfl) (by rfl)

/-! ## Conditions -/

theorem refuses_compareOp : Refuses compareOp? (startsBut (.symbol .equal)) :=
  refuses_of_kind (fun _ => rfl) rfl

def Profile.membership : Profile :=
  ⟨starts, false, false, false, [.symbol .leftParen, .symbol .rightParen]⟩

theorem viable_membership (h : rules.Viable n) (left : Operand) (negated : Bool) :
    Viable n .membership (membership rules left negated) := by
  have hEnd : ∀ condition : Condition, Viable n (.token (.symbol .rightParen))
      (do expect .rightParen; return condition) := fun _ =>
        (Viable.expect .rightParen (by decide)).made
  have hQuery := (h.select.map (Condition.oneOfQuery left negated)).bind (by rfl) hEnd
  have hAll := (h.expr.separated.map (Condition.oneOf left negated)).bind (by rfl) hEnd
  have hInside : Viable n .arguments (look (fun s => (opensQuery s.current,
      s.current.kind == .symbol .rightParen)) >>= fun c => do
        let condition ←
          if c.1 then Condition.oneOfQuery left negated <$> rules.select
          else if c.2 then pure (Condition.oneOf left negated [])
          else Condition.oneOf left negated <$> separated rules.expr
        expect .rightParen
        return condition) := by
    refine ⟨fun hn => ?_, Sound.look (g := fun t => (opensQuery t, t.kind == .symbol .rightParen))
      (fun s hs => ?_) rfl⟩
    · refine Ready.look (g := fun t => (opensQuery t, t.kind == .symbol .rightParen))
        (c := (false, true)) ?_ (fun k hk => by cases hk; rfl) (fun hNil => by cases hNil)
      exact ((hEnd (.oneOf left negated [])).ready hn).mono (Profile.covers_of_eq rfl) rfl
    · cases opensQuery s.current with
      | true => exact (hQuery.sound s hs).mono (Profile.covers_of_eq rfl)
      | false =>
        cases s.current.kind == .symbol .rightParen with
        | true => exact ((hEnd (.oneOf left negated [])).sound s hs).mono (Profile.covers_of_eq rfl)
        | false => exact (hAll.sound s hs).mono (Profile.covers_of_eq rfl)
  exact ((Viable.expect .leftParen (by decide)).bind (by rfl) fun _ =>
      hInside).mono (by rfl) (by rfl)

def Profile.identity : Profile := ⟨Profile.expr.follow, false, false, true, [.keyword .NULL]⟩

theorem viable_identity (h : rules.Viable n) (left : Operand) :
    Viable (n + 1) .identity (identity rules left) :=
  ((viable_eatKeyword .NOT).bind (by rfl) fun negated => Viable.iteFirst
    (Viable.pure (Condition.isNull left negated)).ready (.pure _)
    (viable_operand h).made.sound (by decide)).mono (by rfl) (by rfl)

/-- What stands behind a negation in front of the word of a predicate, with something else to be
done where no such word is. -/
def predicateOr (rules : Rules) (left : Operand) (otherwise : Parse Condition) (negated : Bool) :
    Parse Condition := do
  if ← eatKeyword .BETWEEN then
    let low ← operand rules
    expectKeyword .AND
    return .between left negated low (← operand rules)
  else if ← eatKeyword .IN then membership rules left negated
  else if ← eatKeyword .LIKE then
    let pattern ← operand rules
    match ← after .ESCAPE (operand rules) with
    | some escape => return .likeEscape left negated pattern escape
    | none => return .like left negated pattern
  else if ← eatKeyword .REGEXP then return .regexp left negated (← operand rules)
  else otherwise

theorem test_eq_predicateOr (left : Operand) : test rules left = (do
    match ← take? compareOp? with
    | some operator => return .comparison left operator (← operand rules)
    | none =>
      if ← eatKeyword .IS then identity rules left
      else predicateNot >>= predicateOr rules left (pure (.operand left))) := rfl

section Predicate

variable (h : rules.Viable n) (left : Operand) (negated : Bool)

def Profile.between : Profile :=
  ⟨Profile.expr.follow, false, false, false, [.keyword .NULL, .keyword .AND, .keyword .NULL]⟩

include h

theorem viable_between : Viable (n + 1) .between (do
    let low ← operand rules
    expectKeyword .AND
    return Condition.between left negated low (← operand rules)) :=
  ((viable_operand h).bind (by rfl) fun _ => (Viable.expectKeyword .AND).bind (by rfl) fun _ =>
    (viable_operand h).made).mono (by rfl) (by rfl)

theorem viable_pattern : Viable (n + 1) .term (do
    let pattern ← operand rules
    match ← after .ESCAPE (operand rules) with
    | some escape => return Condition.likeEscape left negated pattern escape
    | none => return .like left negated pattern) := by
  refine ((viable_operand h).bind (by rfl) fun pattern =>
      ((viable_operand h).after .ESCAPE).less.silent fun escape =>
    ?_).mono (by rfl) (by rfl)
  cases escape with
  | none => exact .pure _
  | some escape => exact .pure _

/-- What is known of what stands behind an operand, but for its `NOT`. -/
def Profile.predicate : Profile := ⟨Profile.expr.follow, false, true, false, []⟩

theorem viable_predicate :
    Viable (n + 1) .predicate (predicateOr rules left (pure (.operand left)) negated) := by
  have hRegexp := (viable_operand h).made (f := Condition.regexp left negated)
  exact (Viable.ite (c := .keyword .BETWEEN) (viable_between h left negated).less
    (Viable.ite (c := .keyword .IN) (viable_membership h left negated)
      (Viable.ite (c := .keyword .LIKE) (viable_pattern h left negated).less
        (Viable.ite (c := .keyword .REGEXP) hRegexp.less (.pure _) (by decide)) (by decide))
      (by decide)) (by decide)).mono (by rfl) (by rfl)

/-- A predicate has to be there. -/
def demanded (left : Operand) : Parse Condition := do
  fail (.keyword .BETWEEN)
  return .operand left

theorem viable_demanded :
    Viable (n + 1) (Profile.between.withText (.keyword .BETWEEN :: Profile.between.text))
      (predicateOr rules left (demanded left) negated) := by
  have hBetween := viable_between h left negated
  have hRegexp := (viable_operand h).made (f := Condition.regexp left negated)
  exact (Viable.iteFirst (c := .keyword .BETWEEN) hBetween.ready hBetween.less
      (.ite (viable_membership h left negated)
    (.ite (viable_pattern h left negated).less (.ite hRegexp.less
      (Sound.fail (p := .between) (.keyword .BETWEEN))))) (by decide)).mono (by rfl) (by rfl)

end Predicate

/-- Behind the word of a predicate it is the same what would be done without one. -/
theorem run_predicate {left : Operand} {m k : Parse Condition} {negated : Bool}
    (hWord : ∃ t ∈ s.tokens.head?, isPredicateWord t.kind = true) :
    (predicateOr rules left m negated).run s = (predicateOr rules left k negated).run s := by
  obtain ⟨t, ht, hWord⟩ := hWord
  refine run_ite_congr fun hBetween => run_ite_congr fun hIn => run_ite_congr fun hLike =>
    run_ite_congr fun hRegexp => ?_
  unfold isPredicateWord at hWord
  split at hWord
  · exact absurd ‹_› (hBetween t ht)
  · exact absurd ‹_› (hIn t ht)
  · exact absurd ‹_› (hLike t ht)
  · exact absurd ‹_› (hRegexp t ht)
  · cases hWord

theorem run_predicate_of_not {left : Operand} {m : Parse Condition} {negated : Bool}
    (hWord : ∀ t ∈ s.tokens.head?, isPredicateWord t.kind = false) :
    (predicateOr rules left m negated).run s = m.run s := by
  have hOther : ∀ {c}, isPredicateWord c = true → ∀ u ∈ s.tokens.head?, u.kind ≠ c := by
    rintro c hc u hu rfl
    rw [hWord u hu] at hc
    cases hc
  unfold predicateOr eatKeyword
  rw [run_ite_of_ne (hOther rfl), run_ite_of_ne (hOther rfl), run_ite_of_ne (hOther rfl),
    run_ite_of_ne (hOther rfl)]

/-- What is known of what stands behind an operand. -/
def Profile.test : Profile := ⟨Profile.expr.follow, true, true, true, []⟩

/-- Where a predicate is denied, it has to be there. -/
theorem viableAt_denied (h : rules.Viable n) (left : Operand) (hs : Fewer (n + 2) s)
    (hNegates : s.negates = true) :
    ViableAt .test (predicateNot >>= predicateOr rules left (pure (.operand left))) s := by
  have hKind : s.current.kind = .keyword .NOT := beq_iff_eq.mp (Bool.and_eq_true_iff.mp hNegates).1
  obtain ⟨t, rest, hTokens, hNot⟩ := hs.exists_head hKind (by simp [TokenKind.IsEnd])
  have hRun : ∀ ts, (∃ u ∈ ts.head?, isPredicateWord u.kind = true) →
      (predicateNot >>= predicateOr rules left (pure (.operand left))).run
        (s.withTokens (t :: ts)) =
        (advance >>= fun _ => predicateOr rules left (demanded left) true).run
          (s.withTokens (t :: ts)) := by
    intro ts hts
    rw [run_predicateNot, if_pos ((State.negates_cons rfl).mpr ⟨hNot, hts⟩), run_bind, run_bind,
      run_advance_cons rfl]
    exact run_predicate hts
  have hDemanded : ViableAt Profile.test.nonempty
      (advance >>= fun _ => predicateOr rules left (demanded left) true) s :=
    .advance hs hKind (viable_demanded h left true) (by rfl) (by decide)
  refine hDemanded.congr ?_ (fun ts us more hTake _ hNil hNone => ?_) (Profile.covers_of_eq rfl)
  · have hHere := hRun rest ((State.negates_cons hTokens).mp hNegates).2
    rwa [← hTokens] at hHere
  · cases ts with
    | nil => cases (hNil rfl).1
    | cons u ts =>
      obtain rfl : t = u := (List.cons.inj (hTokens.symm.trans hTake)).1
      refine hRun (ts ++ more) ?_
      -- without the word of a predicate there is an error
      by_contra hWord
      rw [List.cons_append, run_bind, run_advance_cons rfl, run_predicate_of_not fun v hv => ?_]
        at hNone
      · have hTaken : ((s.withTokens (t :: (ts ++ more))).take t (ts ++ more)).error = none :=
          hs.error
        cases (error_note hTaken _).symm.trans hNone
      · exact Bool.eq_false_iff.mpr fun hTrue => hWord ⟨v, hv, hTrue⟩

/-- No `NOT` stands behind a condition. -/
theorem current_ne_not {more : List Token} (hs : Intact s) (h : Profile.test.Meets more) :
    (s.withTokens more).current.kind ≠ .keyword .NOT := by
  intro hNot
  have hHead := h.current hs
  rw [hNot] at hHead
  simp [Profile.test, Profile.expr, TokenKind.IsEnd] at hHead

/-- Where nothing is denied. -/
theorem viableAt_asserted (h : rules.Viable n) (left : Operand) (hs : Fewer (n + 1) s)
    (hNegates : s.negates = false) :
    ViableAt .test (predicateNot >>= predicateOr rules left (pure (.operand left))) s := by
  have hRun : ∀ x : State, x.negates = false →
      (predicateNot >>= predicateOr rules left (pure (.operand left))).run x =
        (predicateOr rules left (pure (.operand left)) false).run x := fun x hx => by
    rw [run_predicateNot, hx]
    rfl
  have hPredicate := (viable_predicate h left false).sound s hs
  refine hPredicate.congr (hRun s hNegates) (fun ts us more hTokens hStarts hNil _ => hRun _ ?_)
    (Profile.covers_of_eq rfl)
  refine State.negates_of_ne fun hNot => ?_
  cases ts with
  | nil =>
    rcases (hNil rfl).2 with hMeets | ⟨t, -, hMore, hHead⟩
    · exact current_ne_not hs.toIntact hMeets hNot
    · obtain ⟨rest, rfl⟩ := List.head?_eq_some_iff.mp hMore
      exact hHead rfl hNot
  | cons t ts => cases hStarts t rfl hNot

theorem Rules.Viable.less (h : rules.Viable (n + 1)) : rules.Viable n :=
  ⟨h.expr.less, h.select.less, h.joinClause.less⟩

theorem viable_predicateNot (h : rules.Viable n) (left : Operand) :
    Viable (n + 1) .test (predicateNot >>= predicateOr rules left (pure (.operand left))) := by
  refine ⟨fun hn => ⟨fun _ => rfl, (fun t ht => by cases ht), fun s hs => ?_⟩, fun s hs => ?_⟩
  · obtain ⟨a, s', hNone, hTerminator, hFinish⟩ :=
      ((viable_predicate h left false).ready hn).finishes s hs
    refine ⟨a, s', hNone, hTerminator, fun more hMore => ?_⟩
    have hWords : Profile.test.words ++ more = more := rfl
    rw [hWords, run_predicateNot, State.negates_of_ne (current_ne_not hs hMore)]
    exact hFinish more hMore
  · cases hNegates : s.negates with
    | false => exact viableAt_asserted h left hs hNegates
    | true =>
      cases n with
      | zero =>
        have hKind : s.current.kind = .keyword .NOT :=
          beq_iff_eq.mp (Bool.and_eq_true_iff.mp hNegates).1
        obtain ⟨t, rest, hTokens, -⟩ := hs.exists_head hKind (by simp [TokenKind.IsEnd])
        exact absurd (hs.take hTokens).pos (Nat.lt_irrefl 0)
      | succ n => exact viableAt_denied h.less left hs hNegates

theorem viable_test (h : rules.Viable n) (left : Operand) :
    Viable (n + 1) .test (test rules left) := by
  rw [test_eq_predicateOr]
  have hIs := Viable.ite (c := .keyword .IS) (viable_identity h left).less
    (viable_predicateNot h left) (by decide)
  exact (Viable.take? (fun operator => (viable_operand h).less.made) hIs refuses_compareOp
    fun _ hk => by cases hk).mono (by rfl) (by rfl)

theorem viable_plainCondition (h : rules.Viable n) :
    Viable (n + 1) .expr (plainCondition rules) := by
  have hExists := (Viable.expect (n := n) .leftParen (by decide)).bind (by rfl) fun _ =>
      h.select.bind (by rfl) fun query =>
    (Viable.expect .rightParen (by decide)).made (f := fun _ => Condition.existence query)
  exact (Viable.ite hExists ((viable_operand h).bind (by rfl) fun left => viable_test h left)
    (by decide)).mono (by rfl) (by rfl)

theorem viable_condition (h : rules.Viable n) : Viable (n + 1) .expr (condition rules) := by
  have hNot := refuses_eat (.keyword .NOT)
  exact ((Viable.many (fun negation => .pure negation) hNot (by rfl)).bind (by rfl) fun _ =>
    (viable_plainCondition h).made).mono (by rfl) (by rfl)

theorem refuses_andSign : Refuses andSign? (startsBut (.keyword .AND)) :=
  refuses_of_kind (fun _ => rfl) rfl

theorem viable_conjunction (h : rules.Viable n) : Viable (n + 1) .expr (conjunction rules) :=
  ((viable_condition h).bind (by rfl) fun _ =>
    (Viable.many (fun _ => viable_condition h) refuses_andSign (by rfl)).less.made).mono
      (by rfl) (by rfl)

theorem viable_expr (h : rules.Viable n) : Viable (n + 1) .expr (expr rules) :=
  ((viable_conjunction h).bind (by rfl) fun _ =>
    (Viable.many (fun _ => viable_conjunction h)
      (refuses_eat (.keyword .OR)) (by rfl)).less.made).mono (by rfl) (by rfl)

end SqlKit.Grammar
