import SqlKit.Proofs.Rendering.Scan

/-!
# Terms keep their tokens

Each reader of a term comes to a result that is written with all the tokens that were read for it.
A term is read in front of which no sign was met; what signs do to it is added in `Keeps.term`.
-/

namespace SqlKit.Grammar

open Parse

variable {n k : Nat} {s s' : State} {t : Token} {rest : List Token}

/-- The readers that the grammar comes back to keep all tokens. -/
def Keeps (n : Nat) : Prop := Accounted n 1 .expr Rules.expr (.before [])

theorem okay_term {x : Term} {ns : List Node} (h : (Node.term x).Plain)
    (hRest : ∀ n ∈ ns, n.Plain) :
    ∀ n ∈ Node.term x :: ns, n.Plain := fun n hn => by
  rcases List.mem_cons.mp hn with rfl | hn
  · exact h
  · exact hRest n hn

/-! ## Single tokens -/

/-- A word that is not reserved ends an operand that it starts. -/
theorem step_free (word : Keyword) (h : word.isReserved = false) :
    (Place.before []).step (.keyword word) = ([.keyword word], .behind) := by
  cases word <;> first | rfl | cases h

/-- A name ends an operand. -/
theorem step_name {m : String} (h : IsName m) :
    (Place.before []).step (wordKind m) = ([wordKind m], .behind) := by
  cases hKind : wordKind m with
  | keyword word => exact step_free word (h.free word hKind)
  | identifier name => rfl
  | _ =>
    unfold wordKind at hKind
    split at hKind <;> cases hKind

/-- A number ends an operand. -/
theorem step_number {value : Int64} (h : 0 ≤ value.toInt) :
    (Place.before []).step (.integer value) = ([.integer value], .behind) := by
  have hPositive : ¬ (foldSigns [] value).toInt < 0 := Int.not_lt.mpr h
  rw [Place.step, numberKinds, if_neg hPositive]
  rfl

/-- The kind of a token that stands for a number of a type or of a placeholder. -/
theorem kind_of_unsigned? {m : Nat} (h : t.Bare) (hNumber : unsigned? t = some m) :
    ∃ value : Int64, t.kind = .integer value ∧ 0 ≤ value.toInt ∧
      Glyph.integerKind m = .integer value := by
  unfold unsigned? at hNumber
  split at hNumber
  · next value hKind =>
    have hPositive := h.integer value hKind
    split at hNumber
    · obtain rfl := Option.some.inj hNumber
      exact ⟨value, hKind, hPositive, congrArg TokenKind.integer (ofNat_toNat_toInt hPositive)⟩
    · cases hNumber
  · cases hNumber

theorem kind_of_secondWord? {first word : String} (h : secondWord? first t = some word) :
    ∃ name, t.kind = .identifier name := by
  unfold secondWord? at h
  split at h
  · next name hKind => exact ⟨name, hKind⟩
  · cases h

/-! ## Names -/

/-- A part of a name behind a point. -/
def Print.part : Print String := ⟨fun m => [.symbol .dot, .name m], fun _ => []⟩

theorem keeps_dottedRest (role : NameRole) :
    Accounted n k Print.part.all (fun _ => Parse.dottedRest role) .behind := by
  refine Accounted.chain fun s t rest b hs hTokens hAccept => ?_
  have hDot : t.kind = .symbol .dot := by
    split at hAccept
    · assumption
    · cases hAccept
  have hBind : After (Parse.name role >>= Pure.pure) (s.take t rest) fun m s' =>
      Print.part.Okay m ∧ Accounts s s' .behind .behind (Script.kinds (Print.part.row m)) := by
    refine After.name (hs.take hTokens).toRoom fun u rest' m hTokens' hm hKind => .pure ?_
    refine ⟨fun node hNode => by (cases hNode), Accounts.cons hTokens hDot rfl ?_⟩
    exact Accounts.cons hTokens' hKind (step_name hm) (Accounts.refl _ _)
  simpa only [bind_pure] using hBind

theorem keeps_names (role : NameRole) (hs : Fair n k s) :
    After (Parse.dottedRest role) s fun names s' => (∀ m ∈ names, IsName m) ∧
      Accounts s s' .behind .behind (Script.kinds (dotted names)) :=
  fun hError => ⟨(After.dottedRest hs.toRoom hError).1, (keeps_dottedRest role s hs hError).2⟩

/-! ## Types -/

theorem keeps_scaleArgument (hs : Fair n k s) : After scaleArgument s fun scale s' =>
    Accounts s s' .behind .behind (Script.kinds (scaleRow scale)) := by
  refine After.eatIte (fun t rest hTokens hKind => ?_) fun _ => .pure (Accounts.refl _ _)
  rw [map_eq_pure_bind]
  refine After.ask fun u rest' m hTokens' hNumber => .pure ?_
  obtain ⟨value, hValue, hPositive, hSame⟩ :=
    kind_of_unsigned? ((hs.take hTokens).bare_head hTokens') hNumber
  show Accounts s _ _ _ [.symbol .comma, Glyph.integerKind m]
  rw [hSame]
  refine Accounts.cons hTokens hKind rfl ?_
  exact Accounts.cons hTokens' hValue (step_number hPositive) (Accounts.refl _ _)

theorem keeps_typeArguments (typeName : String) (hs : Fair n k s) :
    After (typeArguments typeName) s fun type s' => type.name = typeName ∧
      Accounts s s' .behind .behind (Script.kinds type.argumentsRow) := by
  rw [typeArguments_eq]
  split
  · refine After.eatIte (fun t rest hTokens hKind => ?_) fun _ => .pure ⟨rfl, Accounts.refl _ _⟩
    have hTaken := hs.take hTokens
    refine After.ask fun u rest' m hTokens' hNumber => ?_
    obtain ⟨value, hValue, hPositive, hSame⟩ :=
      kind_of_unsigned? (hTaken.bare_head hTokens') hNumber
    refine (keeps_scaleArgument (hTaken.take hTokens')).bind fun scale s₁ hScale _ => ?_
    refine After.expect fun v rest₂ hTokens₂ hKind₂ => .pure ⟨rfl, ?_⟩
    have hRow : Script.kinds (ColumnType.argumentsRow ⟨typeName, some m, scale⟩) =
        .symbol .leftParen :: .integer value ::
          (Script.kinds (scaleRow scale) ++ [.symbol .rightParen]) := by
      rw [argumentsRow_some, ← hSame]
      simp [Glyph.kinds]
    rw [hRow]
    refine Accounts.cons hTokens hKind rfl ?_
    refine Accounts.cons hTokens' hValue (step_number hPositive) ?_
    exact hScale.concat hTokens₂ hKind₂ rfl
  · exact .pure ⟨rfl, Accounts.refl _ _⟩

theorem keeps_columnType : Accounted n k .columnType (fun _ => columnType) (.before []) := by
  intro s hs
  rw [AccountedAt, columnType_eq]
  refine After.name hs.toRoom fun t rest first hTokens hFirst hKind => ?_
  have hTaken := hs.take hTokens
  have hType : ∀ (second : Option String) (s₁ : State), Fair n k s₁ →
      (∀ word, second = some word → IsName word) →
      Accounts s s₁ (.before []) .behind (Script.kinds (typeRow first second)) →
      After (typeArguments (typeName first second)) s₁ fun x s' => Print.columnType.Okay x ∧
        Accounts s s' (.before []) .behind (Script.kinds (Print.columnType.row x)) := by
    intro second s₁ hs₁ hSecond hName
    refine After.imp (keeps_typeArguments _ hs₁) fun type s' hType => ?_
    obtain ⟨hTypeName, hArguments⟩ := hType
    have hRow : type.row = typeRow first second ++ type.argumentsRow := by
      rw [ColumnType.row, hTypeName, typeNameRow_eq hFirst hSecond]
    refine ⟨fun node hNode => by (cases hNode), ?_⟩
    rw [show Print.columnType.row type = type.row from rfl, hRow, Script.kinds_append]
    exact hName.trans hArguments
  have hOne : Accounts s (s.take t rest) (.before []) .behind [wordKind first] :=
    Accounts.cons hTokens hKind (step_name hFirst) (Accounts.refl _ _)
  refine After.take (fun u rest' word hTokens' hWord => ?_) fun _ => ?_
  · obtain ⟨hName, -, hKind'⟩ := secondWord?_spec (hTaken.bare_head hTokens') hWord
    obtain ⟨name, hIdentifier⟩ := kind_of_secondWord? hWord
    refine hType (some word) _ ((hTaken.take hTokens').mono (by omega)) ?_ ?_
    · rintro _ ⟨rfl⟩
      exact hName
    · have hTwo : Accounts s _ (.before []) .behind ([wordKind first] ++ [.identifier name]) :=
        hOne.concat hTokens' hIdentifier rfl
      rw [← hIdentifier, hKind'] at hTwo
      exact hTwo
  · exact hType none _ (hTaken.mono (Nat.le_succ k)) (by simp) hOne

/-! ## Parameters -/

theorem keeps_placeholder (hs : Fair n k s) (hKind : s.current.kind = .symbol .question) :
    AccountedAt .term placeholder (.before []) s := by
  obtain ⟨t, rest, hTokens, hCurrent⟩ := hs.exists_token (by simp [hKind]) (by simp [hKind])
  have hMark : Accounts s (s.take t rest) (.before []) .behind [.symbol .question] :=
    Accounts.cons hTokens (hCurrent ▸ hKind) rfl (Accounts.refl _ _)
  have hRow : ∀ (number : Option Nat) (s₁ : State),
      Accounts s s₁ (.before []) .behind (Glyph.mark number).kinds →
      After (Term.placeholder <$> Placeholder.mk number <$> nextPlaceholder) s₁ fun x s' =>
        Print.term.Okay x ∧
          Accounts s s' (.before []) .behind (Script.kinds (Print.term.row x)) := by
    intro number s₁ hNumber _
    refine ⟨okay_term trivial (by simp), ?_⟩
    have hKinds : Script.kinds [Glyph.mark number] = (Glyph.mark number).kinds := by simp
    exact hKinds ▸ hNumber
  rw [AccountedAt, placeholder_eq]
  refine After.look (After.advance hTokens ?_)
  refine After.take (fun u rest' m hTokens' hNumber => ?_) fun _ => hRow none _ hMark
  refine hRow (some m) _ ?_
  split at hNumber
  · obtain ⟨value, hValue, hPositive, hSame⟩ :=
      kind_of_unsigned? ((hs.take hTokens).bare_head hTokens') hNumber
    rw [Glyph.kinds, hSame]
    exact hMark.concat hTokens' hValue rfl
  · cases hNumber

theorem keeps_namedParameter (hs : Fair n k s) (hKind : s.current.kind = .symbol .atSign) :
    AccountedAt .term namedParameter (.before []) s := by
  obtain ⟨t, rest, hTokens, hCurrent⟩ := hs.exists_token (by simp [hKind]) (by simp [hKind])
  rw [AccountedAt, namedParameter_eq]
  refine After.look (After.advance hTokens (After.name (hs.take hTokens).toRoom ?_))
  intro u rest₁ m hTokens₁ hm hKind₁
  have hTaken := (hs.take hTokens).take hTokens₁
  have hName : Accounts s ((s.take t rest).take u rest₁) (.before []) .behind
      [.symbol .atSign, wordKind m] :=
    Accounts.cons hTokens (hCurrent ▸ hKind) rfl
      (Accounts.cons hTokens₁ hKind₁ (step_name hm) (Accounts.refl _ _))
  refine After.eatIte (fun v rest₂ hTokens₂ hKind₂ => ?_) fun _ => After.look ?_
  · refine After.name (hTaken.take hTokens₂).toRoom fun w rest₃ first hTokens₃ hFirst hKind₃ => ?_
    have hTaken₃ := (hTaken.take hTokens₂).take hTokens₃
    refine (keeps_names .type hTaken₃).bind ?_
    rintro parts s' ⟨hRest, hDotted⟩ - -
    refine ⟨okay_term trivial (by simp), ?_⟩
    have hRow : ∀ span, Script.kinds
        (Term.row (.parameter ⟨m, dottedText first parts, true, span⟩)) =
        [.symbol .atSign, wordKind m] ++ [.symbol .colon] ++ [wordKind first] ++
          Script.kinds (dotted parts) := by
      intro span
      rw [Term.row, NamedParameter.row, if_pos rfl, dottedRow_dottedText hFirst hRest]
      simp [Glyph.kinds]
    have hType :=
      ((hName.concat hTokens₂ hKind₂ rfl).concat hTokens₃ hKind₃ (step_name hFirst)).trans
      hDotted
    exact (hRow _).symm ▸ hType
  · split
    · next typeName hLookup =>
      intro hError
      refine ⟨okay_term trivial (by simp), ?_⟩
      have hRow : Script.kinds (Term.row (.parameter ⟨m, typeName, false, s.current.span⟩)) =
          [.symbol .atSign, wordKind m] := by
        simp [Term.row, NamedParameter.row, Glyph.kinds]
      exact hRow ▸ hName
    · exact After.failUntyped

/-! ## Parentheses and casts -/

theorem Keeps.parenthesized (h : Keeps n) (hs : Fair n k s)
    (hKind : s.current.kind = .symbol .leftParen) :
    AccountedAt .term (parenthesized (.upTo n)) (.before []) s := by
  obtain ⟨t, rest, hTokens, hCurrent⟩ := hs.exists_token (by simp [hKind]) (by simp [hKind])
  have hTaken := (hs.take hTokens).mono (Nat.succ_le_succ (Nat.zero_le k))
  rw [AccountedAt, congrFun parenthesized_eq]
  refine After.advance hTokens (After.look ?_)
  rw [hTaken.no_query]
  refine After.bind (After.made (h _ hTaken)) ?_
  rintro _ s₁ ⟨x, rfl, hOkay, hInner⟩ -
  refine After.expect fun u rest' hTokens' hKind' => .pure ⟨okay_term trivial hOkay, ?_⟩
  have hRow : Script.kinds (Term.row (.paren x)) =
      .symbol .leftParen :: (Script.kinds x.row ++ [.symbol .rightParen]) := by
    simp [Term.row, Glyph.kinds]
  rw [show Print.term.row (.paren x) = Term.row (.paren x) from rfl, hRow]
  exact Accounts.cons hTokens (hCurrent ▸ hKind) rfl (hInner.concat hTokens' hKind' rfl)

theorem Keeps.castTerm (h : Keeps n) (hs : Fair n k s) (hKind : s.current.kind = .keyword .CAST) :
    AccountedAt .term (castTerm (.upTo n)) (.before []) s := by
  obtain ⟨t, rest, hTokens, hCurrent⟩ := hs.exists_token (by simp [hKind]) (by simp [hKind])
  have hTaken := hs.take hTokens
  refine After.advance hTokens (After.expect fun u rest₁ hTokens₁ hKind₁ => ?_)
  have hTaken₁ := (hTaken.take hTokens₁).mono (Nat.succ_le_succ (Nat.zero_le (k + 1)))
  refine After.bind (h _ hTaken₁) fun x s₁ hInner hMoves => ?_
  refine After.expectKeyword fun v rest₂ hTokens₂ hKind₂ => ?_
  have hTaken₂ := (hTaken₁.moves hMoves).take hTokens₂
  refine After.bind (keeps_columnType _ hTaken₂) fun type s₂ hType _ => ?_
  refine After.expect fun w rest₃ hTokens₃ hKind₃ => .pure ⟨okay_term trivial hInner.1, ?_⟩
  have hRow : Script.kinds (Term.row (.cast x type)) = .keyword .CAST :: .symbol .leftParen ::
      (Script.kinds x.row ++ .keyword .AS :: (Script.kinds type.row ++ [.symbol .rightParen])) := by
    simp [Term.row, Glyph.kinds]
  rw [show Print.term.row (.cast x type) = Term.row (.cast x type) from rfl, hRow]
  refine Accounts.cons hTokens (hCurrent ▸ hKind) rfl (Accounts.cons hTokens₁ hKind₁ rfl ?_)
  refine hInner.2.trans (Accounts.cons hTokens₂ hKind₂ rfl ?_)
  exact hType.2.concat hTokens₃ hKind₃ rfl

/-! ## Cases -/

theorem Keeps.branch (h : Keeps n) : Accounted n 1 .branch branch (.before []) := by
  have hResult := (h.mono (Nat.le_succ 1)).behindWord .THEN rfl
  refine (h.pair hResult).map (q := .branch) (f := fun x => ⟨x.1, x.2⟩)
    ⟨fun _ => rfl, fun _ => rfl, ?_⟩
  rintro ⟨x, x'⟩ ⟨y, y'⟩ hLike
  obtain ⟨hFirst, hSecond⟩ := Prod.mk.inj hLike
  exact congrArg₂ Branch.mk hFirst hSecond

/-- A token that is accepted for being of one kind. -/
theorem kind_of_accept {kind : TokenKind} {b : Unit}
    (h : (if t.kind = kind then some () else none) = some b) : t.kind = kind := by
  split at h
  · assumption
  · cases h

/-- The branches of a `CASE` stand behind its operand or behind its first word. -/
theorem Keeps.caseBranches (h : Keeps n) (hs : Fair n 1 s) {p : Place}
    (hPlace : p = .before [] ∨ p = .behind) :
    AccountedAt .branches (caseBranches (.upTo n)) p s := by
  have hStep : p.step (.keyword .WHEN) = ([.keyword .WHEN], .before []) := by
    rcases hPlace with rfl | rfl <;> rfl
  have hBranch := h.branch.mono (Nat.le_succ 1)
  refine After.look ?_
  split
  · next hSees =>
    have hKind : s.current.kind = .keyword .WHEN := by simpa using hSees
    obtain ⟨t, rest, hTokens, hCurrent⟩ := hs.exists_token (by simp [hKind]) (by simp [hKind])
    have hTaken := hs.take hTokens
    refine After.chain hTokens (if_pos (hCurrent ▸ hKind) : whenAccept t = some ()) ?_
    refine After.bind (hBranch _ hTaken) fun x s₁ hFirst hMoves => ?_
    have hChain := whenOperators.accounted (fun t b hAccept => by
      rw [kind_of_accept hAccept]; rfl) hBranch
    have hRoom := (hTaken.moves hMoves).mono (Nat.le_succ 1)
    refine After.imp (After.made (hChain _ hRoom)) ?_
    rintro _ s₂ ⟨xs, rfl, hOkay, hRest⟩
    constructor
    · intro node hNode
      have hMem : node ∈ Print.branch.nodes x ∨ node ∈ Print.branches.nodes xs :=
        List.mem_append.mp hNode
      exact hMem.elim (hFirst.1 node) (hOkay node)
    · have hRow : Script.kinds (Print.branches.row (x :: xs)) =
          .keyword .WHEN ::
          (Script.kinds (Print.branch.row x) ++ Script.kinds (Print.branches.row xs)) := by
        simp [Print.branches, Print.all, Print.behind, Glyph.kinds]
      rw [hRow]
      exact Accounts.cons hTokens (hCurrent ▸ hKind) hStep (hFirst.2.trans hRest)
  · exact After.fail

theorem Keeps.caseRest (h : Keeps n) (hs : Fair n 1 s) (operand : Option Expr) {p : Place}
    (hPlace : p = .before [] ∨ p = .behind) :
    After (caseRest (.upTo n) operand) s fun x s' => ∃ branches otherwise,
      x = .case operand branches otherwise ∧ Print.branches.Okay branches ∧
        (Print.expr.afterWord .ELSE).Okay otherwise ∧
        Accounts s s' p .behind (Script.kinds (Print.branches.row branches) ++
          (Script.kinds ((Print.expr.afterWord .ELSE).row otherwise) ++ [.keyword .END])) := by
  have hElse := (h.mono (Nat.le_succ 1)).after .ELSE rfl
  refine After.bind (h.caseBranches hs hPlace) fun branches s₁ hBranches hMoves => ?_
  refine After.bind (hElse _ (hs.moves hMoves)) fun otherwise s₂ hOtherwise _ => ?_
  refine After.expectKeyword fun t rest hTokens hKind => .pure ?_
  refine ⟨branches, otherwise, rfl, hBranches.1, hOtherwise.1, ?_⟩
  exact hBranches.2.trans (hOtherwise.2.concat hTokens hKind rfl)

theorem Keeps.caseTerm (h : Keeps n) (hs : Fair n k s) (hKind : s.current.kind = .keyword .CASE) :
    AccountedAt .term (caseTerm (.upTo n)) (.before []) s := by
  obtain ⟨t, rest, hTokens, hCurrent⟩ := hs.exists_token (by simp [hKind]) (by simp [hKind])
  have hTaken := (hs.take hTokens).mono (Nat.succ_le_succ (Nat.zero_le k))
  have hOperand : After (caseOperand (.upTo n)) (s.take t rest) fun operand s' =>
      Print.operandOfCase.Okay operand ∧ ∃ p, (p = .before [] ∨ p = .behind) ∧
        Accounts (s.take t rest) s' (.before []) p
        (Script.kinds (Print.operandOfCase.row operand)) := by
    refine After.look ?_
    split
    · exact .pure ⟨fun node hNode => by (cases hNode), _, Or.inl rfl, Accounts.refl _ _⟩
    · refine After.imp (After.made (h _ hTaken)) ?_
      rintro _ s' ⟨x, rfl, hOkay, hInner⟩
      exact ⟨hOkay, _, Or.inr rfl, hInner⟩
  rw [AccountedAt, congrFun caseTerm_eq]
  refine After.advance hTokens (After.bind hOperand ?_)
  rintro operand s₁ ⟨hOkay, p, hPlace, hFirst⟩ hMoves
  refine After.imp (h.caseRest (hTaken.moves hMoves) operand hPlace) ?_
  rintro _ s₂ ⟨branches, otherwise, rfl, hBranches, hOtherwise, hRest⟩
  constructor
  · intro node hNode
    rw [nodes_case] at hNode
    refine okay_term (x := .case operand branches otherwise) trivial
      (fun node hNode => ?_) node hNode
    rcases List.mem_append.mp hNode with hNode | hNode
    · exact hOkay node hNode
    · exact (List.mem_append.mp hNode).elim (hBranches node) (hOtherwise node)
  · have hRow : Script.kinds (Term.row (.case operand branches otherwise)) = .keyword .CASE ::
        (Script.kinds (Print.operandOfCase.row operand) ++
          (Script.kinds (Print.branches.row branches) ++
            (Script.kinds ((Print.expr.afterWord .ELSE).row otherwise) ++ [.keyword .END]))) := by
      rw [Term.row, rowAll_branches, rowAfter_eq .ELSE]
      cases operand <;> simp [Expr.rowAfter, Print.operandOfCase, Print.option, Print.behind,
        Print.expr, Glyph.kinds]
    rw [show Print.term.row _ = Term.row (.case operand branches otherwise) from rfl, hRow]
    exact Accounts.cons hTokens (hCurrent ▸ hKind) rfl (hFirst.trans hRest)

/-! ## Calls and paths -/

theorem Keeps.callList (h : Keeps n) (hs : Fair n 1 s) (function : String) (distinct : Bool) :
    After (Grammar.callList function (.upTo n) distinct) s fun x s' => ∃ arguments,
      x = .call function distinct arguments ∧ Print.expr.commas.Okay arguments ∧
        Accounts s s' (.before []) .behind
          (Script.kinds (Print.expr.commas.row arguments) ++ [.symbol .rightParen]) := by
  refine After.bind (h.separated _ hs) fun arguments s₁ hArguments _ => ?_
  refine After.expect fun t rest hTokens hKind => .pure ⟨arguments, rfl, hArguments.1, ?_⟩
  exact hArguments.2.concat hTokens hKind rfl

/-- A call behind its opening parenthesis. -/
theorem Keeps.callArguments (h : Keeps n) (hs : Fair n (k + 1) s) (function : String) :
    After (callArguments (.upTo n) function) s fun call s' => Print.term.Okay call ∧ ∃ ks,
      Script.kinds call.row = wordKind function :: .symbol .leftParen :: ks ∧
        Accounts s s' (.before []) .behind ks := by
  have hList : ∀ (distinct : Bool) (s₀ : State), Fair n 1 s₀ →
      Accounts s s₀ (.before []) (.before []) (Script.kinds (optionalWord distinct .DISTINCT)) →
      After (Grammar.callList function (.upTo n) distinct) s₀ fun call s' =>
        Print.term.Okay call ∧ ∃ ks,
        Script.kinds call.row = wordKind function :: .symbol .leftParen :: ks ∧
          Accounts s s' (.before []) .behind ks := by
    intro distinct s₀ hs₀ hWord
    refine After.imp (h.callList hs₀ function distinct) ?_
    rintro _ s' ⟨arguments, rfl, hOkay, hArguments⟩
    refine ⟨?_, _, ?_, hWord.trans hArguments⟩
    · rw [Print.Okay, nodes_call]
      exact okay_term trivial hOkay
    · rw [Term.row, rowAll_expressions]
      simp [Glyph.kinds]
  refine After.eatIte (fun t rest hTokens hKind => ?_) fun _ => After.look ?_
  · refine After.expect fun u rest' hTokens' hKind' => .pure ⟨okay_term trivial (by simp), ?_⟩
    refine ⟨[.symbol .star, .symbol .rightParen], by simp [Term.row, Glyph.kinds], ?_⟩
    exact Accounts.cons hTokens hKind rfl (Accounts.cons hTokens' hKind' rfl (Accounts.refl _ _))
  · split
    · refine After.expect fun u rest' hTokens' hKind' => .pure ⟨okay_term trivial ?_, ?_⟩
      · simp [Expr.nodesAll]
      · refine ⟨[.symbol .rightParen], ?_, Accounts.cons hTokens' hKind' rfl (Accounts.refl _ _)⟩
        simp [Term.row, Glyph.kinds, optionalWord, Expr.rowAll, commaRow]
    · refine After.eat (f := Grammar.callList function (.upTo n))
        (fun t rest hTokens hKind => ?_) fun _ => ?_
      · refine hList true _ ((hs.take hTokens).mono (by omega)) ?_
        exact Accounts.cons hTokens hKind rfl (Accounts.refl _ _)
      · exact hList false s (hs.mono (by omega)) (Accounts.refl _ _)

theorem Keeps.pathOrCall (h : Keeps n) (hs : Fair n k s) :
    AccountedAt .term (pathOrCall (.upTo n)) (.before []) s := by
  refine After.name hs.toRoom fun t rest m hTokens hm hKind => ?_
  have hTaken := hs.take hTokens
  refine After.eatIte (fun u rest' hTokens' hKind' => ?_) fun _ => ?_
  · refine After.imp (h.callArguments (hTaken.take hTokens') m) ?_
    rintro call s' ⟨hOkay, ks, hRow, hCall⟩
    refine ⟨hOkay, ?_⟩
    rw [show Print.term.row call = call.row from rfl, hRow]
    exact Accounts.cons hTokens hKind (step_name hm) (Accounts.cons hTokens' hKind' rfl hCall)
  · refine (keeps_names .identifier hTaken).bind ?_
    rintro names s' ⟨-, hNames⟩ -
    refine .pure ⟨okay_term trivial (by simp), ?_⟩
    have hRow : Script.kinds (Term.row (.path ⟨m, names⟩)) =
        wordKind m :: Script.kinds (dotted names) := by
      simp [Term.row, Path.row, Glyph.kinds]
    rw [show Print.term.row (.path ⟨m, names⟩) = Term.row (.path ⟨m, names⟩) from rfl, hRow]
    exact Accounts.cons hTokens hKind (step_name hm) hNames

/-! ## Terms without a sign -/

/-- A term that is no constant keeps its tokens. -/
theorem Keeps.termOfKind (h : Keeps n) (hs : Fair n k s) {kind : TokenKind}
    (hKind : s.current.kind = kind) :
    AccountedAt .term (termOfKind (.upTo n) kind) (.before []) s := by
  by_cases hQuestion : kind = .symbol .question
  · subst hQuestion
    exact keeps_placeholder hs hKind
  by_cases hAt : kind = .symbol .atSign
  · subst hAt
    exact keeps_namedParameter hs hKind
  by_cases hParen : kind = .symbol .leftParen
  · subst hParen
    exact h.parenthesized hs hKind
  by_cases hCase : kind = .keyword .CASE
  · subst hCase
    exact h.caseTerm hs hKind
  by_cases hCast : kind = .keyword .CAST
  · subst hCast
    exact h.castTerm hs hKind
  rw [termOfKind_of_ne hQuestion hAt hParen hCase hCast]
  refine After.look ?_
  split
  · exact h.pathOrCall hs
  · exact After.fail

/-- A constant ends an operand. -/
theorem step_literal {value : Literal} (h : ∀ v, value = .integer v → 0 ≤ v.toInt) :
    (Place.before []).step (literalKind value) = ([literalKind value], .behind) := by
  cases value with
  | integer value => exact step_number (h value rfl)
  | boolean value => cases value <;> rfl
  | float | string | null => rfl

/-- What is known of the start of a term without a sign: a number is one token, and nothing else
starts with one. -/
def StartsWith (x : Term) (s s' : State) : Prop :=
  (isNumber x = true → ∃ v t rest, x = .literal (.integer v) ∧ 0 ≤ v.toInt ∧
    s.tokens = t :: rest ∧ t.kind = .integer v ∧ s' = s.take t rest) ∧
  (isNumber x = false → ∀ t rest, s.tokens = t :: rest → ∀ v, t.kind ≠ .integer v)

theorem Keeps.unsignedTerm (h : Keeps n) (hs : Fair n k s) :
    After (unsignedTerm (.upTo n)) s fun x s' => Print.term.Okay x ∧
      Accounts s s' (.before []) .behind (Script.kinds (Print.term.row x)) ∧ StartsWith x s s' := by
  refine After.of_eq (unsignedTerm_eq _) (After.take (fun t rest value hTokens hValue => ?_) ?_)
  · have hKind := kind_of_literalOf? hValue
    have hFloat : ∀ x, value ≠ .float x := by
      rintro x rfl
      have hFloat := hs.plain.float t (hTokens ▸ List.mem_cons_self)
      rw [hKind] at hFloat
      cases hFloat
    have hBare := hs.bare_head hTokens
    have hPositive : ∀ v, value = .integer v → 0 ≤ v.toInt := by
      rintro v rfl
      exact hBare.integer v hKind
    obtain ⟨g, hRow, hKinds, -⟩ := exists_glyph_of_literalOf? hBare hValue hFloat
    refine .pure ⟨okay_term ?_ (by simp), ?_, ?_, ?_⟩
    · cases value with
      | float x => exact absurd rfl (hFloat x)
      | _ => trivial
    · have hTerm : Script.kinds (Term.row (.literal value)) = [literalKind value] := by
        rw [Term.row, hRow, Script.kinds_cons, hKinds, hKind]
        rfl
      rw [show Print.term.row _ = Term.row (.literal value) from rfl, hTerm]
      exact Accounts.cons hTokens hKind (step_literal hPositive) (Accounts.refl _ _)
    · intro hNumber
      rcases exists_of_isNumber hNumber with ⟨v, hv⟩ | ⟨v, hv⟩
      · obtain rfl := Term.literal.inj hv
        exact ⟨v, t, rest, rfl, hPositive v rfl, hTokens, hKind, rfl⟩
      · exact absurd (Term.literal.inj hv) (hFloat v)
    · intro hNumber u rest' hTokens' v hInteger
      obtain ⟨rfl, -⟩ := List.cons.inj (hTokens.symm.trans hTokens')
      cases value with
      | integer value => cases hNumber
      | boolean value => cases value <;> cases hKind.symm.trans hInteger
      | _ => cases hKind.symm.trans hInteger
  · intro hNone
    refine After.look fun hError => ?_
    obtain ⟨hOkay, hTerm⟩ := h.termOfKind hs rfl hError
    have hNumber : isNumber ((Grammar.termOfKind (.upTo n) s.current.kind).run s).1 = false :=
      isNumber_termOfKind
    refine ⟨hOkay, hTerm, fun hTrue => ?_, fun _ t rest hTokens v hKind => ?_⟩
    · cases hNumber.symm.trans hTrue
    · have hLiteral : literalOf? t = some (.integer v) := by
        unfold literalOf?
        rw [hKind]
      cases (hNone t rest hTokens).symm.trans hLiteral

/-! ## Terms with signs -/

section Leading

variable {β : Type} {accept : Token → Option β} {glyph : β → Glyph} {kind : β → TokenKind}

/-- The tokens that were taken in front of something. -/
theorem taken_leading (h : Leaders accept glyph kind) (s : State) :
    ∃ ts, s.tokens = ts ++ ((Parse.chain accept Pure.pure).run s).2.tokens ∧
      ts.map Token.kind = ((Parse.chain accept Pure.pure).run s).1.map kind := by
  simp only [Parse.chain]
  fun_induction chainFrom accept Pure.pure s with
  | case1 s => exact ⟨[], rfl, rfl⟩
  | case2 s => exact ⟨[], rfl, rfl⟩
  | case3 s t rest hTokens b hAccept after more ih =>
    obtain ⟨ts, hRest, hKinds⟩ := ih
    refine ⟨t :: ts, ?_, ?_⟩
    · rw [hTokens]
      exact congrArg (t :: ·) hRest
    · rw [List.map_cons, hKinds, h.accepted b t hAccept]
      rfl

theorem After.taken (h : Leaders accept glyph kind) (hs : Fair n k s) :
    After (Parse.chain accept Pure.pure) s fun bs s' => (∀ b, s'.current.kind ≠ kind b) ∧
      ∃ ts, s.tokens = ts ++ s'.tokens ∧ ts.map Token.kind = bs.map kind :=
  fun hError => ⟨(After.leading h hs.toRoom hError).2.1, taken_leading h s⟩

end Leading

/-- Signs in front of an operand wait for it. -/
theorem scan_signs (signs more : List Bool) :
    scan (.before signs) (signKinds more) = ([], .before (signs ++ more)) := by
  induction more generalizing signs with
  | nil => simp [signKinds, scan]
  | cons negative more ih =>
    have hStep : (Place.before signs).step (.symbol (signSymbol negative)) =
        ([], .before (signs ++ [negative])) := by cases negative <;> rfl
    have hMore := ih (signs ++ [negative])
    rw [signKinds] at hMore ⊢
    rw [List.map_cons, scan, hStep, hMore]
    simp

theorem kinds_signRow (signs : List Bool) : Script.kinds (signRow signs) = signKinds signs := by
  induction signs with
  | nil => rfl
  | cons negative signs ih =>
    rw [signRow, leadRow, List.flatMap_cons, ← leadRow, ← signRow, Script.kinds_append, ih]
    rfl

/-- A number is written with its sign. -/
theorem kinds_integerRow {v w : Int64} (hv : 0 ≤ v.toInt) (hw : w = v ∨ w = -v) :
    Script.kinds (integerRow w.toInt) = numberKinds w := by
  have hNegative : (-v).toInt = -v.toInt := toInt_neg_of_le (by omega)
  have hValue : TokenKind.integer (Int64.ofNat v.toInt.toNat) = .integer v :=
    congrArg TokenKind.integer (ofNat_toNat_toInt hv)
  rcases hw with rfl | rfl
  · have hAbs : w.toInt.natAbs = w.toInt.toNat := by omega
    rw [integerRow, numberKinds, if_neg (by omega), if_neg (by omega), hAbs]
    exact congrArg (fun kind => [kind]) hValue
  · have hAbs : (-v.toInt).natAbs = v.toInt.toNat := by omega
    rw [integerRow, numberKinds, hNegative, hAbs, Int64.neg_neg]
    split
    · exact congrArg (fun kind => [.symbol .minus, kind]) hValue
    · have hZero : v.toInt = 0 := by omega
      obtain rfl : v = 0 := Int64.toInt_inj.mp hZero
      rfl

/-- No minus of the signs stands behind another one. -/
theorem okay_foldr_signed {x : Term} {signs : List Bool} (h : Print.term.Okay x)
    (hx : ∀ negative y, x ≠ .signed negative y)
    (hSigns : signs.IsChain fun negative next => ¬ (negative = true ∧ next = true)) :
    Print.term.Okay (signs.foldr .signed x) := by
  induction signs with
  | nil => exact h
  | cons negative signs ih =>
    refine okay_term ?_ (ih hSigns.tail)
    cases negative with
    | false => trivial
    | true =>
      cases signs with
      | nil =>
        cases x with
        | signed negative y => exact absurd rfl (hx negative y)
        | _ => trivial
      | cons next signs =>
        cases next with
        | false => trivial
        | true => exact absurd ⟨rfl, rfl⟩ (List.isChain_cons_cons.mp hSigns).1

theorem chain_signs {ts us vs : List Token} {signs : List Bool} (h : PlainTokens us)
    (hTokens : us = ts ++ vs) (hKinds : ts.map Token.kind = signKinds signs) :
    signs.IsChain fun negative next => ¬ (negative = true ∧ next = true) := by
  have hChain := (hTokens ▸ h.minus).left_of_append
  have hMap : (signKinds signs).IsChain fun kind next =>
      ¬ (kind = .symbol .minus ∧ next = .symbol .minus) := by
    rw [← hKinds]
    exact (List.isChain_map Token.kind).mpr hChain
  refine ((List.isChain_map _).mp hMap).imp ?_
  rintro _ _ hNot ⟨rfl, rfl⟩
  exact hNot ⟨rfl, rfl⟩

/-- What starts with no sign is no signed term. -/
theorem Accounts.not_signed {x : Term} {q : Place}
    (h : Accounts s s' (.before []) q (Script.kinds x.row))
    (hKind : ∀ t rest, s.tokens = t :: rest → isSigned t.kind = false) (negative : Bool)
    (y : Term) :
    x ≠ .signed negative y := by
  rintro rfl
  obtain ⟨ts, hTokens, hScan⟩ := h
  have hRow : Script.kinds (Term.row (.signed negative y)) =
      .symbol (signSymbol negative) :: Script.kinds y.row := rfl
  rw [hRow] at hScan
  cases ts with
  | nil => cases hScan
  | cons t ts =>
    have hSigned := hKind t _ hTokens
    rw [List.map_cons, scan, step_unsigned [] hSigned] at hScan
    have hWritten : writtenKind t.kind = .symbol (signSymbol negative) :=
      (List.cons.inj (Prod.mk.inj hScan).1).1
    have hSame : t.kind = .symbol (signSymbol negative) := by
      unfold writtenKind at hWritten
      split at hWritten
      · cases hWritten
      · exact hWritten
    rw [hSame] at hSigned
    cases negative <;> cases hSigned

/-- Terms keep their tokens. -/
theorem Keeps.term (h : Keeps n) : Accounted n k .term term (.before []) := by
  intro s hs
  refine After.bind (After.taken leaders_sign hs) ?_
  rintro signs s₁ ⟨hEnd, ts, hTokens, hKinds⟩ hMoves
  refine After.bind (h.unsignedTerm (hs.moves hMoves)) ?_
  rintro x s₂ ⟨hOkay, hTerm, hNumber, hOther⟩ -
  refine .pure ?_
  have hLead : Accounts s s₁ (.before []) (.before signs) [] := by
    refine ⟨ts, hTokens, ?_⟩
    rw [hKinds]
    exact scan_signs [] signs
  cases hx : isNumber x with
  | true =>
    obtain ⟨v, t, rest, rfl, hv, hRest, hKind, rfl⟩ := hNumber hx
    obtain ⟨hSame, hValue⟩ := foldr_applySign_integer signs v
    rw [hSame]
    have hRow : Script.kinds (Print.term.row (.literal (.integer (foldSigns signs v)))) =
        numberKinds (foldSigns signs v) ++ [] := by
      rw [List.append_nil]
      exact kinds_integerRow hv hValue
    refine ⟨okay_term trivial (by simp), ?_⟩
    rw [hRow]
    have hNumberStep :
      Place.step (.before signs) t.kind = (numberKinds (foldSigns signs v), .behind) := by
      rw [hKind]
      rfl
    exact hLead.trans (Accounts.step hRest hNumberStep (Accounts.refl _ _))
  | false =>
    have hStart : ∀ t rest, s₁.tokens = t :: rest → isSigned t.kind = false := by
      intro t rest hRest
      have hSign : ∀ b, t.kind ≠ .symbol (signSymbol b) := State.current_cons hRest ▸ hEnd
      have hInteger := hOther hx t rest hRest
      unfold isSigned
      split
      · next hKind => exact absurd hKind (hSign true)
      · next hKind => exact absurd hKind (hSign false)
      · next hKind => exact absurd hKind (hInteger _)
      · rfl
    obtain ⟨hSame, -⟩ := @foldr_applySign signs x hx
    have hRow : Script.kinds (Print.term.row (signs.foldr .signed x)) =
        signKinds signs ++ Script.kinds x.row := by
      rw [show Print.term.row _ = (signs.foldr Term.signed x).row from rfl, row_signed,
        Script.kinds_append, kinds_signRow]
    rw [hSame]
    constructor
    · exact okay_foldr_signed hOkay (hTerm.not_signed hStart) (chain_signs hs.plain hTokens hKinds)
    · rw [hRow]
      exact hLead.trans (hTerm.signed hStart signs)

end SqlKit.Grammar
