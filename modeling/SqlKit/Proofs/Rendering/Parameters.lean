import SqlKit.Proofs.Rendering.Leaves

/-!
# Constants and parameters are read back

These are the terms without a sign that hold no further terms, names apart. `Opening` tells how the
row of a term starts: with a token of the kind that was read, and not like `name.*`.
-/

namespace SqlKit.Grammar

open Parse

variable {n k : Nat} {s : State}

/-- Kinds of tokens that may stand for a name. -/
def isNameKind : TokenKind → Bool
  | .identifier _ => true
  | .keyword word => !word.isReserved
  | _ => false

theorem isSome_nameOf? (t : Token) : (nameOf? t).isSome = isNameKind t.kind := by
  unfold nameOf?
  cases hKind : t.kind with
  | keyword word => cases hFree : word.isReserved <;> simp [isNameKind, hFree]
  | _ => rfl

theorem isNameKind_wordKind {m : String} (h : IsName m) : isNameKind (wordKind m) = true := by
  have hName := nameOf?_of_isName (t := ⟨wordKind m, .atStart, m⟩) h rfl rfl
  have hSome := isSome_nameOf? ⟨wordKind m, .atStart, m⟩
  rw [hName] at hSome
  exact hSome.symm

theorem isName_iff {text : String} :
    IsName text ↔ isWord text.toList = true ∧ isNameKind (wordKind text) = true := by
  refine ⟨fun h => ⟨h.word, isNameKind_wordKind h⟩, fun ⟨hWord, hKind⟩ => ⟨hWord, fun w h => ?_⟩⟩
  simpa [h, isNameKind] using hKind

instance (text : String) : Decidable (IsName text) := decidable_of_iff' _ isName_iff

/-- How the kinds of a row start: with a token of some kind that is none of the words behind
`SELECT`, and not like `name.*`. -/
structure Opening (kind : TokenKind) (ks : List TokenKind) : Prop where
  head : first ks = kind
  fresh : kind ≠ .keyword .ALL ∧ kind ≠ .keyword .DISTINCT
  noStar : ¬ (isNameKind kind = true ∧ ks[1]? = some (.symbol .dot) ∧
    ks[2]? = some (.symbol .star))

/-- A row that starts with no name. -/
theorem Opening.of_not_name {kind : TokenKind} {ks : List TokenKind} (hHead : first ks = kind)
    (hName : isNameKind kind = false)
    (hFresh : kind ≠ .keyword .ALL ∧ kind ≠ .keyword .DISTINCT) : Opening kind ks :=
  ⟨hHead, hFresh, fun h => Bool.noConfusion (hName.symm.trans h.1)⟩

theorem fresh_of_isNameKind {kind : TokenKind} (h : isNameKind kind = true) :
    kind ≠ .keyword .ALL ∧ kind ≠ .keyword .DISTINCT := by
  constructor <;> rintro rfl <;> exact absurd h (by decide)

/-- How a term is written. -/
def Print.term : Print Term := ⟨Term.row, Term.nodes⟩

/-! ## Constants -/

/-- The kind of the token that a constant without a sign is read from. -/
def literalKind : Literal → TokenKind
  | .integer value => .integer value
  | .float value => .float value
  | .string value => .string value
  | .boolean true => .keyword .TRUE
  | .boolean false => .keyword .FALSE
  | .null => .keyword .NULL

theorem kind_of_literalOf? {t : Token} {value : Literal} (h : literalOf? t = some value) :
    t.kind = literalKind value := by
  obtain ⟨kind, span, text⟩ := t
  cases kind with
  | keyword word => cases word <;> cases h <;> rfl
  | integer | float | string => cases h; rfl
  | identifier | symbol | unknown | endOfInput => cases h

/-- The glyph of a constant that was read from a token. -/
theorem exists_glyph_of_literalOf? {t : Token} {value : Literal} (h : t.Bare)
    (hLiteral : literalOf? t = some value) (hFloat : ∀ x, value ≠ .float x) :
    ∃ g : Glyph, value.row = [g] ∧ g.kinds = [t.kind] ∧ g.Fits ∧
      isNameKind t.kind = false ∧ (t.kind ≠ .keyword .ALL ∧ t.kind ≠ .keyword .DISTINCT) := by
  have hKind := kind_of_literalOf? hLiteral
  cases value with
  | integer value =>
    have hPositive := h.integer value hKind
    refine ⟨.integer value.toInt.toNat, ?_, ?_, toNat_toInt_le value, ?_⟩
    · have hAbs : value.toInt.natAbs = value.toInt.toNat := by omega
      rw [Literal.row, integerRow, if_neg (by omega), hAbs]
    · rw [hKind, Glyph.kinds, Glyph.integerKind, ofNat_toNat_toInt hPositive]
      rfl
    · simp [hKind, literalKind, isNameKind]
  | float x => exact absurd rfl (hFloat x)
  | string value =>
    exact ⟨.string value, rfl, by rw [hKind]; rfl, trivial,
      by simp [hKind, literalKind, isNameKind]⟩
  | boolean value =>
    cases value with
    | true => exact ⟨.keyword .TRUE, rfl, by rw [hKind]; rfl, trivial, by rw [hKind]; decide⟩
    | false => exact ⟨.keyword .FALSE, rfl, by rw [hKind]; rfl, trivial, by rw [hKind]; decide⟩
  | null => exact ⟨.keyword .NULL, rfl, by rw [hKind]; rfl, trivial, by rw [hKind]; decide⟩

/-- A constant is the same for all tokens of one kind. -/
theorem literalOf?_congr {t u : Token} (h : t.kind = u.kind) : literalOf? t = literalOf? u := by
  unfold literalOf?
  rw [h]

/-! ## Placeholders -/

/-- Takes the number that touches a question mark. -/
def touching (mark : Span) : Parse (Option Nat) :=
  take? fun t => if t.span.first.offset = mark.last.offset then unsigned? t else none

theorem run_placeholder {t : Token} {rest : List Token} {number : Option Nat} {s' : State}
    (hTokens : s.tokens = t :: rest)
    (hNumber : (touching s.current.span).run (s.take t rest) = (number, s')) :
    placeholder.run s = (.placeholder ⟨number, s'.placeholders + 1⟩, s'.countPlaceholder) := by
  rw [placeholder_eq]
  change (placeholderBehind s.current.span).run (advance.run s).2 = _
  rw [run_advance_cons hTokens]
  have hBehind : placeholderBehind s.current.span = touching s.current.span >>= fun number =>
      (fun position => Term.placeholder ⟨number, position⟩) <$> nextPlaceholder := rfl
  rw [hBehind, run_bind, hNumber]
  rfl

theorem Reads.placeholder {p : Placeholder} (h : ∀ number, p.number = some number →
    number ≤ maxUnsigned) :
    Reads k (fun _ => placeholder) [.mark p.number] [.place p.position] 1
      (· = .placeholder p) := by
  obtain ⟨number, position⟩ := p
  rintro depth s more τ hs - hMore ⟨rfl, rfl⟩
  cases number with
  | none =>
    obtain ⟨t, rest, hTokens, -, -, hNext⟩ := hs.token (g := .mark none) rfl
    have hNone : (touching s.current.span).run (s.take t rest) = (none, s.take t rest) := by
      cases hRest : rest with
      | nil => exact run_take?_nil rfl
      | cons u rest' =>
        refine run_take?_none rfl ?_
        have hKind := hNext.current
        rw [State.current_cons (s := s.take t rest) hRest] at hKind
        rw [unsigned?_none (hKind ▸ hMore)]
        exact ite_self none
    have hRun := run_placeholder hTokens hNone
    simp only [hRun]
    exact ⟨rfl, ⟨hNext.tokens, hNext.terminator, hNext.error⟩, rfl⟩
  | some number =>
    obtain ⟨t, u, rest, hTokens, -, hNumber, hTouch, hRest⟩ := hs.tokens.of_mark
    have hCurrent : s.current = t := State.current_cons hTokens
    have hSome : (touching s.current.span).run (s.take t (u :: rest)) =
        (some number, (s.take t (u :: rest)).take u rest) := by
      refine run_take?_some rfl ?_
      rw [hCurrent, if_pos hTouch, unsigned?_of_kind (h number rfl) hNumber]
    have hRun := run_placeholder hTokens hSome
    simp only [hRun]
    exact ⟨rfl, ⟨hRest, hs.terminator, hs.error⟩, rfl⟩

theorem shown_placeholder {p : Placeholder} (h : ∀ number, p.number = some number →
    number ≤ maxUnsigned) :
    Shown k .term (fun _ => placeholder) 1 (Opening (.symbol .question)) (.placeholder p)
      [.mark p.number] where
  row := rfl
  legal := by
    obtain ⟨number, position⟩ := p
    rw [Script.legal_singleton]
    cases number with
    | none => trivial
    | some m => exact (h m rfl).trans maxUnsigned_le
  leads more _ := by
    obtain ⟨number, position⟩ := p
    have hName : isNameKind (.symbol .question) = false := rfl
    refine Opening.of_not_name ?_ hName (by simp)
    cases number <;> rfl
  reads := by
    refine (Reads.placeholder h).imp ?_
    rintro _ rfl
    rfl

/-- A placeholder is written as it is read. -/
theorem faithful_placeholder (hs : Room n k s) (hKind : s.current.kind = .symbol .question) :
    FaithfulAt n k .term (fun _ => placeholder) 1 (Opening s.current.kind) s := by
  obtain ⟨t, rest, hTokens, -⟩ := hs.exists_token (by simp [hKind]) (by simp [hKind])
  have hRow : ∀ (number : Option Nat) (s' : State), s'.scope = s.scope →
      (∀ m, number = some m → m ≤ maxUnsigned) →
      After (Term.placeholder <$> Placeholder.mk number <$> nextPlaceholder) s' fun x s'' =>
        Legible .term (Shown k .term (fun _ => placeholder) 1 (Opening s.current.kind) x) x s
          s'' := by
    intro number s' hScope hNumber hError hOkay
    have hPlaceholders : s'.placeholders = s.placeholders := congrArg Scope.placeholders hScope
    have hBindings : s'.bindings = s.bindings := congrArg Scope.bindings hScope
    rw [hKind]
    refine ⟨⟨_, shown_placeholder (p := ⟨number, s'.placeholders + 1⟩) hNumber⟩, ?_, ?_⟩
    · change s'.placeholders + 1 = s.placeholders + 1
      rw [hPlaceholders]
    · change Scope.mk s.bindings (s.placeholders + 1) = ⟨s'.bindings, s'.placeholders + 1⟩
      rw [hPlaceholders, hBindings]
  rw [FaithfulAt, placeholder_eq]
  refine After.look (After.advance hTokens ?_)
  refine After.take (fun u rest' m hTokens' hNumber => ?_) fun _ => ?_
  · refine hRow (some m) _ rfl ?_
    rintro _ ⟨rfl⟩
    split at hNumber
    · exact of_unsigned? hNumber
    · cases hNumber
  · exact hRow none _ rfl fun _ h => nomatch h

/-! ## Named parameters -/

/-- The type of a parameter in the parts that it was read in. -/
def dottedText (first : String) (rest : List String) : String := ".".intercalate (first :: rest)

theorem dottedRow_dottedText {first : String} {rest : List String} (hFirst : IsName first)
    (hRest : ∀ part ∈ rest, IsName part) :
    dottedRow (dottedText first rest) = .name first :: dotted rest := by
  have hPoint : ∀ part ∈ first :: rest, '.' ∉ part.toList := by
    intro part hPart
    refine not_mem_of_isName ?_ (by decide) (by decide)
    exact List.forall_mem_cons.mpr ⟨hFirst, hRest⟩ part hPart
  exact congrArg (wordRow (.symbol .dot)) (wordsOf_intercalate hPoint)

theorem Reads.declaration {m first : String} {rest : List String} (hm : IsName m)
    (hFirst : IsName first) (hRest : ∀ part ∈ rest, IsName part) (span : Span) :
    Reads k (fun _ => namedParameter)
      (.symbol .atSign :: .name m :: .symbol .colon :: .name first :: dotted rest)
      [.declared m (dottedText first rest)] 1
      (Like .spans (Term.parameter ⟨m, dottedText first rest, true, span⟩)) := by
  simp only [namedParameter_eq]
  refine Reads.current fun t => Reads.advance rfl (Reads.name hm (Reads.eatThen rfl ?_))
  refine Reads.name hFirst ?_
  rw [← List.append_nil (dotted rest)]
  refine (Reads.dottedRest hRest).bindFirst (stops_nil le_rfl) fun parts hParts => ?_
  rw [hParts]
  exact Reads.declare (Reads.spanFrom fun _ => Reads.pure rfl)

theorem Reads.usage {m typeName : String} (hm : IsName m) (span : Span) :
    Reads k (fun _ => namedParameter) [.symbol .atSign, .name m] [.used m typeName] 1
      (Like .spans (Term.parameter ⟨m, typeName, false, span⟩)) := by
  simp only [namedParameter_eq]
  refine Reads.current fun t => Reads.advance rfl (Reads.name hm (Reads.eatElse ?_ ?_))
  · exact leads_ne (by decide)
  · exact Reads.declaredType? (Reads.spanFrom fun _ => Reads.pure rfl)

/-- A named parameter is written as it is read. -/
theorem faithful_namedParameter (hs : Room n k s) (hKind : s.current.kind = .symbol .atSign) :
    FaithfulAt n k .term (fun _ => namedParameter) 1 (Opening s.current.kind) s := by
  obtain ⟨t, rest, hTokens, -⟩ := hs.exists_token (by simp [hKind]) (by simp [hKind])
  have hOpening : ∀ gs, Leads 1 (Opening s.current.kind) (.symbol .atSign :: gs) := by
    intro gs more _
    rw [hKind]
    exact Opening.of_not_name rfl rfl (by simp)
  rw [FaithfulAt, namedParameter_eq]
  refine After.look (After.advance hTokens (After.name (hs.take hTokens) ?_))
  intro u rest₁ m hTokens₁ hm _
  have hRoom := (hs.take hTokens).take hTokens₁
  refine After.eatIte (fun v rest₂ hTokens₂ _ => ?_) fun _ => After.look ?_
  · refine After.name (hRoom.take hTokens₂) fun w rest₃ first hTokens₃ hFirst _ => ?_
    refine (After.dottedRest ((hRoom.take hTokens₂).take hTokens₃)).bind ?_
    rintro parts s' ⟨hParts, hScope⟩ - hError -
    refine ⟨⟨.symbol .atSign :: .name m :: .symbol .colon :: .name first :: dotted parts, ?_, ?_,
      hOpening _, Reads.declaration hm hFirst hParts _⟩, ?_⟩
    · have hType : dottedRow (".".intercalate (first :: parts)) = .name first :: dotted parts :=
        dottedRow_dottedText hFirst hParts
      simp only [Print.term, Term.row, NamedParameter.row, Parse.spanFrom, run_bind, run_look,
        run_pure, ↓reduceIte, hType]
    · have hDotted := legal_dotted hFirst hParts
      simp [Script.legal_cons, Glyph.meets, Glyph.allows, hm, hFirst] at hDotted ⊢
      exact hDotted
    · exact congrArg (fun σ : Scope => Scope.mk ((m.toLower, _) :: σ.bindings) σ.placeholders)
        hScope.symm
  · split
    · next typeName hLookup =>
      intro hError hOkay
      refine ⟨⟨[.symbol .atSign, .name m], ?_, ?_, hOpening _, Reads.usage hm _⟩, hLookup, rfl⟩
      · simp [Print.term, Term.row, NamedParameter.row]
      · simp [Script.legal_cons, Glyph.meets, Glyph.allows, hm]
    · exact After.failUntyped

end SqlKit.Grammar
