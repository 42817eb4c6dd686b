import SqlKit.Proofs.Grammar.Attempts
import SqlKit.Proofs.Syntax.Erasure

/-!
# Two readings of like texts

A `Simulation` relates the states of two readings that may differ in what an `Erasure` erases: in
the places of the tokens, in what stands behind the statement, in the spelling of names. It lists
what a relation of states must allow: both readings see tokens of like kinds, and each of the moves
can be made on both sides at once. Nothing in it speaks of the grammar.

The tokens of a state may go on behind the statement. A relation of states has to say nothing about
what stands there: where the one reading comes to an end of its statement so does the other, and
only in front of that tokens are taken. So whatever reader is similar to itself takes no semicolon.

`Similar S R m n` says that the readers `m` and `n` keep the relation and give results related by
`R`. The rules of this file are those of the building blocks of readers; the readers of the grammar
are similar to themselves because they are made of nothing else.
-/

namespace SqlKit

/-- A kind up to the spelling of names that are not quoted. What may stand behind a statement is the
same as its end. -/
def TokenKind.form (e : Erasure) : TokenKind → TokenKind
  | .identifier name => .identifier (if name.quoted then name else .bare (e.name name.text))
  | .symbol .semicolon => .endOfInput
  | kind => kind

/-- What depends on neither the name of an identifier nor the choice of the end of a statement is
the same for kinds of the same form. -/
theorem TokenKind.form_congr {e : Erasure} {β : Type} (f : TokenKind → β)
    (hName : ∀ a b, f (.identifier a) = f (.identifier b))
    (hEnd : f (.symbol .semicolon) = f .endOfInput) {k l : TokenKind} (h : k.form e = l.form e) :
    f k = f l := by
  have hForm : ∀ k : TokenKind, f (k.form e) = f k := by
    intro k
    unfold form
    split
    · exact hName _ _
    · exact hEnd.symm
    · rfl
  rw [← hForm k, h, hForm l]

/-- Kinds that may stand behind a statement. -/
def TokenKind.IsEnd (k : TokenKind) : Prop := k = .symbol .semicolon ∨ k = .endOfInput

theorem endsStatement_iff {t : Token} : endsStatement t = true ↔ t.kind.IsEnd := by
  simp [endsStatement, isSemicolon, Token.isEnd, TokenKind.IsEnd]

/-- Two identifiers that are quoted alike, and spelled alike too if they are quoted. -/
def Identifier.Alike (e : Erasure) (a b : Identifier) : Prop :=
  a = b ∨ (a.quoted = false ∧ b.quoted = false ∧ e.name a.text = e.name b.text)

theorem Identifier.Alike.text {e : Erasure} {a b : Identifier} (h : a.Alike e b) :
    e.name a.text = e.name b.text := by
  rcases h with rfl | ⟨-, -, h⟩
  · rfl
  · exact h

theorem TokenKind.form_eq_self {e : Erasure} {k : TokenKind} (hName : ∀ n, k ≠ .identifier n)
    (hEnd : ¬ k.IsEnd) : k.form e = k := by
  unfold form
  split
  · next n => exact absurd rfl (hName n)
  · exact absurd (Or.inl rfl) hEnd
  · rfl

theorem TokenKind.form_eq_end {e : Erasure} {k : TokenKind} :
    k.form e = .endOfInput ↔ k.IsEnd := by
  constructor
  · intro h
    by_contra hEnd
    by_cases hName : ∃ n, k = .identifier n
    · obtain ⟨n, rfl⟩ := hName
      cases h
    · rw [form_eq_self (not_exists.mp hName) hEnd] at h
      exact hEnd (Or.inr h)
  · rintro (rfl | rfl) <;> rfl

theorem TokenKind.exists_of_form_eq_identifier {e : Erasure} {k : TokenKind} {n : Identifier}
    (h : k.form e = .identifier n) :
    ∃ a, k = .identifier a ∧ n = if a.quoted then a else .bare (e.name a.text) := by
  unfold form at h
  split at h
  · next a => exact ⟨a, rfl, (TokenKind.identifier.inj h).symm⟩
  · cases h
  · next hName _ => exact absurd h (hName n)

/-- Kinds of the same form are identifiers that are alike, or ends, or equal. -/
theorem TokenKind.cases_of_form_eq {e : Erasure} {k l : TokenKind} (h : k.form e = l.form e) :
    (∃ a b, k = .identifier a ∧ l = .identifier b ∧ a.Alike e b) ∨
      (k.IsEnd ∧ l.IsEnd) ∨ k = l := by
  by_cases hEnd : k.IsEnd
  · exact Or.inr (Or.inl ⟨hEnd, form_eq_end.mp (h ▸ form_eq_end.mpr hEnd)⟩)
  by_cases hName : ∃ a, k = .identifier a
  · obtain ⟨a, rfl⟩ := hName
    obtain ⟨b, rfl, hForms⟩ := exists_of_form_eq_identifier h.symm
    refine Or.inl ⟨a, b, rfl, rfl, ?_⟩
    obtain ⟨a, qa⟩ := a
    obtain ⟨b, qb⟩ := b
    cases qa <;> cases qb <;> simp_all [Identifier.Alike, Identifier.bare]
  · rw [form_eq_self (not_exists.mp hName) hEnd] at h
    refine Or.inr (Or.inr ?_)
    by_cases hName' : ∃ b, l = .identifier b
    · obtain ⟨b, rfl⟩ := hName'
      exact absurd ⟨_, h⟩ hName
    · by_cases hEnd' : l.IsEnd
      · exact absurd (Or.inr (h.trans (form_eq_end.mpr hEnd'))) hEnd
      · rw [h, form_eq_self (not_exists.mp hName') hEnd']

/-- What is to be shown of two kinds of the same form, by cases. -/
@[elab_as_elim]
theorem TokenKind.form_elim {e : Erasure} {motive : TokenKind → TokenKind → Prop}
    {k l : TokenKind} (h : k.form e = l.form e)
    (name : ∀ a b, motive (.identifier a) (.identifier b))
    (semicolon : motive (.symbol .semicolon) .endOfInput)
    (endOfInput : motive .endOfInput (.symbol .semicolon)) (same : ∀ k, motive k k) :
    motive k l := by
  rcases cases_of_form_eq h with ⟨a, b, rfl, rfl, -⟩ | ⟨rfl | rfl, rfl | rfl⟩ | rfl
  · exact name a b
  · exact same _
  · exact semicolon
  · exact endOfInput
  · exact same _
  · exact same _

/-- Two tokens that differ in their places and in the spelling of names only. -/
structure Token.Alike (e : Erasure) (a b : Token) : Prop where
  kind : a.kind.form e = b.kind.form e
  text : e.name a.text = e.name b.text

/-- What accepts a token for its kind alone, whatever its name, and never the end of a statement. -/
structure Token.ByKind {β : Type} (accept : Token → Option β) : Prop where
  kind : ∀ t, accept t = accept ⟨t.kind, .atStart, ""⟩
  name : ∀ a b, accept ⟨.identifier a, .atStart, ""⟩ = accept ⟨.identifier b, .atStart, ""⟩
  semicolon : accept ⟨.symbol .semicolon, .atStart, ""⟩ = none
  endOfInput : accept ⟨.endOfInput, .atStart, ""⟩ = none

namespace Token.ByKind

variable {β : Type} {accept : Token → Option β} {a b : Token}

theorem congr {e : Erasure} (h : ByKind accept) (hForm : a.kind.form e = b.kind.form e) :
    accept a = accept b := by
  rw [h.kind a, h.kind b]
  exact TokenKind.form_congr (fun k => accept ⟨k, .atStart, ""⟩) h.name
    (h.semicolon.trans h.endOfInput.symm) hForm

theorem of_isEnd (h : ByKind accept) (hEnd : a.kind.IsEnd) : accept a = none := by
  rw [h.kind a]
  rcases hEnd with hEnd | hEnd <;> rw [hEnd]
  · exact h.semicolon
  · exact h.endOfInput

end Token.ByKind

/-- A kind that every form tells apart: no name, and no end of a statement. -/
structure TokenKind.IsFixed (kind : TokenKind) : Prop where
  name : ∀ n, kind ≠ .identifier n
  notEnd : ¬ kind.IsEnd

namespace TokenKind

theorem isFixed_keyword (word : Keyword) : (keyword word).IsFixed :=
  ⟨fun _ => nofun, by simp [IsEnd]⟩

theorem isFixed_symbol {symbol : Symbol} (h : symbol ≠ .semicolon) :
    (TokenKind.symbol symbol).IsFixed := ⟨fun _ => nofun, by simpa [IsEnd] using h⟩

variable {kind : TokenKind}

theorem IsFixed.iff {e : Erasure} (h : kind.IsFixed) {k l : TokenKind}
    (hForm : k.form e = l.form e) : k = kind ↔ l = kind := by
  refine iff_of_eq (form_congr (· = kind) (fun a b => ?_) ?_ hForm)
  · simp [(h.name _).symm]
  · have hEnds := not_or.mp h.notEnd
    simp [Ne.symm hEnds.1, Ne.symm hEnds.2]

/-- Asking for one kind. -/
theorem IsFixed.byKind {β : Type} (h : kind.IsFixed) (x : β) :
    Token.ByKind fun t => if t.kind = kind then some x else none := by
  have hEnds := not_or.mp h.notEnd
  exact ⟨fun _ => rfl, fun a b => by simp [(h.name _).symm], if_neg (Ne.symm hEnds.1),
    if_neg (Ne.symm hEnds.2)⟩

end TokenKind

namespace Grammar

/-- The span from the start of `first` to the end of the token taken last, as
`Parse.spanFrom` finds it. -/
def State.spanFrom (s : State) (first : Span) : Span :=
  if s.previous.first.offset < first.first.offset then first else first.merge s.previous

/-- A token is left where the next one ends no statement. -/
theorem State.exists_cons {s : State} (hTerminator : s.terminator.kind.IsEnd)
    (hNext : ¬ s.current.kind.IsEnd) : ∃ a as, s.tokens = a :: as := by
  cases hTokens : s.tokens with
  | nil =>
    rw [current_nil hTokens] at hNext
    exact absurd hTerminator hNext
  | cons a as => exact ⟨a, as, rfl⟩

/-- A relation of states that two readings keep. -/
structure Simulation (e : Erasure) where
  state : State → State → Prop
  lower : ∀ {a b : String}, e.name a = e.name b → a.toLower = b.toLower
  append : ∀ {a b c d : String}, e.name a = e.name b → e.name c = e.name d →
    e.name (a ++ c) = e.name (b ++ d)
  ends : ∀ {s t : State}, state s t → s.current.kind.IsEnd → t.current.kind.IsEnd
  cons : ∀ {s t : State}, state s t → ¬ s.current.kind.IsEnd →
    ∃ a as b bs, s.tokens = a :: as ∧ t.tokens = b :: bs ∧ Token.Alike e a b ∧
      state (s.take a as) (t.take b bs)
  touches : ∀ {s t : State} {a b c d : Token} {as bs : List Token} {n : Int64}, state s t →
    s.tokens = a :: c :: as → t.tokens = b :: d :: bs → a.kind = .symbol .question →
    c.kind = .integer n →
    (c.span.first.offset = a.span.last.offset ↔ d.span.first.offset = b.span.last.offset)
  spanFrom : ∀ {s t u v : State}, state s t → state u v →
    e.span (u.spanFrom s.current.span) = e.span (v.spanFrom t.current.span)
  unexpected : ∀ {s t : State} (expected : Expected), state s t →
    state (s.note ⟨s.errorPosition, .unexpected expected s.current⟩)
      (t.note ⟨t.errorPosition, .unexpected expected t.current⟩)
  untyped : ∀ {s t u v : State} {a b : Token} {as bs : List Token} {m n : String}, state s t →
    s.tokens = a :: as → t.tokens = b :: bs → a.kind = .symbol .atSign →
    (u.error = none → ∃ c, as.head? = some c ∧ nameOf? c = some m) → state u v →
    e.name m = e.name n →
    state (u.note ⟨a.span.first, .untypedParameter m⟩) (v.note ⟨b.span.first, .untypedParameter n⟩)
  declare : ∀ {s t u v : State} {x y : Attempt}, state s t → attemptAt? s.tokens = some x →
    attemptAt? t.tokens = some y → state u v → e.name x.name = e.name y.name →
    e.name x.typeName = e.name y.typeName →
    state (u.declare x.name.toLower x.typeName) (v.declare y.name.toLower y.typeName)
  lookup : ∀ {s t : State} (name : String), state s t →
    (s.bindings.lookup name).map e.name = (t.bindings.lookup name).map e.name
  placeholders : ∀ {s t : State}, state s t → s.placeholders = t.placeholders
  countPlaceholder : ∀ {s t : State}, state s t → state s.countPlaceholder t.countPlaceholder

section Nothing

variable {a b c d : String}

/-! Where nothing is erased, equal names are the same. -/

theorem lower_of_nothing (h : Erasure.nothing.name a = Erasure.nothing.name b) :
    a.toLower = b.toLower := congrArg String.toLower h

theorem append_of_nothing (h : Erasure.nothing.name a = Erasure.nothing.name b)
    (h' : Erasure.nothing.name c = Erasure.nothing.name d) :
    Erasure.nothing.name (a ++ c) = Erasure.nothing.name (b ++ d) := congrArg₂ (· ++ ·) h h'

end Nothing

/-- Two readers that keep the relation of states and give related results. -/
def Similar {e : Erasure} (S : Simulation e) {α β : Type} (R : α → β → Prop) (m : Parse α)
    (n : Parse β) : Prop :=
  ∀ ⦃s t⦄, S.state s t → R (m.run s).1 (n.run t).1 ∧ S.state (m.run s).2 (n.run t).2

variable {e : Erasure} {S : Simulation e}

namespace Simulation

variable {s t : State}

/-- The next tokens of related states have kinds of the same form. -/
theorem kind (h : S.state s t) : s.current.kind.form e = t.current.kind.form e := by
  by_cases hEnd : s.current.kind.IsEnd
  · rw [TokenKind.form_eq_end.mpr hEnd, TokenKind.form_eq_end.mpr (S.ends h hEnd)]
  · obtain ⟨a, as, b, bs, hs, ht, hAlike, -⟩ := S.cons h hEnd
    simpa only [State.current_cons hs, State.current_cons ht] using hAlike.kind

theorem isEnd_iff (h : S.state s t) : s.current.kind.IsEnd ↔ t.current.kind.IsEnd := by
  rw [← TokenKind.form_eq_end (e := e), S.kind h, TokenKind.form_eq_end]

/-- Looking for the kind of the next token finds an end where the statement ends. -/
theorem kindAt_zero (h : S.state s t) : (s.kindAt 0).form e = (t.kindAt 0).form e := by
  have hZero : ∀ {u : State}, u.current.kind.IsEnd → (u.kindAt 0).IsEnd := by
    intro u hEnd
    cases hu : u.tokens with
    | nil => simp [State.kindAt, hu, TokenKind.IsEnd]
    | cons a as => simpa [State.kindAt, hu, State.current_cons hu] using hEnd
  by_cases hEnd : s.current.kind.IsEnd
  · rw [TokenKind.form_eq_end.mpr (hZero hEnd), TokenKind.form_eq_end.mpr (hZero (S.ends h hEnd))]
  · obtain ⟨a, as, b, bs, hs, ht, hAlike, -⟩ := S.cons h hEnd
    simpa [State.kindAt, hs, ht] using hAlike.kind

/-- Looking one token further on, in front of the end of the statement. -/
theorem kindAt_one (h : S.state s t) (hNext : ¬ s.current.kind.IsEnd) :
    (s.kindAt 1).form e = (t.kindAt 1).form e := by
  obtain ⟨a, as, b, bs, hs, ht, -, hTake⟩ := S.cons h hNext
  simpa [State.kindAt, hs, ht, State.take] using S.kindAt_zero hTake

/-- Looking two tokens further on, in front of the end of the statement. -/
theorem kindAt_two (h : S.state s t) (hNext : ¬ s.current.kind.IsEnd)
    (hBehind : ¬ (s.kindAt 1).IsEnd) : (s.kindAt 2).form e = (t.kindAt 2).form e := by
  obtain ⟨a, as, b, bs, hs, ht, -, hTake⟩ := S.cons h hNext
  have hCurrent : ¬ (s.take a as).current.kind.IsEnd := by
    cases as with
    | nil => simp [State.kindAt, hs, TokenKind.IsEnd] at hBehind
    | cons c cs => simpa [State.kindAt, hs, State.take, State.current] using hBehind
  simpa [State.kindAt, hs, ht, State.take] using S.kindAt_one hTake hCurrent

end Simulation

namespace Similar

variable {α β γ δ : Type} {R : α → β → Prop} {Q : γ → δ → Prop}

theorem pure {a : α} {b : β} (h : R a b) : Similar S R (pure a) (pure b) := fun _ _ hs => ⟨h, hs⟩

theorem bind {m : Parse α} {n : Parse β} {f : α → Parse γ} {g : β → Parse δ}
    (h : Similar S R m n) (hf : ∀ a b, R a b → Similar S Q (f a) (g b)) :
    Similar S Q (m >>= f) (n >>= g) := by
  intro s t hs
  obtain ⟨hResult, hState⟩ := h hs
  exact hf _ _ hResult hState

theorem map {m : Parse α} {n : Parse β} {f : α → γ} {g : β → δ} (h : Similar S R m n)
    (hf : ∀ a b, R a b → Q (f a) (g b)) : Similar S Q (f <$> m) (g <$> n) := by
  intro s t hs
  obtain ⟨hResult, hState⟩ := h hs
  exact ⟨hf _ _ hResult, hState⟩

/-- A choice made by readers that agree. -/
theorem ite {c d : Parse Bool} {m m' : Parse α} {n n' : Parse β} (hc : Similar S Eq c d)
    (h : Similar S R m n) (h' : Similar S R m' n') :
    Similar S R (c >>= fun b => if b = true then m else m')
      (d >>= fun b => if b = true then n else n') := by
  refine hc.bind ?_
  rintro b _ rfl
  cases b with
  | true => exact h
  | false => exact h'

/-- A choice in the middle of a reader. -/
theorem iteBind {c d : Parse Bool} {m m' : Parse α} {n n' : Parse β} {f : α → Parse γ}
    {g : β → Parse δ} (hc : Similar S Eq c d) (h : Similar S R m n) (h' : Similar S R m' n')
    (hf : ∀ a b, R a b → Similar S Q (f a) (g b)) :
    Similar S Q (c >>= fun b => if b = true then m >>= f else m' >>= f)
      (d >>= fun b => if b = true then n >>= g else n' >>= g) := by
  refine hc.bind ?_
  rintro b _ rfl
  cases b with
  | true => exact h.bind hf
  | false => exact h'.bind hf

/-- Something that is read only when a condition fails, in the middle of a reader. -/
theorem failUnless {c d : Parse Bool} {m n : Parse Unit} {f : Unit → Parse γ} {g : Unit → Parse δ}
    (hc : Similar S Eq c d) (h : Similar S Eq m n) (hf : Similar S Q (f ()) (g ())) :
    Similar S Q (c >>= fun b => if (!b) = true then m >>= f else f ())
      (d >>= fun b => if (!b) = true then n >>= g else g ()) := by
  refine hc.bind ?_
  rintro b _ rfl
  cases b with
  | true => exact hf
  | false => exact h.bind fun _ _ _ => hf

/-! ### Looking -/

theorem look {f : State → α} {g : State → β} (h : ∀ {s t}, S.state s t → R (f s) (g t)) :
    Similar S R (Parse.look f) (Parse.look g) := fun _ _ hs => ⟨h hs, hs⟩

/-- Looking at the kind of the next token without looking at names. -/
theorem lookKind (f : TokenKind → α) (hName : ∀ a b, f (.identifier a) = f (.identifier b))
    (hEnd : f (.symbol .semicolon) = f .endOfInput) :
    Similar S Eq (Parse.look fun s => f s.current.kind) (Parse.look fun s => f s.current.kind) :=
  look fun h => TokenKind.form_congr f hName hEnd (S.kind h)

theorem sees {symbol : Symbol} (h : symbol ≠ .semicolon) :
    Similar S Eq (Parse.sees symbol) (Parse.sees symbol) :=
  lookKind (· == .symbol symbol) (fun _ _ => rfl) (beq_eq_false_iff_ne.mpr (by simpa using h.symm))

theorem seesKeyword (word : Keyword) :
    Similar S Eq (Parse.seesKeyword word) (Parse.seesKeyword word) :=
  lookKind (· == .keyword word) (fun _ _ => rfl) rfl

theorem spanFrom {s t : State} (h : S.state s t) :
    Similar S (Like e) (Parse.spanFrom s.current.span) (Parse.spanFrom t.current.span) :=
  look fun h' => S.spanFrom h h'

/-- What follows a look at the next token may depend on what was seen. -/
theorem kind_bind {f : TokenKind → Parse α} {g : TokenKind → Parse β}
    (h : ∀ {s t}, S.state s t → R ((f s.current.kind).run s).1 ((g t.current.kind).run t).1 ∧
      S.state ((f s.current.kind).run s).2 ((g t.current.kind).run t).2) :
    Similar S R (Parse.kind >>= f) (Parse.kind >>= g) := fun _ _ hs => h hs

/-- What follows a look at the next token may depend on its place. -/
theorem current_bind {f : Token → Parse α} {g : Token → Parse β}
    (h : ∀ {s t}, S.state s t → Similar S R (f s.current) (g t.current)) :
    Similar S R (Parse.current >>= f) (Parse.current >>= g) := fun _ _ hs => h hs hs

/-! ### Taking -/

/-- Nothing is taken at the end of a statement by what accepts no end. -/
theorem run_take?_end {accept : Token → Option α} (hEnd : ∀ a, a.kind.IsEnd → accept a = none)
    {s : State} (hs : s.current.kind.IsEnd) : (Parse.take? accept).run s = (none, s) := by
  cases hTokens : s.tokens with
  | nil => exact Parse.run_take?_nil hTokens
  | cons a as =>
    rw [State.current_cons hTokens] at hs
    exact Parse.run_take?_none hTokens (hEnd a hs)

theorem take? {accept : Token → Option α} {accept' : Token → Option β}
    (h : ∀ a b, Token.Alike e a b → Option.Rel R (accept a) (accept' b))
    (hEnd : ∀ a, a.kind.IsEnd → accept a = none) :
    Similar S (Option.Rel R) (Parse.take? accept) (Parse.take? accept') := by
  have hEnd' : ∀ b, b.kind.IsEnd → accept' b = none := by
    intro b hb
    have hRel := h b b ⟨rfl, rfl⟩
    rw [hEnd b hb] at hRel
    generalize accept' b = y at hRel
    cases hRel
    rfl
  intro s t hs
  by_cases hNext : s.current.kind.IsEnd
  · rw [run_take?_end hEnd hNext, run_take?_end hEnd' (S.ends hs hNext)]
    exact ⟨.none, hs⟩
  · obtain ⟨a, as, b, bs, hTokens, hTokens', hAlike, hTake⟩ := S.cons hs hNext
    simp only [Parse.take?, hTokens, hTokens']
    have hAccept := h a b hAlike
    revert hAccept
    cases accept a with
    | none =>
      cases accept' b with
      | none => exact fun _ => ⟨.none, hs⟩
      | some y => exact nofun
    | some x =>
      cases accept' b with
      | none => exact nofun
      | some y => exact fun hAccept => ⟨hAccept, hTake⟩

theorem eq_of_rel {x y : Option α} (h : Option.Rel Eq x y) : x = y := by
  cases h with
  | none => rfl
  | some h => rw [h]

/-- Taking a token for its kind only. -/
theorem takeKind {accept : Token → Option α} (h : Token.ByKind accept) :
    Similar S Eq (Parse.take? accept) (Parse.take? accept) := by
  have hTake : Similar S (Option.Rel Eq) (Parse.take? accept) (Parse.take? accept) := by
    refine take? (fun a b hAlike => ?_) fun _ => h.of_isEnd
    rw [h.congr hAlike.kind]
    cases accept b with
    | none => exact .none
    | some x => exact .some rfl
  intro s t hs
  obtain ⟨hResult, hState⟩ := hTake hs
  exact ⟨eq_of_rel hResult, hState⟩

/-- Taking whatever token is next, in front of the end of the statement. -/
theorem advance_bind {f : Unit → Parse α} {g : Unit → Parse β} (hf : Similar S R (f ()) (g ()))
    {s t : State} (hs : S.state s t) (hNext : ¬ s.current.kind.IsEnd) :
    R ((Parse.advance >>= f).run s).1 ((Parse.advance >>= g).run t).1 ∧
      S.state ((Parse.advance >>= f).run s).2 ((Parse.advance >>= g).run t).2 := by
  obtain ⟨a, as, b, bs, hTokens, hTokens', -, hTake⟩ := S.cons hs hNext
  rw [Parse.run_bind, Parse.run_bind, Parse.run_advance_cons hTokens,
    Parse.run_advance_cons hTokens']
  exact hf hTake

end Similar

namespace Similar

variable {α β : Type} {R : α → β → Prop}

theorem eatKind {kind : TokenKind} (h : kind.IsFixed) :
    Similar S Eq (Parse.eatKind kind) (Parse.eatKind kind) :=
  (takeKind (h.byKind ())).bind fun a b hab => pure (by rw [hab])

theorem eat {symbol : Symbol} (h : symbol ≠ .semicolon) :
    Similar S Eq (Parse.eat symbol) (Parse.eat symbol) := eatKind (TokenKind.isFixed_symbol h)

theorem eatKeyword (word : Keyword) :
    Similar S Eq (Parse.eatKeyword word) (Parse.eatKeyword word) :=
  eatKind (TokenKind.isFixed_keyword word)

/-! ### Asking -/

theorem fail (expected : Expected) : Similar S Eq (Parse.fail expected) (Parse.fail expected) :=
  fun _ _ hs => ⟨rfl, S.unexpected expected hs⟩

theorem ask {expected : Expected} {a : α} {b : β} {accept : Token → Option α}
    {accept' : Token → Option β} (hStandIn : R a b)
    (h : ∀ a b, Token.Alike e a b → Option.Rel R (accept a) (accept' b))
    (hEnd : ∀ a, a.kind.IsEnd → accept a = none) :
    Similar S R (Parse.ask expected a accept) (Parse.ask expected b accept') := by
  refine (take? h hEnd).bind fun x y hxy => ?_
  cases hxy with
  | none => exact (fail expected).bind fun _ _ _ => pure hStandIn
  | some hxy => exact pure hxy

theorem askFor {expected : Expected} {a : α} {accept : Token → Option α}
    (h : Token.ByKind accept) :
    Similar S Eq (Parse.ask expected a accept) (Parse.ask expected a accept) := by
  refine ask rfl (fun a b hAlike => ?_) fun _ => h.of_isEnd
  rw [h.congr hAlike.kind]
  cases accept b with
  | none => exact .none
  | some x => exact .some rfl

theorem askKind {expected : Expected} {kind : TokenKind} (h : kind.IsFixed) :
    Similar S Eq (Parse.askKind expected kind) (Parse.askKind expected kind) :=
  askFor (h.byKind true)

theorem expect {symbol : Symbol} (h : symbol ≠ .semicolon) :
    Similar S Eq (Parse.expect symbol) (Parse.expect symbol) :=
  (askKind (TokenKind.isFixed_symbol h)).bind fun _ _ _ => pure rfl

theorem expectKeyword (word : Keyword) :
    Similar S Eq (Parse.expectKeyword word) (Parse.expectKeyword word) :=
  (askKind (TokenKind.isFixed_keyword word)).bind fun _ _ _ => pure rfl

/-! ### Parameters -/

theorem declare {s t : State} {x y : Attempt} (h : S.state s t) (hs : attemptAt? s.tokens = some x)
    (ht : attemptAt? t.tokens = some y) (hName : Like e x.name y.name)
    (hType : Like e x.typeName y.typeName) :
    Similar S Eq (Parse.declare x.name.toLower x.typeName)
      (Parse.declare y.name.toLower y.typeName) :=
  fun _ _ hState => ⟨rfl, S.declare h hs ht hState hName hType⟩

theorem declaredType? (name : String) :
    Similar S (Like e) (Parse.declaredType? name) (Parse.declaredType? name) :=
  look fun h => S.lookup name h

theorem nextPlaceholder : Similar S Eq Parse.nextPlaceholder Parse.nextPlaceholder :=
  fun _ _ hs => ⟨congrArg (· + 1) (S.placeholders hs), S.countPlaceholder hs⟩

/-! ### Repeating -/

theorem chainFrom_end {accept : Token → Option β} {item : β → Parse α}
    (h : Token.ByKind accept) {s : State} (hs : s.current.kind.IsEnd) :
    Parse.chainFrom accept item s = ([], s) := by
  cases hTokens : s.tokens with
  | nil => exact Parse.chainFrom_nil hTokens
  | cons a as =>
    rw [State.current_cons hTokens] at hs
    exact Parse.chainFrom_none hTokens (h.of_isEnd hs)

theorem chain [Erasable α] {accept : Token → Option β} {item item' : β → Parse α}
    (h : Token.ByKind accept) (hItem : ∀ b, Similar S (Like e) (item b) (item' b)) :
    Similar S (Like e) (Parse.chain accept item) (Parse.chain accept item') := by
  intro s t hs
  simp only [Parse.chain]
  fun_induction Parse.chainFrom accept item s generalizing t with
  | case1 s hTokens =>
    have hNext : s.current.kind.IsEnd := by
      by_contra hNext
      obtain ⟨a, as, -, -, hCons, -⟩ := S.cons hs hNext
      exact List.cons_ne_nil a as (hCons.symm.trans hTokens)
    rw [chainFrom_end h (S.ends hs hNext)]
    exact ⟨rfl, hs⟩
  | case2 s a as hTokens hNone =>
    by_cases hNext : s.current.kind.IsEnd
    · rw [chainFrom_end h (S.ends hs hNext)]
      exact ⟨rfl, hs⟩
    · obtain ⟨a', as', b, bs, hCons, hTokens', hAlike, -⟩ := S.cons hs hNext
      obtain ⟨rfl, rfl⟩ := List.cons.inj (hCons.symm.trans hTokens)
      rw [Parse.chainFrom_none hTokens' (h.congr hAlike.kind ▸ hNone)]
      exact ⟨rfl, hs⟩
  | case3 s a as hTokens c hSome after more =>
    rename_i ih
    have hNext : ¬ s.current.kind.IsEnd := by
      rw [State.current_cons hTokens]
      intro ha
      rw [h.of_isEnd ha] at hSome
      cases hSome
    obtain ⟨a', as', b, bs, hCons, hTokens', hAlike, hTake⟩ := S.cons hs hNext
    obtain ⟨rfl, rfl⟩ := List.cons.inj (hCons.symm.trans hTokens)
    obtain ⟨hResult, hState⟩ := hItem c hTake
    obtain ⟨hMore, hLast⟩ := ih hState
    rw [Parse.chainFrom_some hTokens' (h.congr hAlike.kind ▸ hSome)]
    exact ⟨.cons hResult hMore, hLast⟩

/-- Items behind tokens of one kind. -/
theorem chainKind [Erasable α] {kind : TokenKind} {item item' : Unit → Parse α}
    (h : kind.IsFixed) (hItem : ∀ u, Similar S (Like e) (item u) (item' u)) :
    Similar S (Like e) (Parse.chain (fun t => if t.kind = kind then some () else none) item)
      (Parse.chain (fun t => if t.kind = kind then some () else none) item') :=
  chain (h.byKind ()) hItem

theorem chainOf [Erasable α] {symbol : Symbol} {item item' : Parse α} (h : symbol ≠ .semicolon)
    (hItem : Similar S (Like e) item item') :
    Similar S (Like e) (Parse.chainOf symbol item) (Parse.chainOf symbol item') :=
  chainKind (TokenKind.isFixed_symbol h) fun _ => hItem

theorem separated [Erasable α] {item item' : Parse α} (hItem : Similar S (Like e) item item') :
    Similar S (Like e) (Parse.separated item) (Parse.separated item') :=
  hItem.bind fun _ _ hFirst => (chainOf (by simp) hItem).bind fun _ _ hRest =>
    pure (.cons hFirst hRest)

/-! ### Parts of statements -/

theorem after [Erasable α] {word : Keyword} {item item' : Parse α}
    (hItem : Similar S (Like e) item item') :
    Similar S (Like e) (Parse.after word item) (Parse.after word item') :=
  (eatKeyword word).ite (hItem.bind fun _ _ h => pure (congrArg some h)) (pure rfl)

theorem spanned [Erasable α] {item item' : Parse (Span → α)}
    (hItem : Similar S (fun f g => ∀ a b, Like e a b → Like e (f a) (g b)) item item') :
    Similar S (Like e) (Parse.spanned item) (Parse.spanned item') := by
  intro s t hs
  obtain ⟨hResult, hState⟩ := hItem hs
  exact ⟨hResult _ _ (spanFrom hs hState).1, hState⟩

end Similar

/-! ### Names -/

theorem nameOf?_alike {a b : Token} (h : Token.Alike e a b) :
    Option.Rel (Like e) (nameOf? a) (nameOf? b) := by
  unfold nameOf?
  rcases TokenKind.cases_of_form_eq h.kind with ⟨m, n, hm, hn, hNames⟩ | ⟨ha, hb⟩ | hKind
  · rw [hm, hn]
    exact .some hNames.text
  · rcases ha with ha | ha <;> rcases hb with hb | hb <;> rw [ha, hb] <;> exact .none
  · rw [hKind]
    split
    · exact .some rfl
    · split
      · exact .none
      · exact .some h.text
    · exact .none

theorem identifierOf?_alike {a b : Token} (h : Token.Alike e a b) :
    Option.Rel (Like e) (identifierOf? a) (identifierOf? b) := by
  unfold identifierOf?
  rcases TokenKind.cases_of_form_eq h.kind with ⟨m, n, hm, hn, hNames⟩ | ⟨ha, hb⟩ | hKind
  · rw [hm, hn]
    exact .some hNames.text
  · rcases ha with ha | ha <;> rcases hb with hb | hb <;> rw [ha, hb] <;> exact .none
  · rw [hKind]
    split
    · exact .some rfl
    · exact .none

theorem nameOf?_of_isEnd {a : Token} (h : a.kind.IsEnd) : nameOf? a = none := by
  rcases h with h | h <;> rw [nameOf?, h]

theorem identifierOf?_of_isEnd {a : Token} (h : a.kind.IsEnd) : identifierOf? a = none := by
  rcases h with h | h <;> rw [identifierOf?, h]

theorem like_of_rel {α : Type} [Erasable α] {x y : Option α} (h : Option.Rel (Like e) x y) :
    Like e x y := by
  cases h with
  | none => rfl
  | some h => exact .some h

theorem isSome_eq_of_rel {α β : Type} {R : α → β → Prop} {x : Option α} {y : Option β}
    (h : Option.Rel R x y) : x.isSome = y.isSome := by
  cases h <;> rfl

namespace Similar

theorem name (role : NameRole) : Similar S (Like e) (Parse.name role) (Parse.name role) :=
  ask rfl (fun _ _ => nameOf?_alike) fun _ => nameOf?_of_isEnd

theorem seesName : Similar S Eq Parse.seesName Parse.seesName := by
  refine look fun {s t} h => ?_
  by_cases hEnd : s.current.kind.IsEnd
  · rw [nameOf?_of_isEnd hEnd, nameOf?_of_isEnd (S.ends h hEnd)]
  · obtain ⟨a, as, b, bs, hs, ht, hAlike, -⟩ := S.cons h hEnd
    rw [State.current_cons hs, State.current_cons ht]
    exact isSome_eq_of_rel (nameOf?_alike hAlike)

theorem dottedRest (role : NameRole) :
    Similar S (Like e) (Parse.dottedRest role) (Parse.dottedRest role) :=
  chainOf (by simp) (name role)

theorem qualifiedName (role : NameRole) :
    Similar S (Like e) (Parse.qualifiedName role) (Parse.qualifiedName role) := by
  refine (name role).bind fun a b hFirst => (eat (by simp)).ite ?_ (pure ?_)
  · refine (name role).bind fun c d hSecond => pure ?_
    simp_all [Like, Erasable.erase, QualifiedName.erase]
  · simp_all [Like, Erasable.erase, QualifiedName.erase, QualifiedName.unqualified]

theorem listedColumn : Similar S (Like e) Parse.listedColumn Parse.listedColumn := by
  refine (name .column).bind fun a b h => (eatKeyword .ASC).bind ?_
  rintro c _ rfl
  cases c with
  | true => exact pure h
  | false => exact (eatKeyword .DESC).bind fun _ _ _ => pure h

theorem columnList : Similar S (Like e) Parse.columnList Parse.columnList :=
  (askKind (TokenKind.isFixed_symbol (by simp))).ite
    ((separated listedColumn).bind fun _ _ h => (expect (by simp)).bind fun _ _ _ => pure h)
    (pure rfl)

theorem optionalColumnList : Similar S (Like e) Parse.optionalColumnList Parse.optionalColumnList :=
  (sees (by simp)).ite columnList (pure rfl)

theorem asName? : Similar S (Like e) Parse.asName? Parse.asName? := by
  refine (eatKeyword .AS).ite ((name .asName).bind fun _ _ h => pure (.some h)) ?_
  intro s t hs
  obtain ⟨hResult, hState⟩ :=
    take? (fun _ _ => identifierOf?_alike) (fun _ => identifierOf?_of_isEnd) hs
  exact ⟨like_of_rel hResult, hState⟩

end Similar

end Grammar

end SqlKit
