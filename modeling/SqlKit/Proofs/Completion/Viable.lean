import SqlKit.Proofs.Grammar.Unbounded
import SqlKit.Proofs.Rendering.After

/-!
# What was read can be completed

Where a reader finds its first error, all that it read before is the beginning of something that it
reads without an error. A reader with this property is `Viable`. The completion is put together from
the completion of the part in which the error was met and a text that is read for each part behind
it (`Ready`).

The part in front must not go on into such a text. What a reader does not go on into is the first
entry of its `Profile`: in front of a token of these kinds it stops where it stopped before. It also
stops where the token behind it is the same one as before. Only the readers of conditions look at
one token more, behind a `NOT`.
-/

namespace SqlKit.Grammar

open Parse

instance : DecidablePred TokenKind.IsEnd := fun k =>
  inferInstanceAs (Decidable (k = .symbol .semicolon ∨ k = .endOfInput))

/-- A token of a kind. -/
def sample (kind : TokenKind) : Token := ⟨kind, .atStart, kind.shown⟩

/-! ## States with other tokens -/

namespace State

/-- The state with other tokens to be read. -/
def withTokens (s : State) (ts : List Token) : State := { s with tokens := ts }

/-- The state behind some tokens, in front of others. -/
def skip (s : State) (ts rest : List Token) : State :=
  { s with tokens := rest, previous := (ts.getLast?.map Token.span).getD s.previous }

theorem current_withTokens_append {s : State} {ts us : List Token} (h : s.tokens = ts ++ us)
    (hSome : ts ≠ []) (more : List Token) : (s.withTokens (ts ++ more)).current = s.current := by
  obtain ⟨t, ts, rfl⟩ := List.exists_cons_of_ne_nil hSome
  rw [current_cons h, current_cons rfl]

/-- An error is reported at the next token, and names it. -/
structure Reports (s : State) (e : ParseError) : Prop where
  position : e.position = s.errorPosition
  found : ∀ expected found, e.cause = .unexpected expected found → found = s.current

theorem Reports.congr {s s' : State} {e : ParseError} (h : s'.Reports e)
    (hTokens : s.tokens = s'.tokens) (hTerminator : s.terminator = s'.terminator)
    (hPrevious : s.previous = s'.previous) : s.Reports e := by
  have hCurrent : s.current = s'.current := by
    unfold current
    rw [hTokens, hTerminator]
  refine ⟨?_, hCurrent ▸ h.found⟩
  rw [h.position]
  unfold errorPosition
  rw [hCurrent, hPrevious]

end State

/-- There was no error so far, and an end stands behind the tokens. -/
structure Intact (s : State) : Prop where
  terminator : s.terminator.kind.IsEnd
  error : s.error = none

theorem Intact.moves {s s' : State} (h : Intact s) (hMoves : Moves s s')
    (hError : s'.error = none) :
    Intact s' := ⟨hMoves.terminator_eq ▸ h.terminator, hError⟩

/-- Fewer than `n` tokens are left, and there was no error so far. -/
structure Fewer (n : Nat) (s : State) : Prop extends Intact s where
  length : s.tokens.length < n

namespace Fewer

variable {n : Nat} {s : State}

theorem mono {k : Nat} (h : Fewer n s) (hk : n ≤ k) : Fewer k s :=
  ⟨h.toIntact, Nat.lt_of_lt_of_le h.length hk⟩

theorem less (h : Fewer n s) : Fewer (n + 1) s := h.mono n.le_succ

theorem pos (h : Fewer n s) : 0 < n := Nat.zero_lt_of_lt h.length

theorem take {t : Token} {rest : List Token} (h : Fewer (n + 1) s)
    (hTokens : s.tokens = t :: rest) :
    Fewer n (s.take t rest) := by
  have hLength := h.length
  rw [hTokens, List.length_cons] at hLength
  exact ⟨⟨h.terminator, h.error⟩, Nat.lt_of_succ_lt_succ hLength⟩

theorem take' {t : Token} {rest : List Token} (h : Fewer n s) (hTokens : s.tokens = t :: rest) :
    Fewer n (s.take t rest) := (h.less.take hTokens)

theorem moves {s' : State} (h : Fewer n s) (hMoves : Moves s s') (hError : s'.error = none) :
    Fewer n s' := ⟨h.toIntact.moves hMoves hError, Nat.lt_of_le_of_lt hMoves.length_le h.length⟩

end Fewer

/-! ## Profiles -/

/-- What has to be known of a reader to read something in front of it and behind it. -/
structure Profile where
  /-- The kinds of tokens at which the reader stops, wherever it may stop at all. -/
  follow : List TokenKind
  /-- Whether it looks at what is behind a `NOT` to decide if it stops there. -/
  looks : Bool
  /-- Whether it may take no token and meet no error. -/
  empty : Bool
  /-- Whether it may take a `NOT` first. -/
  negated : Bool
  /-- The kinds of the tokens of a text that it reads in every state. -/
  text : List TokenKind

/-- Some name. -/
def someName : TokenKind := .identifier (.bare "x")

/-- The kinds of tokens that the texts of readers start with. What is known of a reader is known for
these only. -/
def starts : List TokenKind :=
  [.symbol .leftParen, .symbol .rightParen, .symbol .equal, .symbol .colon, .integer 1, someName,
  .keyword .NULL,
    .keyword .WHEN, .keyword .THEN, .keyword .END, .keyword .AS, .keyword .AND, .keyword .NOT,
    .keyword .SELECT, .keyword .VALUES, .keyword .JOIN, .keyword .BY, .keyword .LAST, .keyword .KEY,
    .keyword .CASCADE, .keyword .ACTION, .keyword .DELETE, .keyword .REFERENCES, .keyword .UNIQUE,
    .keyword .TABLE, .keyword .ROWID, .keyword .EXISTS, .keyword .TO, .keyword .DROP,
    .keyword .INTO, .keyword .SET, .keyword .FROM, .keyword .INSERT, .keyword .FAIL]

namespace Profile

/-- The text that a reader of the profile reads in every state. -/
def words (p : Profile) : List Token := p.text.map sample

/-- A reader may stop in front of these tokens. -/
def Meets (p : Profile) (more : List Token) : Prop := ∀ t ∈ more.head?, t.kind ∈ p.follow

/-- A reader that stopped in front of `rest` stops in front of these tokens as well. -/
def Allows (p : Profile) (rest more : List Token) : Prop :=
  p.Meets more ∨ ∃ t, rest.head? = some t ∧ more.head? = some t ∧
    (p.looks = true → t.kind ≠ .keyword .NOT)

/-- Whether the first profile holds of each reader of the second one, but for its text. -/
def covers (p q : Profile) : Bool :=
  p.follow.all q.follow.contains && (!q.looks || p.looks) && (!q.empty || p.empty) &&
    (!q.negated || p.negated)

/-- Of a reader of the second profile the first one holds as well, but for its text. -/
structure Covers (p q : Profile) : Prop where
  follow : ∀ k ∈ p.follow, k ∈ q.follow
  looks : q.looks = true → p.looks = true
  empty : q.empty = true → p.empty = true
  negated : q.negated = true → p.negated = true

variable {p q : Profile} {rest more : List Token}

theorem covers_of_eq (h : p.covers q = true) : p.Covers q := by
  simp only [covers, Bool.and_eq_true, List.all_eq_true, List.contains_iff_mem, Bool.or_eq_true,
    Bool.not_eq_true'] at h
  obtain ⟨⟨⟨hFollow, hLooks⟩, hEmpty⟩, hNegated⟩ := h
  refine ⟨hFollow, fun hq => ?_, fun hq => ?_, fun hq => ?_⟩
  · exact hLooks.resolve_left (by simp [hq])
  · exact hEmpty.resolve_left (by simp [hq])
  · exact hNegated.resolve_left (by simp [hq])

theorem Covers.refl (p : Profile) : p.Covers p := ⟨fun _ => id, id, id, id⟩

theorem Covers.meets (h : p.Covers q) (hMore : p.Meets more) : q.Meets more :=
  fun t ht => h.follow _ (hMore t ht)

theorem Covers.allows (h : p.Covers q) (hMore : p.Allows rest more) : q.Allows rest more := by
  rcases hMore with hMeets | ⟨t, hRest, hSame, hNot⟩
  · exact Or.inl (h.meets hMeets)
  · exact Or.inr ⟨t, hRest, hSame, fun hLooks => hNot (h.looks hLooks)⟩

theorem meets_nil (p : Profile) : p.Meets [] := fun t ht => by cases ht

/-- What is known of a reader that reads nothing. -/
def nothing : Profile := ⟨starts, false, true, false, []⟩

/-- What is known of a reader of one token. -/
def token (kind : TokenKind) : Profile := ⟨starts, false, false, kind == .keyword .NOT, [kind]⟩

/-- The profile with another text. -/
def withText (p : Profile) (text : List TokenKind) : Profile := { p with text }

/-- The profile of a reader that takes a token. -/
def nonempty (p : Profile) : Profile := { p with empty := false }

/-- What is known of a reader with another one behind it. -/
def andThen (p q : Profile) : Profile where
  follow := if q.empty then q.follow.filter p.follow.contains else q.follow
  looks := q.looks || (q.empty && p.looks)
  empty := p.empty && q.empty
  negated := p.negated || (p.empty && q.negated)
  text := p.text ++ q.text

/-- Whether the second reader can stand behind the first one: its text ends what the first one
reads. -/
def fits (p q : Profile) : Bool := !(p.looks && q.negated) && q.text.head?.all p.follow.contains

/-- What is known of a reader that takes a token which is none of the given kinds and goes on with
the first reader, or goes on with the second one where no such token is next. -/
def option (ks : List TokenKind) (p q : Profile) : Profile where
  follow := (p.follow.filter q.follow.contains).filter ks.contains
  looks := p.looks || q.looks
  empty := q.empty
  negated := !ks.contains (.keyword .NOT) || q.negated
  text := q.text

/-- What is known of a choice between two readers. -/
def choice (p q : Profile) : Profile where
  follow := p.follow.filter q.follow.contains
  looks := p.looks || q.looks
  empty := p.empty || q.empty
  negated := p.negated || q.negated
  text := q.text

theorem mem_right {k : TokenKind} (h : k ∈ (p.andThen q).follow) : k ∈ q.follow := by
  rw [andThen] at h
  split at h
  · exact (List.mem_filter.mp h).1
  · exact h

theorem Meets.right (h : (p.andThen q).Meets more) : q.Meets more := fun t ht => mem_right (h t ht)

theorem Meets.left (h : (p.andThen q).Meets more) (hEmpty : q.empty = true) : p.Meets more := by
  intro t ht
  have hFollow := h t ht
  rw [andThen, hEmpty, if_pos rfl] at hFollow
  simpa using (List.mem_filter.mp hFollow).2

theorem mem_option {ks : List TokenKind} {k : TokenKind} (h : k ∈ (option ks p q).follow) :
    k ∈ p.follow ∧ k ∈ q.follow ∧ k ∈ ks := by
  obtain ⟨h, hKinds⟩ := List.mem_filter.mp h
  obtain ⟨hp, hq⟩ := List.mem_filter.mp h
  exact ⟨hp, by simpa using hq, by simpa using hKinds⟩

theorem option_covers_right (ks : List TokenKind) (p q : Profile) : (option ks p q).Covers q := by
  refine ⟨fun k hk => (mem_option hk).2.1, fun h => ?_, id, fun h => ?_⟩
  · simp [option, h]
  · simp [option, h]

theorem choice_covers_left (p q : Profile) : (p.choice q).Covers p := by
  refine ⟨fun k hk => (List.mem_filter.mp hk).1, fun h => ?_, fun h => ?_, fun h => ?_⟩ <;>
    simp [choice, h]

theorem choice_covers_right (p q : Profile) : (p.choice q).Covers q := by
  refine ⟨fun k hk => by simpa using (List.mem_filter.mp hk).2, fun h => ?_, fun h => ?_,
    fun h => ?_⟩ <;> simp [choice, h]

end Profile

/-- None of the tokens ends a statement. -/
def Inside (ts : List Token) : Prop := ∀ t ∈ ts, ¬ t.kind.IsEnd

theorem Inside.append {ts us : List Token} (h : Inside ts) (h' : Inside us) : Inside (ts ++ us) :=
  fun t ht => (List.mem_append.mp ht).elim (h t) (h' t)

/-- If the row starts with a `NOT`, the profile says so. -/
def StartsAs (p : Profile) (ts : List Token) : Prop :=
  ∀ t ∈ ts.head?, t.kind = .keyword .NOT → p.negated = true

/-! ## Viable readers -/

section Definitions

variable {α : Type}

/-- The reader takes exactly these tokens without an error, whatever may stand behind them. -/
def Finishes (p : Profile) (m : Parse α) (s : State) (ts : List Token) : Prop :=
  ∃ (a : α) (s' : State), s'.error = none ∧ s'.terminator = s.terminator ∧
    ∀ more, p.Meets more → m.run (s.withTokens (ts ++ more)) = (a, s'.withTokens more)

/-- The reader takes its text without an error, wherever it stands. -/
structure Ready (p : Profile) (m : Parse α) : Prop where
  empty : p.text = [] → p.empty = true
  inside : Inside p.words
  finishes : ∀ s, Intact s → Finishes p m s p.words

/-- The reader takes these tokens, and does the same with other tokens behind them. -/
structure Takes (p : Profile) (m : Parse α) (s : State) (ts : List Token) : Prop where
  tokens : s.tokens = ts ++ (m.run s).2.tokens
  empty : ts = [] → p.empty = true
  starts : StartsAs p ts
  run : ∀ more, p.Allows (m.run s).2.tokens more →
    m.run (s.withTokens (ts ++ more)) = ((m.run s).1, (m.run s).2.withTokens more)

/-- An error is reported behind these tokens. If there are any, the reader takes them with others
behind them. -/
structure Breaks (p : Profile) (m : Parse α) (s : State) (e : ParseError)
    (ts rest : List Token) : Prop where
  tokens : s.tokens = ts ++ rest
  place : (s.skip ts rest).Reports e
  starts : StartsAs p ts
  done : ts ≠ [] → ∃ more, Inside more ∧ Finishes p m s (ts ++ more)

/-- What the reader takes in a state can be completed, with an error and without one. -/
structure ViableAt (p : Profile) (m : Parse α) (s : State) : Prop where
  pass : (m.run s).2.error = none → ∃ ts, Takes p m s ts
  stop : ∀ e, (m.run s).2.error = some e → ∃ ts rest, Breaks p m s e ts rest

/-- The reader completes what it took of fewer than `n` tokens. -/
def Sound (n : Nat) (p : Profile) (m : Parse α) : Prop := ∀ s, Fewer n s → ViableAt p m s

/-- The reader takes its text, and completes what it took of fewer than `n` tokens. -/
structure Viable (n : Nat) (p : Profile) (m : Parse α) : Prop where
  ready : 0 < n → Ready p m
  sound : Sound n p m

end Definitions

variable {α β γ : Type} {n : Nat} {p q r : Profile} {s : State} {t : Token} {rest : List Token}
  {m : Parse α} {ks : List TokenKind}

theorem StartsAs.nil : StartsAs p [] := fun t ht => by cases ht

theorem StartsAs.mono {ts : List Token} (h : StartsAs q ts)
    (hNot : q.negated = true → p.negated = true) : StartsAs p ts :=
  fun t ht hKind => hNot (h t ht hKind)

theorem Finishes.mono {ts : List Token} (h : Finishes q m s ts)
    (hFollow : ∀ k ∈ p.follow, k ∈ q.follow) : Finishes p m s ts := by
  obtain ⟨a, s', hError, hTerminator, hRun⟩ := h
  exact ⟨a, s', hError, hTerminator, fun more hMore => hRun more fun t ht => hFollow _ (hMore t ht)⟩

/-- What is taken without an error is taken in the same way where the reader stops. -/
theorem Takes.finishes {ts : List Token} (h : Takes p m s ts) (hNone : (m.run s).2.error = none) :
    Finishes p m s ts :=
  ⟨(m.run s).1, (m.run s).2, hNone, (m.moves s).terminator_eq, fun more hMore =>
    h.run more (Or.inl hMore)⟩

/-- One text behind the other. -/
theorem Finishes.bind {f : α → Parse β} {ts us : List Token} {a : α} {s' : State}
    (hRun : ∀ more, p.Meets more → m.run (s.withTokens (ts ++ (us ++ more))) =
      (a, s'.withTokens (us ++ more))) (hTerminator : s'.terminator = s.terminator)
    (h : Finishes p (f a) s' us) : Finishes p (m >>= f) s (ts ++ us) := by
  obtain ⟨b, s'', hError, hTerminator', hRest⟩ := h
  refine ⟨b, s'', hError, hTerminator'.trans hTerminator, fun more hMore => ?_⟩
  rw [List.append_assoc, run_bind, hRun more hMore]
  exact hRest more hMore

theorem Ready.mono (h : Ready q m) (hCovers : p.Covers q) (hText : p.text = q.text) :
    Ready p m := by
  have hWords : p.words = q.words := congrArg (List.map sample) hText
  refine ⟨fun hNil => hCovers.empty (h.empty (hText ▸ hNil)), hWords ▸ h.inside, fun s hs => ?_⟩
  exact hWords ▸ (h.finishes s hs).mono hCovers.follow

namespace ViableAt

/-- A reader that does the same as another one, with the tokens at hand and with all others in which
those that it takes are completed. -/
theorem congr {k : Parse α} (hHere : m.run s = k.run s)
    (hRun : ∀ ts us more, s.tokens = ts ++ us → StartsAs q ts →
      (ts = [] → q.empty = true ∧ p.Allows us more) →
      (k.run (s.withTokens (ts ++ more))).2.error = none →
      m.run (s.withTokens (ts ++ more)) = k.run (s.withTokens (ts ++ more)))
    (hCovers : p.Covers q) (h : ViableAt q k s) : ViableAt p m s := by
  refine ⟨fun hError => ?_, fun e hError => ?_⟩
  · rw [hHere] at hError
    obtain ⟨ts, hTakes⟩ := h.pass hError
    refine ⟨ts, hHere ▸ hTakes.tokens, fun hNil => hCovers.empty (hTakes.empty hNil),
      hTakes.starts.mono hCovers.negated, ?_⟩
    rw [hHere]
    intro more hMore
    have hSame := hTakes.run more (hCovers.allows hMore)
    rw [hRun ts _ more hTakes.tokens hTakes.starts (fun hNil => ⟨hTakes.empty hNil, hMore⟩), hSame]
    rw [hSame]
    exact hError
  · rw [hHere] at hError
    obtain ⟨ts, us, hBreaks⟩ := h.stop e hError
    refine ⟨ts, us, hBreaks.tokens, hBreaks.place, hBreaks.starts.mono hCovers.negated, ?_⟩
    intro hSome
    obtain ⟨more, hInside, a, s', hNone, hTerminator, hFinish⟩ := hBreaks.done hSome
    refine ⟨more, hInside, a, s', hNone, hTerminator, fun after hAfter => ?_⟩
    have hSame := hFinish after (hCovers.meets hAfter)
    rw [List.append_assoc] at hSame ⊢
    rw [hRun ts us _ hBreaks.tokens hBreaks.starts (fun hNil => absurd hNil hSome), hSame]
    rw [hSame]
    exact hNone

theorem mono (h : ViableAt q m s) (hCovers : p.Covers q) : ViableAt p m s :=
  h.congr rfl (fun _ _ _ _ _ _ _ => rfl) hCovers

/-- Readers that do the same whatever the tokens are. -/
theorem of_run {k : Parse α} (hRun : ∀ ts, m.run (s.withTokens ts) = k.run (s.withTokens ts))
    (h : ViableAt p k s) : ViableAt p m s :=
  h.congr (hRun s.tokens) (fun _ _ _ _ _ _ _ => hRun _) (.refl p)

/-- A reader that takes the next token and goes on as another one. -/
theorem step {k : Parse α} (hs : Intact s) (hTokens : s.tokens = t :: rest)
    (hRun : ∀ ts, m.run (s.withTokens (t :: ts)) = k.run ((s.take t rest).withTokens ts))
    (hFollow : ∀ k ∈ p.follow, k ∈ q.follow) (hLooks : q.looks = true → p.looks = true)
    (hNot : t.kind = .keyword .NOT → p.negated = true) (hReady : ∃ text, Ready (q.withText text) k)
    (h : ViableAt q k (s.take t rest)) : ViableAt p m s := by
  have hSelf : m.run s = k.run (s.take t rest) := by
    have hHere := hRun rest
    rwa [← hTokens] at hHere
  have hStarts : ∀ ts, StartsAs p (t :: ts) := by
    rintro ts u hu hKind
    obtain rfl := Option.some.inj hu
    exact hNot hKind
  have hFinish : ∀ {ts}, Finishes q k (s.take t rest) ts → Finishes p m s (t :: ts) := by
    rintro ts ⟨a, s', hError, hTerminator, hFinish⟩
    refine ⟨a, s', hError, hTerminator, fun more hMore => ?_⟩
    rw [List.cons_append, hRun]
    exact hFinish more fun u hu => hFollow _ (hMore u hu)
  refine ⟨fun hError => ?_, fun e hError => ?_⟩
  · rw [hSelf] at hError
    obtain ⟨ts, hTakes⟩ := h.pass hError
    refine ⟨t :: ts, ?_, (fun hNil => by cases hNil), hStarts ts, ?_⟩
    · rw [hTokens, hSelf, List.cons_append, ← hTakes.tokens]
      rfl
    · rw [hSelf]
      intro more hMore
      rw [List.cons_append, hRun]
      refine hTakes.run more ?_
      rcases hMore with hMeets | ⟨u, hu, hu', hNot'⟩
      · exact Or.inl fun u hu => hFollow _ (hMeets u hu)
      · exact Or.inr ⟨u, hu, hu', fun hq => hNot' (hLooks hq)⟩
  · rw [hSelf] at hError
    obtain ⟨ts, us, hBreaks⟩ := h.stop e hError
    refine ⟨t :: ts, us, ?_, ?_, hStarts ts, fun _ => ?_⟩
    · rw [hTokens, List.cons_append, ← hBreaks.tokens]
      rfl
    · refine hBreaks.place.congr rfl rfl ?_
      simp only [State.skip, State.take, List.getLast?_cons]
      cases ts.getLast? <;> rfl
    · by_cases hNil : ts = []
      · obtain ⟨text, hText⟩ := hReady
        subst hNil
        exact ⟨_, hText.inside, hFinish (hText.finishes _ ⟨hs.terminator, hs.error⟩)⟩
      · obtain ⟨more, hInside, hMore⟩ := hBreaks.done hNil
        exact ⟨more, hInside, hFinish hMore⟩

/-- An error at the next token. -/
theorem fail
    (h : ∃ expected, (m.run s).2.error = some ⟨s.errorPosition, .unexpected expected s.current⟩) :
    ViableAt p m s := by
  obtain ⟨expected, hError⟩ := h
  refine ⟨fun hNone => ?_, fun e he => ⟨[], s.tokens, rfl, ?_, .nil, fun h => absurd rfl h⟩⟩
  · rw [hError] at hNone
    cases hNone
  · obtain rfl := Option.some.inj (hError.symm.trans he)
    refine ⟨rfl, fun _ _ hCause => ?_⟩
    cases hCause
    rfl

end ViableAt

namespace Sound

theorem mono (h : Sound n q m) (hCovers : p.Covers q) : Sound n p m :=
  fun s hs => (h s hs).mono hCovers

theorem less (h : Sound (n + 1) p m) : Sound n p m := fun s hs => h s (hs.mono n.le_succ)

theorem withText (h : Sound n p m) (text : List TokenKind) : Sound n (p.withText text) m :=
  h.mono ⟨fun _ => id, id, id, id⟩

/-- A reader that notes an error first. -/
theorem fail (expected : Expected) {f : Unit → Parse α} :
    Sound n p (Parse.fail expected >>= f) := by
  intro s hs
  refine .fail ⟨expected, ?_⟩
  refine ((f ()).moves _).error_eq ?_
  rw [Parse.fail, State.error_note, hs.error]
  rfl

end Sound

namespace Viable

theorem zero : Viable 0 p m :=
  ⟨fun h => absurd h (Nat.lt_irrefl 0), fun _ hs => absurd hs.length (Nat.not_lt_zero _)⟩

theorem less (h : Viable (n + 1) p m) : Viable n p m :=
  ⟨fun _ => h.ready n.succ_pos, h.sound.less⟩

/-- A reader with one profile has another one. -/
theorem mono (h : Viable n q m) (hCovers : p.covers q = true) (hText : p.text = q.text) :
    Viable n p m :=
  ⟨fun hn => (h.ready hn).mono (Profile.covers_of_eq hCovers) hText,
    h.sound.mono (Profile.covers_of_eq hCovers)⟩

theorem of_eq {k : Parse α} (hEq : m = k) (h : Viable n p k) : Viable n p m := hEq ▸ h

end Viable

/-! ## Readers that take nothing -/

/-- A reader that takes no token, looks at none and meets no error. -/
structure Silent (m : Parse α) : Prop where
  run : ∀ (s : State) ts, m.run (s.withTokens ts) = ((m.run s).1, (m.run s).2.withTokens ts)
  error : ∀ s, (m.run s).2.error = s.error

namespace Silent

theorem tokens (h : Silent m) (s : State) : (m.run s).2.tokens = s.tokens :=
  congrArg (fun r => r.2.tokens) (h.run s s.tokens)

theorem pure (a : α) : Silent (pure a) := ⟨fun _ _ => rfl, fun _ => rfl⟩

theorem bind {f : α → Parse β} (h : Silent m) (hf : ∀ a, Silent (f a)) : Silent (m >>= f) := by
  refine ⟨fun s ts => ?_, fun s => ((hf _).error _).trans (h.error s)⟩
  rw [run_bind, h.run, (hf _).run]
  rfl

theorem look {g : State → α} (h : ∀ (s : State) ts, g (s.withTokens ts) = g s) :
    Silent (Parse.look g) := ⟨fun s ts => by rw [run_look, h]; rfl, fun _ => rfl⟩

theorem spanFrom (first : Span) : Silent (Parse.spanFrom first) := look fun _ _ => rfl

theorem viable (h : Silent m) : Viable n .nothing m := by
  refine ⟨fun _ => ⟨fun _ => rfl, (fun t ht => by cases ht), fun s hs => ?_⟩,
    fun s hs => ⟨fun _ => ?_, fun e he => ?_⟩⟩
  · exact ⟨(m.run s).1, (m.run s).2, (h.error s).trans hs.error, (m.moves s).terminator_eq,
      fun more _ => h.run s more⟩
  · exact ⟨[], (h.tokens s).symm, fun _ => rfl, .nil, fun more _ => h.run s more⟩
  · rw [h.error, hs.error] at he
    cases he

end Silent

theorem Viable.pure (a : α) : Viable n .nothing (pure a) := (Silent.pure a).viable

/-! ## One reader behind another -/

section Bind

variable {f : α → Parse β} {e : ParseError} {ts us : List Token}

theorem Ready.withText_self (h : Ready p m) : ∃ text, Ready (p.withText text) m := ⟨p.text, h⟩

/-- The text of the second reader may stand behind the first one, with what may stand behind
both. -/
theorem meets_words (hFits : p.fits q = true) (hEmpty : q.text = [] → q.empty = true)
    {more : List Token} (hMore : (p.andThen q).Meets more) : p.Meets (q.words ++ more) := by
  have hHead := (Bool.and_eq_true_iff.mp hFits).2
  unfold Profile.words
  cases hText : q.text with
  | nil => exact hMore.left (hEmpty hText)
  | cons k text =>
    rw [hText] at hHead
    intro t ht
    obtain rfl := Option.some.inj ht
    exact List.contains_iff_mem.mp hHead

theorem StartsAs.append {ts us : List Token} (h : StartsAs p ts) (h' : StartsAs q us)
    (hEmpty : ts = [] → p.empty = true) : StartsAs (p.andThen q) (ts ++ us) := by
  intro t ht hKind
  cases ts with
  | nil => simp [Profile.andThen, hEmpty rfl, h' t ht hKind]
  | cons u ts => simp [Profile.andThen, h t ht hKind]

/-- In front of what the second reader took, the first one stops as before. -/
theorem allows_append (hFits : p.fits q = true) {us rest more : List Token}
    (hTokens : (m.run s).2.tokens = us ++ rest) (hSome : us ≠ []) (hStarts : StartsAs q us) :
    p.Allows (m.run s).2.tokens (us ++ more) := by
  have hLooks := (Bool.and_eq_true_iff.mp hFits).1
  obtain ⟨t, us, rfl⟩ := List.exists_cons_of_ne_nil hSome
  refine Or.inr ⟨t, by rw [hTokens]; rfl, rfl, fun hp hKind => ?_⟩
  rw [hp, hStarts t rfl hKind] at hLooks
  cases hLooks

theorem Takes.bind (h : Takes p m s ts) (hf : Takes q (f (m.run s).1) (m.run s).2 us)
    (hFits : p.fits q = true) : Takes (p.andThen q) (m >>= f) s (ts ++ us) := by
  refine ⟨?_, fun hNil => ?_, h.starts.append hf.starts h.empty, fun more hMore => ?_⟩
  · rw [h.tokens, hf.tokens, List.append_assoc]
    rfl
  · obtain ⟨hNil, hNil'⟩ := List.append_eq_nil_iff.mp hNil
    simp [Profile.andThen, h.empty hNil, hf.empty hNil']
  · have hFirst : p.Allows (m.run s).2.tokens (us ++ more) := by
      by_cases hNil : us = []
      · subst hNil
        rcases hMore with hMeets | ⟨t, hRest, hHere, hNot⟩
        · exact Or.inl (hMeets.left (hf.empty rfl))
        · refine Or.inr ⟨t, hf.tokens ▸ hRest, hHere, fun hp => hNot ?_⟩
          simp [Profile.andThen, hp, hf.empty rfl]
      · exact allows_append hFits hf.tokens hNil hf.starts
    rw [List.append_assoc, run_bind, h.run _ hFirst]
    refine hf.run more ?_
    rcases hMore with hMeets | ⟨t, hRest, hHere, hNot⟩
    · exact Or.inl hMeets.right
    · refine Or.inr ⟨t, hRest, hHere, fun hq => hNot ?_⟩
      simp [Profile.andThen, hq]

/-- Behind an error of the first reader, the text of the second one is put. -/
theorem Breaks.bind (hs : Intact s) (h : Breaks p m s e ts rest) (hf : ∀ a, Ready q (f a))
    (hFits : p.fits q = true) : Breaks (p.andThen q) (m >>= f) s e ts rest := by
  refine ⟨h.tokens, h.place, h.starts.mono fun hp => by simp [Profile.andThen, hp], fun hSome => ?_⟩
  obtain ⟨more, hInside, a, s', hNone, hTerminator, hFinish⟩ := h.done hSome
  refine ⟨more ++ q.words, hInside.append (hf a).inside, ?_⟩
  rw [← List.append_assoc]
  refine Finishes.bind (fun after hAfter => ?_) hTerminator
    (((hf a).finishes s' ⟨hTerminator ▸ hs.terminator, hNone⟩).mono fun _ => Profile.mem_right)
  exact hFinish _ (meets_words hFits (hf a).empty hAfter)

/-- The second reader meets an error. -/
theorem Takes.breaks (hs : Intact s) (hNone : (m.run s).2.error = none) (h : Takes p m s ts)
    (hf : Breaks q (f (m.run s).1) (m.run s).2 e us rest) (hReady : Ready q (f (m.run s).1))
    (hFits : p.fits q = true) : Breaks (p.andThen q) (m >>= f) s e (ts ++ us) rest := by
  have hTerminator : (m.run s).2.terminator = s.terminator := (m.moves s).terminator_eq
  obtain ⟨ts', hTokens, hPrevious⟩ := (m.moves s).exists_taken
  obtain rfl := List.append_cancel_right (hTokens.symm.trans h.tokens)
  refine ⟨?_, ?_, h.starts.append hf.starts h.empty, fun _ => ?_⟩
  · rw [h.tokens, hf.tokens, List.append_assoc]
  · refine hf.place.congr rfl hTerminator.symm ?_
    simp only [State.skip, hPrevious, List.getLast?_append]
    cases us.getLast? <;> rfl
  · by_cases hNil : us = []
    · subst hNil
      refine ⟨q.words, hReady.inside, ?_⟩
      rw [List.append_nil]
      refine Finishes.bind (fun more hMore => ?_) hTerminator
        ((hReady.finishes _ (hs.moves (m.moves s) hNone)).mono fun _ => Profile.mem_right)
      exact h.run _ (Or.inl (meets_words hFits hReady.empty hMore))
    · obtain ⟨more, hInside, hFinish⟩ := hf.done hNil
      refine ⟨more, hInside, ?_⟩
      rw [List.append_assoc]
      refine Finishes.bind (fun after hAfter => ?_) hTerminator
        (hFinish.mono fun _ => Profile.mem_right)
      rw [List.append_assoc us]
      exact h.run _ (allows_append hFits hf.tokens hNil hf.starts)

theorem ViableAt.bind (hs : Intact s) (h : ViableAt p m s)
    (hf : (m.run s).2.error = none → ViableAt q (f (m.run s).1) (m.run s).2)
    (hReady : ∀ a, Ready q (f a)) (hFits : p.fits q = true) :
    ViableAt (p.andThen q) (m >>= f) s := by
  refine ⟨fun hError => ?_, fun e hError => ?_⟩
  · have hNone := error_none_of_moves ((f (m.run s).1).moves (m.run s).2) hError
    obtain ⟨ts, hTakes⟩ := h.pass hNone
    obtain ⟨us, hTakes'⟩ := (hf hNone).pass hError
    exact ⟨ts ++ us, hTakes.bind hTakes' hFits⟩
  · cases hFirst : (m.run s).2.error with
    | some e' =>
      have hSame := (((f (m.run s).1).moves (m.run s).2).error_eq hFirst).symm.trans hError
      obtain rfl := Option.some.inj hSame
      obtain ⟨ts, rest, hBreaks⟩ := h.stop e' hFirst
      exact ⟨ts, rest, hBreaks.bind hs hReady hFits⟩
    | none =>
      obtain ⟨ts, hTakes⟩ := h.pass hFirst
      obtain ⟨us, rest, hBreaks⟩ := (hf hFirst).stop e hError
      exact ⟨ts ++ us, rest, hTakes.breaks hs hFirst hBreaks (hReady _) hFits⟩

theorem Ready.bind (h : Ready p m) (hf : ∀ a, Ready q (f a)) (hFits : p.fits q = true) :
    Ready (p.andThen q) (m >>= f) := by
  have hIntact : Intact ⟨[], .endOfInput .start, .atStart, [], false, [], 0, State.noted_nil⟩ :=
    ⟨Or.inr rfl, rfl⟩
  obtain ⟨a, -⟩ := h.finishes _ hIntact
  have hWords : (p.andThen q).words = p.words ++ q.words := List.map_append
  refine ⟨fun hNil => ?_, hWords ▸ h.inside.append (hf a).inside, fun s hs => ?_⟩
  · obtain ⟨hp, hq⟩ := List.append_eq_nil_iff.mp hNil
    simp [Profile.andThen, h.empty hp, (hf a).empty hq]
  · obtain ⟨a, s', hNone, hTerminator, hRun⟩ := h.finishes s hs
    rw [hWords]
    refine Finishes.bind (fun more hMore => ?_) hTerminator
      (((hf a).finishes s' ⟨hTerminator ▸ hs.terminator, hNone⟩).mono fun _ => Profile.mem_right)
    exact hRun _ (meets_words hFits (hf a).empty hMore)

/-- One reader behind another one that fits in front of it. -/
theorem Viable.bind (h : Viable n p m) (hFits : p.fits q = true) (hf : ∀ a, Viable n q (f a)) :
    Viable n (p.andThen q) (m >>= f) := by
  refine ⟨fun hn => (h.ready hn).bind (fun a => (hf a).ready hn) hFits, fun s hs => ?_⟩
  refine (h.sound s hs).bind hs.toIntact (fun hNone => ?_) (fun a => (hf a).ready hs.pos) hFits
  exact (hf _).sound _ (hs.moves (m.moves s) hNone)

theorem Finishes.silent (hf : ∀ a, Silent (f a)) (h : Finishes p m s ts) :
    Finishes p (m >>= f) s ts := by
  obtain ⟨a, s', hNone, hTerminator, hRun⟩ := h
  refine ⟨((f a).run s').1, ((f a).run s').2, ((hf a).error s').trans hNone,
    ((f a).moves s').terminator_eq.trans hTerminator, fun more hMore => ?_⟩
  rw [run_bind, hRun more hMore, (hf a).run]

theorem ViableAt.silent (hf : ∀ a, Silent (f a)) (h : ViableAt p m s) : ViableAt p (m >>= f) s := by
  refine ⟨fun hNone => ?_, fun e hError => ?_⟩
  · rw [run_bind, (hf _).error] at hNone
    obtain ⟨ts, hTakes⟩ := h.pass hNone
    have hTokens := (hf (m.run s).1).tokens (m.run s).2
    refine ⟨ts, ?_, hTakes.empty, hTakes.starts, fun more hMore => ?_⟩
    · rw [run_bind, hTokens]
      exact hTakes.tokens
    · rw [run_bind, hTokens] at hMore
      rw [run_bind, hTakes.run more hMore, (hf _).run]
      rfl
  · rw [run_bind, (hf _).error] at hError
    obtain ⟨ts, rest, hBreaks⟩ := h.stop e hError
    exact ⟨ts, rest, hBreaks.tokens, hBreaks.place, hBreaks.starts, fun hSome =>
      (hBreaks.done hSome).imp fun _ h => ⟨h.1, h.2.silent hf⟩⟩

theorem Ready.silent (h : Ready p m) (hf : ∀ a, Silent (f a)) : Ready p (m >>= f) :=
  ⟨h.empty, h.inside, fun s hs => (h.finishes s hs).silent hf⟩

/-- A reader that takes no token behind another reader. -/
theorem Viable.silent (h : Viable n p m) (hf : ∀ a, Silent (f a)) : Viable n p (m >>= f) :=
  ⟨fun hn => (h.ready hn).silent hf, fun s hs => (h.sound s hs).silent hf⟩

theorem Viable.made {f : α → β} (h : Viable n p m) : Viable n p (m >>= fun a => Pure.pure (f a)) :=
  h.silent fun _ => .pure _

/-- A reader with something done to its result. -/
theorem Viable.map (f : α → β) (h : Viable n p m) : Viable n p (f <$> m) :=
  .of_eq (bind_pure_comp f m).symm h.made

end Bind

end SqlKit.Grammar
