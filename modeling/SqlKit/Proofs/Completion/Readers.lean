import SqlKit.Proofs.Completion.Viable

/-!
# Viable building blocks

The readers that all others are put together from are viable: a token that may be taken or is asked
for, a look at the next token, a chain of items.
-/

namespace SqlKit.Grammar

open Parse

variable {α β γ : Type} {n : Nat} {p q : Profile} {s : State} {t : Token} {rest : List Token}
  {m : Parse α} {ks : List TokenKind}

/-! ## Taking -/

/-- Tokens of these kinds are not accepted. -/
def Refuses (accept : Token → Option β) (ks : List TokenKind) : Prop :=
  ∀ t, t.kind ∈ ks → accept t = none

section Take

variable {accept : Token → Option β} {f : Option β → Parse α}

theorem run_take?_of_refuses {ts : List Token} (hTokens : s.tokens = ts)
    (h : ∀ t ∈ ts.head?, accept t = none) : (Parse.take? accept).run s = (none, s) := by
  cases ts with
  | nil => exact run_take?_nil hTokens
  | cons t rest => exact run_take?_none hTokens (h t rfl)

/-- If the next token is not refused, there is one and it is accepted. -/
theorem exists_accepted (h : ¬ ∀ t ∈ s.tokens.head?, accept t = none) :
    ∃ t rest b, s.tokens = t :: rest ∧ accept t = some b := by
  push Not at h
  obtain ⟨t, ht, hAccept⟩ := h
  obtain ⟨rest, hTokens⟩ := List.head?_eq_some_iff.mp ht
  obtain ⟨b, hb⟩ := Option.ne_none_iff_exists'.mp hAccept
  exact ⟨t, rest, b, hTokens, hb⟩

/-- An accepted token is none of those that are refused. -/
theorem negated_of_accept {b : β} (hRefuses : Refuses accept ks) (hAccept : accept t = some b)
    (hKind : t.kind = .keyword .NOT) : (!ks.contains (.keyword .NOT)) = true := by
  by_contra hNot
  rw [hRefuses t (hKind ▸ by simpa using hNot)] at hAccept
  cases hAccept

/-- The text of a reader, or what may stand behind it, is not accepted. -/
theorem refuses_words (hFollow : ∀ k ∈ q.follow, k ∈ ks) (hRefuses : Refuses accept ks)
    (hText : ∀ k ∈ p.text.head?, accept (sample k) = none) {more : List Token}
    (hMore : q.Meets more) : ∀ t ∈ (p.words ++ more).head?, accept t = none := by
  unfold Profile.words
  intro t ht
  cases hWords : p.text with
  | nil =>
    rw [hWords] at ht
    exact hRefuses t (hFollow _ (hMore t ht))
  | cons k text =>
    rw [hWords] at ht hText
    obtain rfl := Option.some.inj ht
    exact hText k rfl

theorem Inside.cons {kind : TokenKind} {ts : List Token} (hEnd : ¬ kind.IsEnd) (h : Inside ts) :
    Inside (sample kind :: ts) := fun t ht => by
  rcases List.mem_cons.mp ht with rfl | ht
  · exact hEnd
  · exact h t ht

/-- The text of a reader that does not start with an accepted token. -/
theorem Ready.takeNone (h : Ready q (f none)) (hRefuses : Refuses accept ks)
    (hText : ∀ k ∈ q.text.head?, accept (sample k) = none) :
    Ready (.option ks p q) (Parse.take? accept >>= f) := by
  refine ⟨h.empty, h.inside, fun s hs => ?_⟩
  obtain ⟨a, s', hNone, hTerminator, hRun⟩ := h.finishes s hs
  refine ⟨a, s', hNone, hTerminator, fun more hMore => ?_⟩
  have hRefused := refuses_words (fun k hk => (Profile.mem_option hk).2.2) hRefuses hText hMore
  have hWords : (Profile.option ks p q).words = q.words := rfl
  rw [hWords, run_bind, run_take?_of_refuses rfl hRefused]
  exact hRun more ((Profile.option_covers_right ks p q).meets hMore)

/-- The text of a reader behind an accepted token. -/
theorem Ready.takeSome {kind : TokenKind} {b : β} (h : Ready p (f (some b)))
    (hAccept : accept (sample kind) = some b) (hEnd : ¬ kind.IsEnd) :
    Ready ((Profile.option ks p q).withText (kind :: p.text)) (Parse.take? accept >>= f) := by
  refine ⟨(fun hNil => by cases hNil), h.inside.cons hEnd, fun s hs => ?_⟩
  obtain ⟨a, s', hNone, hTerminator, hRun⟩ :=
    h.finishes (s.take (sample kind) s.tokens) ⟨hs.terminator, hs.error⟩
  refine ⟨a, s', hNone, hTerminator, fun more hMore => ?_⟩
  rw [run_bind, run_take?_some rfl hAccept]
  exact hRun more fun t ht => (Profile.mem_option (hMore t ht)).1

/-- What is read behind an accepted token, and what is read in place of it. -/
theorem Sound.take? (hSome : ∀ b, Viable n p (f (some b))) (hNone : Sound (n + 1) q (f none))
    (hRefuses : Refuses accept ks) : Sound (n + 1) (.option ks p q) (Parse.take? accept >>= f) := by
  intro s hs
  have hSkip : ∀ ts, (∀ t ∈ ts.head?, accept t = none) →
      (Parse.take? accept >>= f).run (s.withTokens ts) = (f none).run (s.withTokens ts) :=
    fun ts hts => by rw [run_bind, run_take?_of_refuses rfl hts]
  by_cases hRefused : ∀ t ∈ s.tokens.head?, accept t = none
  · refine (hNone s hs).congr (hSkip s.tokens hRefused) (fun ts us more hTokens _ hNil _ => ?_)
      (Profile.option_covers_right ks p q)
    refine hSkip _ fun t ht => ?_
    cases ts with
    | cons u ts => exact hRefused t (hTokens ▸ ht)
    | nil =>
      rcases (hNil rfl).2 with hMeets | ⟨u, hu, hu', -⟩
      · exact hRefuses t (Profile.mem_option (hMeets t ht)).2.2
      · obtain rfl := Option.some.inj (hu'.symm.trans ht)
        exact hRefused _ (hTokens ▸ hu)
  · obtain ⟨t, rest, b, hTokens, hb⟩ := exists_accepted hRefused
    have hBehind := hs.take hTokens
    refine ViableAt.step hs.toIntact hTokens (fun ts => ?_)
      (fun k hk => (Profile.mem_option hk).1) (fun h => by simp [Profile.option, h])
      (fun hKind => ?_)
      ((hSome b).ready hBehind.pos).withText_self ((hSome b).sound _ hBehind)
    · rw [run_bind, run_take?_some rfl hb]
      rfl
    · rw [Profile.option, negated_of_accept hRefuses hb hKind]
      rfl

theorem Viable.take? (hSome : ∀ b, Viable n p (f (some b))) (hNone : Viable (n + 1) q (f none))
    (hRefuses : Refuses accept ks)
    (hText : ∀ k ∈ q.text.head?, accept (sample k) = none) :
    Viable (n + 1) (.option ks p q) (Parse.take? accept >>= f) :=
  ⟨fun hn => (hNone.ready hn).takeNone hRefuses hText, .take? hSome hNone.sound hRefuses⟩

end Take

/-- The kinds that texts start with, but for one. -/
def startsBut (kind : TokenKind) : List TokenKind := starts.filter (· != kind)

theorem refuses_eat (kind : TokenKind) :
    Refuses (fun t => if t.kind = kind then some () else none) (startsBut kind) := by
  intro t ht
  refine if_neg fun hKind => ?_
  simpa [hKind] using (List.mem_filter.mp ht).2

section Eat

variable {c : TokenKind} {f : Bool → Parse α}

theorem Sound.eat (hTrue : Viable n p (f true)) (hFalse : Sound (n + 1) q (f false)) :
    Sound (n + 1) (.option (startsBut c) p q) (Parse.eatKind c >>= f) := by
  rw [Reads.eatKind_bind]
  exact .take? (fun _ => hTrue) hFalse (refuses_eat c)

/-- What is read behind a token of some c, and what is read in place of it. -/
theorem Viable.eat (hTrue : Viable n p (f true)) (hFalse : Viable (n + 1) q (f false))
    (hText : q.text.head? ≠ some c) :
    Viable (n + 1) (.option (startsBut c) p q) (Parse.eatKind c >>= f) := by
  rw [Reads.eatKind_bind]
  exact .take? (fun _ => hTrue) hFalse (refuses_eat c) fun k hk => if_neg fun hKind =>
    hText (hk.trans (congrArg some hKind))

/-- The text of a reader behind a token. -/
theorem Ready.eat (h : Ready p (f true)) (hEnd : ¬ c.IsEnd) :
    Ready ((Profile.option (startsBut c) p q).withText (c :: p.text))
      (Parse.eatKind c >>= f) := by
  rw [Reads.eatKind_bind]
  exact Ready.takeSome (b := ()) h (if_pos rfl) hEnd

/-- What is read behind a token of some c, with its text, and what is read in place of it. -/
theorem Viable.eatFirst (hReady : 0 < n + 1 → Ready p (f true)) (hTrue : Viable n p (f true))
    (hFalse : Sound (n + 1) q (f false)) (hEnd : ¬ c.IsEnd) :
    Viable (n + 1) ((Profile.option (startsBut c) p q).withText (c :: p.text))
      (Parse.eatKind c >>= f) :=
  ⟨fun hn => (hReady hn).eat hEnd, (Sound.eat hTrue hFalse).withText _⟩

end Eat

section Ite

variable {c : TokenKind} {k : Parse α}

theorem run_ite_of_ne (h : ∀ t ∈ s.tokens.head?, t.kind ≠ c) :
    (Parse.eatKind c >>= fun b => if b = true then m else k).run s = k.run s := by
  rw [Reads.eatKind_bind, run_bind, run_take?_of_refuses rfl fun t ht => if_neg (h t ht)]
  rfl

/-- What is done in place of a token counts only where it is not next. -/
theorem run_ite_congr {k' : Parse α}
    (h : (∀ t ∈ s.tokens.head?, t.kind ≠ c) → k.run s = k'.run s) :
    (Parse.eatKind c >>= fun b => if b = true then m else k).run s =
      (Parse.eatKind c >>= fun b => if b = true then m else k').run s := by
  by_cases hRefused : ∀ t ∈ s.tokens.head?, t.kind ≠ c
  · rw [run_ite_of_ne hRefused, run_ite_of_ne hRefused, h hRefused]
  · push Not at hRefused
    obtain ⟨t, ht, hKind⟩ := hRefused
    obtain ⟨rest, hTokens⟩ := List.head?_eq_some_iff.mp ht
    rw [Reads.eatKind_bind, Reads.eatKind_bind, run_bind, run_bind,
      run_take?_some (a := ()) hTokens (if_pos hKind)]
    rfl

/-- A choice by a token that is taken. -/
theorem Viable.ite (hThen : Viable n p m) (hElse : Viable (n + 1) q k)
    (hText : q.text.head? ≠ some c) :
    Viable (n + 1) (.option (startsBut c) p q)
      (Parse.eatKind c >>= fun b => if b = true then m else k) :=
  .eat (f := fun b => if b = true then m else k) hThen hElse hText

theorem Sound.ite (hThen : Viable n p m) (hElse : Sound (n + 1) q k) :
    Sound (n + 1) (.option (startsBut c) p q)
      (Parse.eatKind c >>= fun b => if b = true then m else k) :=
  .eat (f := fun b => if b = true then m else k) hThen hElse

/-- A choice by a token that is taken, with the text behind it. -/
theorem Viable.iteFirst (hReady : 0 < n + 1 → Ready p m) (hThen : Viable n p m)
    (hElse : Sound (n + 1) q k) (hEnd : ¬ c.IsEnd) :
    Viable (n + 1) ((Profile.option (startsBut c) p q).withText (c :: p.text))
      (Parse.eatKind c >>= fun b => if b = true then m else k) :=
  .eatFirst (f := fun b => if b = true then m else k) hReady hThen hElse hEnd

end Ite

/-! ## Asking -/

section Ask

variable {accept : Token → Option α} {expected : Expected} {standIn : α}

theorem run_ask_some {a : α} (hTokens : s.tokens = t :: rest) (hAccept : accept t = some a) :
    (Parse.ask expected standIn accept).run s = (a, s.take t rest) := by
  rw [Parse.ask, run_bind, run_take?_some hTokens hAccept]
  rfl

theorem run_ask_none (h : ∀ t ∈ s.tokens.head?, accept t = none) :
    (Parse.ask expected standIn accept).run s =
      (standIn, s.note ⟨s.errorPosition, .unexpected expected s.current⟩) := by
  rw [Parse.ask, run_bind, run_take?_of_refuses rfl h]
  rfl

theorem error_note (hs : s.error = none) (e : ParseError) : (s.note e).error = some e := by
  rw [State.error_note, hs]
  rfl

/-- A reader that asks for a token. -/
theorem Viable.ask (kind : TokenKind) {a : α} (hAccept : accept (sample kind) = some a)
    (hNot : kind ≠ .keyword .NOT → Refuses accept [.keyword .NOT])
    (hEnd : ¬ kind.IsEnd) :
    Viable n (.token kind) (Parse.ask expected standIn accept) := by
  have hNil : Inside [] := fun t ht => by cases ht
  refine ⟨fun _ => ⟨(fun hNil => by cases hNil), hNil.cons hEnd, fun s hs => ?_⟩, fun s hs => ?_⟩
  · exact ⟨a, s.take (sample kind) s.tokens, hs.error, rfl, fun more _ => run_ask_some rfl hAccept⟩
  · by_cases hRefused : ∀ t ∈ s.tokens.head?, accept t = none
    · refine .fail ⟨expected, ?_⟩
      rw [run_ask_none hRefused, error_note hs.error]
    · obtain ⟨t, rest, b, hTokens, hb⟩ := exists_accepted hRefused
      have hRun : (Parse.ask expected standIn accept).run s = _ := run_ask_some hTokens hb
      refine ⟨fun _ => ⟨[t], ?_, (fun hNil => by cases hNil), ?_, fun more _ => ?_⟩, fun e he => ?_⟩
      · rw [hTokens, hRun]
        rfl
      · intro u hu hKind
        obtain rfl := Option.some.inj hu
        by_cases hk : kind = .keyword .NOT
        · rw [hk]
          rfl
        · rw [hNot hk t (by simp [hKind])] at hb
          cases hb
      · rw [List.singleton_append, run_ask_some rfl hb, hRun]
        rfl
      · rw [hRun] at he
        exact absurd (hs.error.symm.trans he) (by simp)

end Ask

theorem Viable.askKind {expected : Expected} (kind : TokenKind)
    (hEnd : ¬ kind.IsEnd) :
    Viable n (.token kind) (Parse.askKind expected kind) :=
  .ask kind (if_pos rfl) (fun hk t ht => if_neg fun hKind => hk (by simpa [hKind] using ht)) hEnd

theorem Viable.expect (symbol : Symbol)
    (hEnd : ¬ (TokenKind.symbol symbol).IsEnd) :
    Viable n (.token (.symbol symbol)) (Parse.expect symbol) := (Viable.askKind _ hEnd).made

theorem Viable.expectKeyword (word : Keyword) :
    Viable n (.token (.keyword word)) (Parse.expectKeyword word) :=
  (Viable.askKind _ (by simp [TokenKind.IsEnd])).made

theorem Viable.name (role : NameRole) : Viable n (.token someName) (Parse.name role) := by
  refine .ask someName (a := "x") rfl (fun _ t ht => ?_) (by simp [someName, TokenKind.IsEnd])
  have hKind := List.mem_singleton.mp ht
  simp [nameOf?, hKind, Keyword.isReserved]

/-! ## Looking -/

section Look

variable {g : Token → γ} {f : γ → Parse α}

theorem Intact.exists_head {kind : TokenKind} (hs : Intact s) (hKind : s.current.kind = kind)
    (hEnd : ¬ kind.IsEnd) : ∃ t rest, s.tokens = t :: rest ∧ t.kind = kind := by
  obtain ⟨t, rest, hTokens⟩ :=
    List.exists_cons_of_ne_nil (tokens_ne_nil hs.terminator (hKind ▸ hEnd))
  exact ⟨t, rest, hTokens, State.current_cons hTokens ▸ hKind⟩

/-- The next token is one that stops a reader, or an end. -/
theorem Profile.Meets.current {more : List Token} (h : p.Meets more) (hs : Intact s) :
    (s.withTokens more).current.kind ∈ p.follow ∨ (s.withTokens more).current.kind.IsEnd := by
  cases more with
  | nil => exact Or.inr hs.terminator
  | cons t rest => exact Or.inl (h t rfl)

/-- A look at the next token in front of a reader that takes it, or that does not change what is
seen. -/
theorem ViableAt.look (hs : Intact s) (h : ViableAt q (f (g s.current)) s)
    (hEmpty : q.empty = true → ∀ t : Token, t.kind ∈ p.follow ∨ t.kind.IsEnd → g t = g s.current)
    (hCovers : p.Covers q) : ViableAt p (Parse.look (fun s => g s.current) >>= f) s := by
  refine .congr (k := f (g s.current)) rfl (fun ts us more hTokens _ hNil _ => ?_) hCovers h
  have hSame : g (s.withTokens (ts ++ more)).current = g s.current := by
    by_cases hSome : ts = []
    · subst hSome
      obtain ⟨hq, hMeets | ⟨t, hu, hMore, -⟩⟩ := hNil rfl
      · exact hEmpty hq _ (hMeets.current hs)
      · obtain ⟨rest, hu⟩ := List.head?_eq_some_iff.mp hu
        obtain ⟨rest', rfl⟩ := List.head?_eq_some_iff.mp hMore
        rw [State.current_cons (hTokens.trans hu), State.current_cons rfl]
    · rw [State.current_withTokens_append hTokens hSome]
  rw [run_bind, run_look, hSame]

theorem Ready.look {c : γ} (h : Ready p (f c)) (hText : ∀ k ∈ p.text.head?, g (sample k) = c)
    (hNil : p.text = [] → ∀ t : Token, t.kind ∈ p.follow ∨ t.kind.IsEnd → g t = c) :
    Ready p (Parse.look (fun s => g s.current) >>= f) := by
  refine ⟨h.empty, h.inside, fun s hs => ?_⟩
  obtain ⟨a, s', hNone, hTerminator, hRun⟩ := h.finishes s hs
  refine ⟨a, s', hNone, hTerminator, fun more hMore => ?_⟩
  have hSame : g (s.withTokens (p.words ++ more)).current = c := by
    cases hWords : p.text with
    | nil =>
      rw [Profile.words, hWords]
      exact hNil hWords _ (hMore.current hs)
    | cons k text =>
      rw [Profile.words, hWords]
      exact hText k (by rw [hWords]; rfl)
  rw [run_bind, run_look, hSame]
  exact hRun more hMore

/-- A choice by the next token between readers that take it. -/
theorem Sound.look (h : ∀ s, Fewer n s → ViableAt p (f (g s.current)) s) (hp : p.empty = false) :
    Sound n p (Parse.look (fun s => g s.current) >>= f) :=
  fun s hs => .look hs.toIntact (h s hs) (fun h => by rw [hp] at h; cases h) (.refl p)

end Look

section Choose

variable {g : Token → Bool} {k : Parse α}

/-- A choice by the next token. If one of the readers may take nothing, it is chosen in front of all
that may stand behind it. -/
theorem Sound.choose (hThen : ∀ s, Fewer n s → g s.current = true → ViableAt p m s)
    (hElse : Sound n q k) (hp : p.empty = false)
    (hq : q.empty = true → ∀ t : Token, t.kind ∈ (p.choice q).follow ∨ t.kind.IsEnd → g t = false) :
    Sound n (p.choice q)
      (Parse.look (fun s => g s.current) >>= fun b => if b = true then m else k) := by
  intro s hs
  cases hSees : g s.current with
  | true =>
    refine .look (q := p) hs.toIntact ?_ (fun h => by rw [hp] at h; cases h)
      (p.choice_covers_left q)
    rw [hSees]
    exact hThen s hs hSees
  | false =>
    refine .look (q := q) hs.toIntact ?_ (fun h t ht => (hq h t ht).trans hSees.symm)
      (p.choice_covers_right q)
    rw [hSees]
    exact hElse s hs

/-- A kind that stands neither behind a reader nor at an end is not seen where the reader stops. -/
theorem not_sees {c : TokenKind} (h : c ∉ p.follow) (hEnd : ¬ c.IsEnd) (t : Token)
    (ht : t.kind ∈ p.follow ∨ t.kind.IsEnd) : (t.kind == c) = false := by
  refine beq_eq_false_iff_ne.mpr ?_
  rintro rfl
  exact ht.elim h hEnd

/-- A choice by the next token, with the text of the second reader. -/
theorem Viable.choose (hThen : ∀ s, Fewer n s → g s.current = true → ViableAt p m s)
    (hElse : Viable n q k) (hp : p.empty = false)
    (hq : q.empty = true → ∀ t : Token, t.kind ∈ (p.choice q).follow ∨ t.kind.IsEnd → g t = false)
    (hText : ∀ k ∈ q.text.head?, g (sample k) = false) :
    Viable n (p.choice q)
      (Parse.look (fun s => g s.current) >>= fun b => if b = true then m else k) := by
  refine ⟨fun hn => ?_, .choose hThen hElse.sound hp hq⟩
  refine Ready.look (c := false) ((hElse.ready hn).mono (p.choice_covers_right q) rfl) hText ?_
  exact fun hNil => hq ((hElse.ready hn).empty hNil)

/-- A choice by the next token, with the text of the first reader. -/
theorem Viable.chooseFirst (hReady : 0 < n → Ready p m)
    (hThen : ∀ s, Fewer n s → g s.current = true → ViableAt p m s) (hElse : Sound n q k)
    (hp : p.empty = false)
    (hq : q.empty = true → ∀ t : Token, t.kind ∈ (p.choice q).follow ∨ t.kind.IsEnd → g t = false)
    (hText : ∀ k ∈ p.text.head?, g (sample k) = true) :
    Viable n ((p.choice q).withText p.text)
      (Parse.look (fun s => g s.current) >>= fun b => if b = true then m else k) := by
  refine ⟨fun hn => ?_, (Sound.choose hThen hElse hp hq).withText _⟩
  have hSome : p.text ≠ [] := fun hNil => by
    rw [(hReady hn).empty hNil] at hp
    cases hp
  refine Ready.look (c := true) ((hReady hn).mono ?_ rfl) hText fun hNil => absurd hNil hSome
  exact ⟨(p.choice_covers_left q).follow, (p.choice_covers_left q).looks,
    (p.choice_covers_left q).empty, (p.choice_covers_left q).negated⟩

end Choose

/-- A reader that keeps the next token in mind and takes it. -/
theorem Viable.current {f : Token → Parse α} (h : ∀ t, Viable n p (f t))
    (hp : p.empty = false) : Viable n p (Parse.current >>= f) := by
  refine ⟨fun hn => ?_, Sound.look (g := fun t => t) (fun s hs => (h _).sound s hs) hp⟩
  cases hText : p.text with
  | nil =>
    rw [((h default).ready hn).empty hText] at hp
    cases hp
  | cons k text =>
    refine Ready.look (g := fun t => t) (c := sample k) ((h _).ready hn) (fun k' hk => ?_) ?_
    · rw [hText] at hk
      obtain rfl := Option.some.inj hk
      rfl
    · intro hNil
      rw [hNil] at hText
      cases hText

/-- A reader with the span of text that it takes. -/
theorem Viable.spanned {item : Parse (Span → α)} (h : Viable n p item)
    (hp : p.empty = false) : Viable n p (Parse.spanned item) :=
  .current (fun first => h.silent fun _ => (Silent.spanFrom first.span).bind fun _ => .pure _) hp

/-! ## Repeating -/

/-- What is known of a chain of items of a profile behind tokens of none of the given kinds. -/
def Profile.many (ks : List TokenKind) (p : Profile) : Profile where
  follow := p.follow.filter ks.contains
  looks := p.looks
  empty := true
  negated := !ks.contains (.keyword .NOT)
  text := []

section Chain

variable {accept : Token → Option β} {item : β → Parse α}

theorem run_chain_of_refuses {ts : List Token} (hTokens : s.tokens = ts)
    (h : ∀ t ∈ ts.head?, accept t = none) : (Parse.chain accept item).run s = ([], s) := by
  cases ts with
  | nil => exact chainFrom_nil hTokens
  | cons t rest => exact chainFrom_none hTokens (h t rfl)

theorem Ready.chain (hRefuses : Refuses accept ks) :
    Ready (.many ks p) (Parse.chain accept item) := by
  refine ⟨fun _ => rfl, (fun t ht => by cases ht), fun s hs => ⟨[], s, hs.error, rfl,
    fun more hMore => ?_⟩⟩
  refine run_chain_of_refuses rfl fun t ht => hRefuses t ?_
  simpa using (List.mem_filter.mp (hMore t ht)).2

/-- Where no item is next. -/
theorem ViableAt.chain_nil (hs : Intact s) (hRefuses : Refuses accept ks)
    (h : ∀ t ∈ s.tokens.head?, accept t = none) :
    ViableAt (.many ks p) (Parse.chain accept item) s := by
  have hRun : (Parse.chain accept item).run s = ([], s) := run_chain_of_refuses rfl h
  refine ⟨fun _ => ⟨[], by rw [hRun]; rfl, fun _ => rfl, .nil, fun more hMore => ?_⟩,
    fun e he => ?_⟩
  · rw [hRun] at hMore ⊢
    refine run_chain_of_refuses rfl fun t ht => ?_
    rcases hMore with hMeets | ⟨u, hu, hu', -⟩
    · exact hRefuses t (by simpa using (List.mem_filter.mp (hMeets t ht)).2)
    · obtain rfl := Option.some.inj (hu'.symm.trans ht)
      exact h _ hu
  · rw [hRun, hs.error] at he
    cases he

/-- An item and the chain behind it. -/
def chainItem (accept : Token → Option β) (item : β → Parse α) (b : β) : Parse (List α) :=
  item b >>= fun x => Parse.chain accept item >>= fun xs => Pure.pure (x :: xs)

theorem run_chain_cons {b : β} (hTokens : s.tokens = t :: rest) (hAccept : accept t = some b) :
    (Parse.chain accept item).run s = (chainItem accept item b).run (s.take t rest) :=
  chainFrom_some hTokens hAccept

section Items

variable {w : β → List TokenKind} (h : ∀ b, Viable n (p.withText (w b)) (item b))
  (hRefuses : Refuses accept ks) (hLooks : (p.looks && !ks.contains (.keyword .NOT)) = false)

include hLooks in
theorem fits_many (b : β) : (p.withText (w b)).fits (.many ks p) = true := by
  simp only [Profile.fits, Profile.withText, Profile.many, hLooks]
  rfl

theorem ready_chain (item : β → Parse α) (p : Profile) (x : α) (hRefuses : Refuses accept ks) :
    Ready (.many ks p) (Parse.chain accept item >>= fun xs => Pure.pure (x :: xs)) :=
  (Ready.chain hRefuses).silent fun _ => .pure _

include h hRefuses hLooks

/-- Where an item is next, and a chain behind it. -/
theorem ViableAt.chain_cons {b : β} (hs : Fewer (n + 1) s) (hTokens : s.tokens = t :: rest)
    (hAccept : accept t = some b)
    (hRest : ∀ s', Fewer n s' → s'.tokens.length ≤ rest.length →
      ViableAt (.many ks p) (Parse.chain accept item) s') :
    ViableAt (Profile.many ks p).nonempty (Parse.chain accept item) s := by
  have hBehind := hs.take hTokens
  have hFits := fits_many (w := w) hLooks b
  have hMany := fun x => ready_chain item p x hRefuses
  refine ViableAt.step hs.toIntact hTokens (fun ts => run_chain_cons rfl hAccept)
    (fun k hk => ?_) (fun hq => ?_) (fun hKind => negated_of_accept hRefuses hAccept hKind)
    (((h b).ready hBehind.pos).bind hMany hFits).withText_self
    (((h b).sound _ hBehind).bind hBehind.toIntact (fun hNone => ?_) hMany hFits)
  · have hp : k ∈ p.follow := (List.mem_filter.mp hk).1
    exact List.mem_filter.mpr ⟨hk, List.contains_iff_mem.mpr hp⟩
  · simpa [Profile.andThen, Profile.many, Profile.withText, Profile.nonempty] using hq
  · exact ViableAt.silent (fun _ => .pure _)
      (hRest _ (hBehind.moves ((item b).moves _) hNone) ((item b).length_run_le _))

theorem Sound.chain : Sound (n + 1) (.many ks p) (Parse.chain accept item) := by
  intro s hs
  -- by induction on the number of tokens
  obtain ⟨k, hk⟩ : ∃ k, s.tokens.length < k := ⟨_, Nat.lt_succ_self _⟩
  induction k generalizing s with
  | zero => cases hk
  | succ k ih =>
    by_cases hRefused : ∀ t ∈ s.tokens.head?, accept t = none
    · exact .chain_nil hs.toIntact hRefuses hRefused
    · obtain ⟨t, rest, b, hTokens, hAccept⟩ := exists_accepted hRefused
      refine (ViableAt.chain_cons h hRefuses hLooks hs hTokens hAccept fun s' hs' hLess => ?_).mono
        ⟨fun _ => id, id, fun _ => rfl, id⟩
      rw [hTokens, List.length_cons] at hk
      exact ih s' hs'.less (Nat.lt_of_le_of_lt hLess (Nat.lt_of_succ_lt_succ hk))

end Items

/-- The text of an item behind an accepted token. -/
theorem Ready.chain_cons {kind : TokenKind} {b : β} (h : Ready p (item b))
    (hAccept : accept (sample kind) = some b) (hRefuses : Refuses accept ks)
    (hLooks : (p.looks && !ks.contains (.keyword .NOT)) = false)
    (hEnd : ¬ kind.IsEnd) :
    Ready ((Profile.many ks p).nonempty.withText (kind :: p.text)) (Parse.chain accept item) := by
  refine ⟨(fun hNil => by cases hNil), h.inside.cons hEnd, fun s hs => ?_⟩
  have hItem := h.bind (fun x => ready_chain item p x hRefuses)
    (fits_many (w := fun _ : β => p.text) hLooks b)
  obtain ⟨a, s', hNone, hTerminator, hRun⟩ :=
    hItem.finishes (s.take (sample kind) s.tokens) ⟨hs.terminator, hs.error⟩
  refine ⟨a, s', hNone, hTerminator, fun more hMore => ?_⟩
  have hWords : (p.andThen (.many ks p)).words = p.words := by simp [Profile.words, Profile.andThen,
    Profile.many]
  rw [hWords] at hRun
  refine (run_chain_cons rfl hAccept).trans (hRun more fun t ht => ?_)
  have hp : t.kind ∈ p.follow := (List.mem_filter.mp (hMore t ht)).1
  exact List.mem_filter.mpr ⟨hMore t ht, List.contains_iff_mem.mpr hp⟩

/-- Items behind accepted tokens. Their texts may differ. -/
theorem Viable.chain {w : β → List TokenKind} (h : ∀ b, Viable n (p.withText (w b)) (item b))
    (hRefuses : Refuses accept ks)
    (hLooks : (p.looks && !ks.contains (.keyword .NOT)) = false) :
    Viable (n + 1) (.many ks p) (Parse.chain accept item) :=
  ⟨fun _ => .chain hRefuses, .chain h hRefuses hLooks⟩

theorem Viable.many (h : ∀ b, Viable n p (item b)) (hRefuses : Refuses accept ks)
    (hLooks : (p.looks && !ks.contains (.keyword .NOT)) = false) :
    Viable (n + 1) (.many ks p) (Parse.chain accept item) :=
  .chain (w := fun _ => p.text) h hRefuses hLooks

end Chain

/-- What is known of items with commas between them. -/
def Profile.list (p : Profile) : Profile := p.andThen (.many starts p)

theorem refuses_chainOf (symbol : Symbol) (h : .symbol symbol ∉ starts) :
    Refuses (fun t => if t.kind = .symbol symbol then some () else none) starts := by
  intro t ht
  refine if_neg fun hKind => h ?_
  rwa [hKind] at ht

theorem Viable.chainOf {item : Parse α} {symbol : Symbol} (h : Viable n p item)
    (hSymbol : .symbol symbol ∉ starts) :
    Viable (n + 1) (.many starts p) (Parse.chainOf symbol item) :=
  .many (fun _ => h) (refuses_chainOf symbol hSymbol) (Bool.and_false _)

theorem Viable.separated {item : Parse α} (h : Viable n p item) :
    Viable n p.list (Parse.separated item) :=
  h.bind (by simp [Profile.fits, Profile.many, starts]) fun _ => (h.chainOf (by decide)).less.made

/-- An item behind a word. -/
theorem Viable.after {item : Parse α} (h : Viable n p item) (word : Keyword) :
    Viable (n + 1) (.option (startsBut (.keyword word)) p .nothing) (Parse.after word item) :=
  .ite h.made (.pure none) nofun

/-! ## Behind a known token, and without a bound -/

/-- What is known of a reader that takes a token of some kind first. -/
def Profile.behind (kind : TokenKind) (p : Profile) : Profile :=
  { p with empty := false, negated := kind == .keyword .NOT }

/-- A reader that takes the next token, whatever it is. -/
theorem ViableAt.advance {f : Unit → Parse α} {kind : TokenKind} (hs : Fewer (n + 1) s)
    (hKind : s.current.kind = kind) (h : Viable n p (f ()))
    (hCovers : q.covers (p.behind kind) = true)
    (hEnd : ¬ kind.IsEnd) :
    ViableAt q (Parse.advance >>= f) s := by
  obtain ⟨t, rest, hTokens, rfl⟩ := hs.exists_head hKind hEnd
  have hBehind := hs.take hTokens
  have hAt : ViableAt (p.behind t.kind) (Parse.advance >>= f) s := by
    refine .step (q := p) hs.toIntact hTokens (fun ts => ?_) (fun _ => id) id
      (fun hKind => beq_iff_eq.mpr hKind) (h.ready hBehind.pos).withText_self (h.sound _ hBehind)
    rw [run_bind, run_advance_cons rfl]
    rfl
  exact hAt.mono (Profile.covers_of_eq hCovers)

/-- A reader behind a token that is asked for, with something else done where it is not. -/
theorem Viable.askIte {kind : TokenKind} {expected : Expected} {k : Parse α} (h : Viable n p m)
    (hEnd : ¬ kind.IsEnd) :
    Viable n ((p.behind kind).withText (kind :: p.text))
      (Parse.askKind expected kind >>= fun b => if b = true then m else k) := by
  have hTake : ∀ {x : State} {t rest}, x.tokens = t :: rest → t.kind = kind →
      (Parse.askKind expected kind >>= fun b => if b = true then m else k).run x =
        m.run (x.take t rest) := by
    intro x t rest hTokens hKind
    rw [run_bind, Parse.askKind, run_ask_some (a := true) hTokens (if_pos hKind)]
    rfl
  refine ⟨fun hn => ⟨(fun hNil => by cases hNil), (h.ready hn).inside.cons hEnd, fun s hs => ?_⟩,
    fun s hs => ?_⟩
  · obtain ⟨a, s', hNone, hTerminator, hRun⟩ :=
      (h.ready hn).finishes (s.take (sample kind) s.tokens) ⟨hs.terminator, hs.error⟩
    exact ⟨a, s', hNone, hTerminator, fun more hMore => (hTake rfl rfl).trans (hRun more hMore)⟩
  · by_cases hRefused : ∀ t ∈ s.tokens.head?, (if t.kind = kind then some true else none) = none
    · have hError : ((Parse.askKind expected kind).run s).2.error =
          some ⟨s.errorPosition, .unexpected expected s.current⟩ := by
        rw [Parse.askKind, run_ask_none hRefused, error_note hs.error]
      have hMoves := (if ((Parse.askKind expected kind).run s).1 = true then m else k).moves
        ((Parse.askKind expected kind).run s).2
      exact .fail ⟨expected, hMoves.error_eq hError⟩
    · obtain ⟨t, rest, b, hTokens, hAccept⟩ := exists_accepted hRefused
      have hKind : t.kind = kind := by
        by_contra hOther
        rw [if_neg hOther] at hAccept
        cases hAccept
      exact ViableAt.step (q := p) hs.toIntact hTokens (fun ts => hTake rfl hKind) (fun _ => id) id
        (fun hNot => beq_iff_eq.mpr (hKind ▸ hNot)) (h.ready hs.pos).withText_self
        (h.sound _ (hs.take' hTokens))

/-- Readers that do the same with any number of tokens. -/
theorem Viable.of_same {k : Parse α} (hSame : ∀ n, SameBelow n m k) (h : Viable n p k) :
    Viable n p m := by
  have hRun : ∀ s : State, Intact s → ∀ ts, m.run (s.withTokens ts) = k.run (s.withTokens ts) :=
    fun s hs ts => hSame _ (s.withTokens ts) hs.terminator (Nat.lt_succ_self _)
  refine ⟨fun hn => ⟨(h.ready hn).empty, (h.ready hn).inside, fun s hs => ?_⟩,
    fun s hs => (h.sound s hs).of_run (hRun s hs.toIntact)⟩
  obtain ⟨a, s', hNone, hTerminator, hFinish⟩ := (h.ready hn).finishes s hs
  exact ⟨a, s', hNone, hTerminator, fun more hMore => (hRun s hs _).trans (hFinish more hMore)⟩

end SqlKit.Grammar
