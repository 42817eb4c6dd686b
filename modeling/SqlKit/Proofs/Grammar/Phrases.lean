import SqlKit.Proofs.Rendering.After

/-!
# The phrases that readers take

Whatever tree a reader makes, the tokens that it takes without an error make up a phrase:
parentheses are closed in it, and an integer stands only where something may start, behind a
question mark only as the number of it. `TakesPhrase k free m` says that the reader `m` takes a
phrase that closes `k` parentheses more than it opens, and that may start with an integer only if it
is `free` to. The rules of this file are those of the building blocks of readers.
-/

namespace SqlKit

open Grammar

/-- Whether a token of this kind may stand anywhere in a phrase: it is no parenthesis, no integer
and no question mark. -/
def TokenKind.isNeutral : TokenKind → Bool
  | .integer _ | .symbol .leftParen | .symbol .rightParen | .symbol .question => false
  | _ => true

/-- A token that is not neutral is an integer, a parenthesis or a question mark. -/
theorem TokenKind.isNeutral_or (kind : TokenKind) :
    kind.isNeutral = true ∨ (∃ n, kind = .integer n) ∨
    kind = .symbol .leftParen ∨ kind = .symbol .rightParen ∨ kind = .symbol .question := by
  cases kind with
  | integer n => exact .inr (.inl ⟨n, rfl⟩)
  | symbol symbol =>
    cases symbol with
    | leftParen => exact .inr (.inr (.inl rfl))
    | rightParen => exact .inr (.inr (.inr (.inl rfl)))
    | question => exact .inr (.inr (.inr (.inr rfl)))
    | _ => exact .inl rfl
  | _ => exact .inl rfl

/-- The number that touches a question mark, in front of some tokens. -/
def Grammar.numberBehind? (mark : Token) : List Token → Option Nat
  | t :: _ => if t.span.first.offset = mark.span.last.offset then unsigned? t else none
  | [] => none

/-- Tokens that close `k` parentheses more than they open. They start with an integer only if they
are free to, that is behind a token that something else follows. -/
inductive Phrase : Nat → Bool → List Token → Prop where
  | nil {free : Bool} : Phrase 0 free []
  | neutral {k : Nat} {free : Bool} {t : Token} {ts : List Token} (hKind : t.kind.isNeutral = true)
    (h : Phrase k true ts) : Phrase k free (t :: ts)
  | integer {k : Nat} {n : Int64} {t : Token} {ts : List Token} (hKind : t.kind = .integer n)
    (h : Phrase k false ts) : Phrase k true (t :: ts)
  | question {k : Nat} {free : Bool} {t : Token} {ts : List Token}
    (hKind : t.kind = .symbol .question) (h : Phrase k false ts) : Phrase k free (t :: ts)
  | numbered {k n : Nat} {free : Bool} {t u : Token} {ts : List Token}
    (hKind : t.kind = .symbol .question) (hNumber : numberBehind? t (u :: ts) = some n)
    (h : Phrase k false ts) : Phrase k free (t :: u :: ts)
  | left {k : Nat} {free : Bool} {t : Token} {ts : List Token} (hKind : t.kind = .symbol .leftParen)
    (h : Phrase (k + 1) true ts) : Phrase k free (t :: ts)
  | right {k : Nat} {free : Bool} {t : Token} {ts : List Token}
    (hKind : t.kind = .symbol .rightParen)
    (h : Phrase k false ts) : Phrase (k + 1) free (t :: ts)

namespace Phrase

variable {k : Nat} {ts us : List Token}

theorem free (h : Phrase k false ts) : Phrase k true ts := by
  cases h with
  | nil => exact .nil
  | neutral hKind h => exact .neutral hKind h
  | question hKind h => exact .question hKind h
  | numbered hKind hNumber h => exact .numbered hKind hNumber h
  | left hKind h => exact .left hKind h
  | right hKind h => exact .right hKind h

theorem of_bound (h : Phrase k false ts) (free : Bool) : Phrase k free ts := by
  cases free with
  | true => exact h.free
  | false => exact h

theorem loosen {free : Bool} (h : Phrase k free ts) : Phrase k true ts := by
  cases free with
  | true => exact h
  | false => exact h.free

/-- What stands behind a phrase does not start with an integer. -/
theorem append {j : Nat} {free : Bool} (h : Phrase j free ts) (h' : Phrase k false us) :
    Phrase (k + j) free (ts ++ us) := by
  induction h with
  | nil => exact h'.of_bound _
  | neutral hKind _ ih => exact .neutral hKind ih
  | integer hKind _ ih => exact .integer hKind ih
  | question hKind _ ih => exact .question hKind ih
  | numbered hKind hNumber _ ih => exact .numbered hKind hNumber ih
  | left hKind _ ih => exact .left hKind ih
  | right hKind _ ih => exact .right hKind ih

theorem neutrally {free : Bool} (hNeutral : ∀ t ∈ ts, t.kind.isNeutral = true)
    (h : Phrase k free us) :
    Phrase k free (ts ++ us) := by
  induction ts with
  | nil => exact h
  | cons t ts ih =>
    obtain ⟨hHead, hTail⟩ := List.forall_mem_cons.mp hNeutral
    exact .neutral hHead ((ih hTail).loosen)

/-- A phrase that is not free to does not start with an integer. -/
theorem head_ne (h : Phrase k false ts) {t : Token} (ht : t ∈ ts.head?) (n : Int64) :
    t.kind ≠ .integer n := by
  intro hInteger
  cases h with
  | nil => cases ht
  | neutral hKind =>
    obtain rfl := Option.some.inj ht
    rw [hInteger] at hKind
    cases hKind
  | question hKind | numbered hKind | left hKind | right hKind =>
    obtain rfl := Option.some.inj ht
    cases hKind.symm.trans hInteger

end Phrase

namespace Grammar

open Parse

/-! ## Readers that take phrases -/

/-- Without an error the reader takes such a phrase, from this state on. -/
def TakesPhraseAt {α : Type} (k : Nat) (free : Bool) (m : Parse α) (s : State) : Prop :=
  After m s fun _ s' => ∃ ts, s.tokens = ts ++ s'.tokens ∧ Phrase k free ts

/-- Without an error the reader takes such a phrase. -/
def TakesPhrase {α : Type} (k : Nat) (free : Bool) (m : Parse α) : Prop :=
  ∀ s, TakesPhraseAt k free m s

/-- Without an error the reader takes only neutral tokens. -/
def TakesNeutral {α : Type} (m : Parse α) : Prop := ∀ s, After m s fun _ s' =>
  ∃ ts, s.tokens = ts ++ s'.tokens ∧ ∀ t ∈ ts, t.kind.isNeutral = true

/-- Only neutral tokens are accepted. -/
def Neutrally {α : Type} (accept : Token → Option α) : Prop :=
  ∀ t a, accept t = some a → t.kind.isNeutral = true

/-- Only integers are accepted. -/
def Numerically {α : Type} (accept : Token → Option α) : Prop :=
  ∀ t a, accept t = some a → ∃ n, t.kind = .integer n

variable {α β γ ε : Type} {k : Nat} {free : Bool} {s : State} {t : Token} {rest : List Token}

theorem neutrally_kind {kind : TokenKind} {a : α} (h : kind.isNeutral = true) :
    Neutrally fun t => if t.kind = kind then some a else none := by
  intro t b hAccept
  by_cases hKind : t.kind = kind
  · rw [hKind]
    exact h
  · simp [hKind] at hAccept

/-- A token in front of what a reader takes. -/
theorem TakesPhraseAt.cons {j : Nat} {next : Bool} {m : Parse α} (hTokens : s.tokens = t :: rest)
    (hCons : ∀ ts, Phrase j next ts → Phrase k free (t :: ts))
    (h : TakesPhraseAt j next m (s.take t rest)) :
    After m (s.take t rest) fun _ s' => ∃ ts, s.tokens = ts ++ s'.tokens ∧ Phrase k free ts := by
  refine After.imp h ?_
  rintro a s' ⟨ts, hRest, hPhrase⟩
  exact ⟨t :: ts, by rw [hTokens]; exact congrArg (t :: ·) hRest, hCons ts hPhrase⟩

/-- Behind all tokens there is none to take. -/
theorem After.advance_nil {f : Unit → Parse β} {Q : β → State → Prop} (hTokens : s.tokens = [])
    (h : After (f ()) s Q) : After (Parse.advance >>= f) s Q := by
  have hRun : (Parse.advance >>= f).run s = (f ()).run s := by
    rw [Parse.advance, bind_assoc, run_bind, run_take?_nil hTokens]
    rfl
  rwa [After, hRun]

/-- The next token is known and is taken; behind all tokens none is. -/
theorem TakesPhraseAt.advance_of {j : Nat} {next : Bool} {f : Unit → Parse β}
    (hCons : ∀ t ts, t.kind = s.current.kind → Phrase j next ts → Phrase k free (t :: ts))
    (hNil : Phrase j next [] → Phrase k free []) (h : TakesPhrase j next (f ())) :
    TakesPhraseAt k free (Parse.advance >>= f) s := by
  cases hTokens : s.tokens with
  | nil =>
    refine After.advance_nil hTokens (After.imp (h s) ?_)
    rintro a s' ⟨ts, hRest, hPhrase⟩
    obtain rfl : ts = [] := by
      rw [hTokens] at hRest
      exact (List.append_eq_nil_iff.mp hRest.symm).1
    exact ⟨[], hRest, hNil hPhrase⟩
  | cons t rest =>
    rw [State.current_cons hTokens] at hCons
    exact After.advance hTokens (TakesPhraseAt.cons hTokens (hCons t · rfl) (h _))

theorem TakesPhraseAt.advance {f : Unit → Parse β} (hKind : s.current.kind.isNeutral = true)
    (h : TakesPhrase k true (f ())) : TakesPhraseAt k free (Parse.advance >>= f) s := by
  refine advance_of (fun t ts hToken => .neutral (hToken ▸ hKind)) (fun hNil => ?_) h
  cases hNil with
  | nil => exact .nil

theorem TakesPhraseAt.advanceParen {f : Unit → Parse β}
    (hKind : s.current.kind = .symbol .leftParen)
    (h : TakesPhrase (k + 1) true (f ())) : TakesPhraseAt k free (Parse.advance >>= f) s :=
  advance_of (fun _ _ hToken => .left (hToken.trans hKind)) (fun hNil => nomatch hNil) h

namespace TakesNeutral

theorem pure (a : α) : TakesNeutral (pure a) := fun _ _ => ⟨[], rfl, by simp⟩

theorem take? {accept : Token → Option α} {f : Option α → Parse β} (hAccept : Neutrally accept)
    (h : ∀ a, TakesNeutral (f a)) : TakesNeutral (Parse.take? accept >>= f) := by
  intro s
  refine After.take (fun t rest a hTokens hToken => ?_) fun _ => h none s
  refine After.imp (h (some a) (s.take t rest)) ?_
  rintro b s' ⟨ts, hRest, hNeutral⟩
  refine ⟨t :: ts, ?_, List.forall_mem_cons.mpr ⟨hAccept t a hToken, hNeutral⟩⟩
  rw [hTokens]
  exact congrArg (t :: ·) hRest

/-- A neutral token that may be there. -/
theorem eat {kind : TokenKind} {f : Bool → Parse β} (hKind : kind.isNeutral = true)
    (hTrue : TakesNeutral (f true)) (hFalse : TakesNeutral (f false)) :
    TakesNeutral (eatKind kind >>= f) := by
  simp only [eatKind, bind_assoc, pure_bind]
  refine take? (neutrally_kind hKind) fun a => ?_
  cases a with
  | none => exact hFalse
  | some _ => exact hTrue

/-- A choice by a neutral token that may be there. -/
theorem choose {kind : TokenKind} {m m' : Parse β} (hKind : kind.isNeutral = true)
    (hThen : TakesNeutral m) (hElse : TakesNeutral m') :
    TakesNeutral (eatKind kind >>= fun b => if b = true then m else m') := eat hKind hThen hElse

/-- Any number of neutral tokens. -/
theorem chain {accept : Token → Option α} (hAccept : Neutrally accept) (item : α → β) :
    TakesNeutral (Parse.chain accept fun a => Pure.pure (item a)) := by
  rintro s -
  simp only [Parse.chain]
  fun_induction chainFrom accept (fun a => Pure.pure (item a)) s with
  | case1 s => exact ⟨[], rfl, by simp⟩
  | case2 s => exact ⟨[], rfl, by simp⟩
  | case3 s t rest hTokens a hToken after more ih =>
    obtain ⟨ts, hRest, hNeutral⟩ := ih
    refine ⟨t :: ts, ?_, List.forall_mem_cons.mpr ⟨hAccept t a hToken, hNeutral⟩⟩
    rw [hTokens]
    exact congrArg (t :: ·) hRest

end TakesNeutral

namespace TakesPhrase

theorem of_bound {m : Parse α} (h : TakesPhrase k false m) (free : Bool) : TakesPhrase k free m :=
  fun s =>
  (h s).imp fun _ _ ⟨ts, hTokens, hPhrase⟩ => ⟨ts, hTokens, hPhrase.of_bound free⟩

theorem pure (a : α) : TakesPhrase 0 free (pure a) := fun _ _ => ⟨[], rfl, .nil⟩

/-- What is behind the tokens of a reader does not start with an integer. -/
theorem bind {m : Parse α} {f : α → Parse β} (h : TakesPhrase 0 free m)
    (hf : ∀ a, TakesPhrase k false (f a)) : TakesPhrase k free (m >>= f) := by
  intro s
  refine After.bind (h s) ?_
  rintro a s' ⟨ts, hTokens, hPhrase⟩ -
  refine After.imp (hf a s') ?_
  rintro b s'' ⟨us, hTokens', hPhrase'⟩
  exact ⟨ts ++ us, by rw [hTokens, hTokens', List.append_assoc], hPhrase.append hPhrase'⟩

/-- What is behind neutral tokens may start with an integer. -/
theorem behind {m : Parse α} {f : α → Parse β} (h : TakesNeutral m)
    (hf : ∀ a, TakesPhrase k free (f a)) :
    TakesPhrase k free (m >>= f) := by
  intro s
  refine After.bind (h s) ?_
  rintro a s' ⟨ts, hTokens, hNeutral⟩ -
  refine After.imp (hf a s') ?_
  rintro b s'' ⟨us, hTokens', hPhrase⟩
  exact ⟨ts ++ us, by rw [hTokens, hTokens', List.append_assoc], hPhrase.neutrally hNeutral⟩

theorem map {m : Parse α} (f : α → β) (h : TakesPhrase k free m) : TakesPhrase k free (f <$> m) := h

/-- Behind a reader that takes nothing. -/
theorem still {m : Parse α} {f : α → Parse β} (h : ∀ s, (m.run s).2.tokens = s.tokens)
    (hf : ∀ a, TakesPhrase k free (f a)) : TakesPhrase k free (m >>= f) := by
  intro s hError
  have hTake := hf (m.run s).1 (m.run s).2 hError
  rwa [h s] at hTake

theorem look {f : State → α} {g : α → Parse β} (h : ∀ a, TakesPhrase k free (g a)) :
    TakesPhrase k free (Parse.look f >>= g) := still (fun _ => rfl) h

/-- A choice by what is seen. -/
theorem sees {f : State → Bool} {m m' : Parse β} (hThen : TakesPhrase k free m)
    (hElse : TakesPhrase k free m') :
    TakesPhrase k free (Parse.look f >>= fun b => if b = true then m else m') := by
  refine look fun b => ?_
  cases b with
  | true => exact hThen
  | false => exact hElse

theorem fail {expected : Expected} {f : Unit → Parse β} :
    TakesPhrase k free (Parse.fail expected >>= f) :=
  fun _ => After.fail

theorem failUntyped {position : Position} {name : String} {f : Unit → Parse β} :
    TakesPhrase k free (Parse.failUntyped position name >>= f) := fun _ => After.failUntyped

/-! ### Neutral tokens -/

/-- Behind a neutral token anything may start. -/
theorem take? {accept : Token → Option α} {f : Option α → Parse β} (hAccept : Neutrally accept)
    (hSome : ∀ a, TakesPhrase k true (f (some a))) (hNone : TakesPhrase k free (f none)) :
    TakesPhrase k free (Parse.take? accept >>= f) := by
  intro s
  refine After.take (fun t rest a hTokens hToken => ?_) fun _ => hNone s
  exact TakesPhraseAt.cons hTokens (fun _ => .neutral (hAccept t a hToken)) (hSome a _)

theorem taken? {accept : Token → Option α} (hAccept : Neutrally accept) :
    TakesPhrase 0 free (Parse.take? accept) := by
  have hTake : TakesPhrase 0 free (Parse.take? accept >>= Pure.pure) :=
    take? hAccept (fun a => pure (some a)) (pure none)
  rwa [bind_pure] at hTake

theorem ask {expected : Expected} {standIn : α} {accept : Token → Option α} {f : α → Parse β}
    (hAccept : Neutrally accept) (h : ∀ a, TakesPhrase k true (f a)) :
    TakesPhrase k free (Parse.ask expected standIn accept >>= f) := by
  intro s
  refine After.ask fun t rest a hTokens hToken => ?_
  exact TakesPhraseAt.cons hTokens (fun _ => .neutral (hAccept t a hToken)) (h a _)

theorem asked {expected : Expected} {standIn : α} {accept : Token → Option α}
    (hAccept : Neutrally accept) : TakesPhrase 0 free (Parse.ask expected standIn accept) := by
  have hAsk : TakesPhrase 0 free (Parse.ask expected standIn accept >>= Pure.pure) :=
    ask hAccept .pure
  rwa [bind_pure] at hAsk

/-- A neutral token that may be there. -/
theorem eat {kind : TokenKind} {f : Bool → Parse β} (hKind : kind.isNeutral = true)
    (hTrue : TakesPhrase k true (f true)) (hFalse : TakesPhrase k free (f false)) :
    TakesPhrase k free (eatKind kind >>= f) := by
  intro s
  refine After.eat (fun t rest hTokens hToken => ?_) fun _ => hFalse s
  exact TakesPhraseAt.cons hTokens (fun _ => .neutral (hToken ▸ hKind)) (hTrue _)

/-- A choice by a neutral token that may be there. -/
theorem choose {kind : TokenKind} {m m' : Parse β} (hKind : kind.isNeutral = true)
    (hThen : TakesPhrase k true m) (hElse : TakesPhrase k free m') :
    TakesPhrase k free (eatKind kind >>= fun b => if b = true then m else m') :=
  eat hKind hThen hElse

/-- A neutral token that may be there, and the same behind it. -/
theorem eats {kind : TokenKind} {f : Bool → Parse β} (hKind : kind.isNeutral = true)
    (h : ∀ b, TakesPhrase k true (f b)) : TakesPhrase k true (eatKind kind >>= f) :=
  eat hKind (h true) (h false)

theorem eaten {kind : TokenKind} (hKind : kind.isNeutral = true) :
    TakesPhrase 0 free (eatKind kind) := by
  have hEat : TakesPhrase 0 free (eatKind kind >>= Pure.pure) := eat hKind (pure _) (pure _)
  rwa [bind_pure] at hEat

theorem expect {symbol : Symbol} {f : Unit → Parse β}
    (hSymbol : (TokenKind.symbol symbol).isNeutral = true) (h : TakesPhrase k true (f ())) :
    TakesPhrase k free (Parse.expect symbol >>= f) := by
  intro s
  refine After.expect fun t rest hTokens hKind => ?_
  exact TakesPhraseAt.cons hTokens (fun _ => .neutral (hKind ▸ hSymbol)) (h _)

theorem expectKeyword {word : Keyword} {f : Unit → Parse β} (h : TakesPhrase k true (f ())) :
    TakesPhrase k free (Parse.expectKeyword word >>= f) := by
  intro s
  refine After.expectKeyword fun t rest hTokens hKind => ?_
  exact TakesPhraseAt.cons hTokens (fun _ => .neutral (hKind ▸ rfl)) (h _)

/-! ### Integers -/

theorem askNumber {expected : Expected} {standIn : α} {accept : Token → Option α}
    (hAccept : Numerically accept) : TakesPhrase 0 true (Parse.ask expected standIn accept) := by
  have hAsk : TakesPhrase 0 true (Parse.ask expected standIn accept >>= Pure.pure) := by
    intro s
    refine After.ask fun t rest a hTokens hToken => ?_
    obtain ⟨n, hKind⟩ := hAccept t a hToken
    exact TakesPhraseAt.cons hTokens (fun _ => .integer hKind) ((pure a : TakesPhrase 0 false _) _)
  rwa [bind_pure] at hAsk

/-! ### Parentheses -/

theorem openParen {f : Unit → Parse β} (h : TakesPhrase (k + 1) true (f ())) :
    TakesPhrase k free (Parse.expect .leftParen >>= f) := by
  intro s
  refine After.expect fun t rest hTokens hKind => ?_
  exact TakesPhraseAt.cons hTokens (fun _ => .left hKind) (h _)

theorem closeParen {f : Unit → Parse β} (h : TakesPhrase k false (f ())) :
    TakesPhrase (k + 1) free (Parse.expect .rightParen >>= f) := by
  intro s
  refine After.expect fun t rest hTokens hKind => ?_
  exact TakesPhraseAt.cons hTokens (fun _ => .right hKind) (h _)

/-- A choice by an opening parenthesis that may be there. -/
theorem chooseParen {m m' : Parse β} (hThen : TakesPhrase (k + 1) true m)
    (hElse : TakesPhrase k free m') :
    TakesPhrase k free (Parse.eat .leftParen >>= fun b => if b = true then m else m') := by
  intro s
  refine After.eatIte (fun t rest hTokens hToken => ?_) fun _ => hElse s
  exact TakesPhraseAt.cons hTokens (fun _ => .left hToken) (hThen _)

/-- An opening parenthesis that is asked for. -/
theorem askParen {m m' : Parse β} (hThen : TakesPhrase (k + 1) true m) : TakesPhrase k free
    (askKind (.symbol .leftParen) (.symbol .leftParen) >>= fun b => if b = true then m
      else m') := by
  intro s
  refine After.ask fun t rest b hTokens hToken => ?_
  by_cases hKind : t.kind = .symbol .leftParen
  · rw [if_pos hKind] at hToken
    obtain rfl := Option.some.inj hToken
    exact TakesPhraseAt.cons hTokens (fun _ => .left hKind) (hThen _)
  · rw [if_neg hKind] at hToken
    cases hToken

/-! ### Repeating -/

/-- Items behind neutral tokens. -/
theorem chain {accept : Token → Option α} {item : α → Parse β} (hAccept : Neutrally accept)
    (h : ∀ a, TakesPhrase 0 true (item a)) : TakesPhrase 0 free (Parse.chain accept item) := by
  suffices hBound : TakesPhrase 0 false (Parse.chain accept item) from hBound.of_bound free
  intro s hError
  simp only [Parse.chain] at hError ⊢
  fun_induction chainFrom accept item s with
  | case1 s => exact ⟨[], rfl, .nil⟩
  | case2 s => exact ⟨[], rfl, .nil⟩
  | case3 s t rest hTokens a hToken after more ih =>
    have hAfter : after.2.error = none := error_none_of_moves (moves_chainFrom _ _ _) hError
    obtain ⟨ts, hItem, hPhrase⟩ := h a (s.take t rest) hAfter
    obtain ⟨us, hMore, hPhrase'⟩ := ih hError
    refine ⟨t :: (ts ++ us), ?_, .neutral (hAccept t a hToken) (hPhrase.append hPhrase')⟩
    rw [hTokens, List.cons_append, List.append_assoc, ← hMore]
    exact congrArg (t :: ·) hItem

theorem chainOf {symbol : Symbol} {item : Parse β}
    (hSymbol : (TokenKind.symbol symbol).isNeutral = true) (h : TakesPhrase 0 true item) :
    TakesPhrase 0 free (Parse.chainOf symbol item) := chain (neutrally_kind hSymbol) fun _ => h

theorem separated {item : Parse β} (h : TakesPhrase 0 true item) :
    TakesPhrase 0 true (Parse.separated item) :=
  h.bind fun _ => (chainOf rfl h).bind fun _ => .pure _

/-- Entries one behind the other, put together from the left. -/
theorem layer {first : Parse γ} {accept : Token → Option β} {item : β → Parse ε}
    {make : γ → List ε → α} (hAccept : Neutrally accept) (hFirst : TakesPhrase 0 free first)
    (hItem : ∀ b, TakesPhrase 0 true (item b)) : TakesPhrase 0 free (do
      let x ← first
      let rest ← Parse.chain accept item
      return make x rest) :=
  hFirst.bind fun _ => (chain hAccept hItem).bind fun _ => .pure _

/-! ### Parts of statements -/

theorem after {word : Keyword} {item : Parse β} (h : TakesPhrase 0 true item) :
    TakesPhrase 0 free (Parse.after word item) := choose rfl (h.bind fun _ => .pure _) (.pure _)

theorem spanned {item : Parse (Span → β)} (h : TakesPhrase k free item) :
    TakesPhrase k free (Parse.spanned item) := fun s hError => h s hError

end TakesPhrase

end Grammar

end SqlKit
