import SqlKit.Proofs.Rendering.Reads
import SqlKit.Proofs.Token.Shift

/-!
# Reading without an error

`After m s P` says of the run of a reader that if it ends without an error, `P` holds of its result
and of the state that it leaves. As the first error stays, no part of such a run met an error
either: this is the rule for one reader behind another, `After.bind`.

The tokens are those of a text in which no name is quoted (`Token.Bare`).
-/

namespace SqlKit

/-! ## Tokens without quotes -/

/-- What is known of a token of a text if it is no quoted name: a word is its own text, and a number
has no sign. -/
structure Token.Bare (t : Token) : Prop where
  keyword : ∀ w, t.kind = .keyword w → t.kind = wordKind t.text ∧ isWord t.text.toList = true
  identifier : ∀ n, t.kind = .identifier n → n.text = t.text ∧ t.kind = wordKind t.text ∧
    isWord t.text.toList = true
  integer : ∀ n, t.kind = .integer n → 0 ≤ n.toInt

namespace Grammar

open Parse

/-- A token that stands for a name is written as this name. -/
theorem isName_of_nameOf? {t : Token} {n : String} (h : t.Bare) (hName : nameOf? t = some n) :
    IsName n ∧ t.text = n ∧ t.kind = wordKind n := by
  unfold nameOf? at hName
  split at hName
  · next name hKind =>
    obtain ⟨hText, hWord, hChars⟩ := h.identifier name hKind
    obtain rfl := hText.symm.trans (Option.some.inj hName)
    refine ⟨⟨hChars, fun w hw => ?_⟩, rfl, hWord⟩
    exact nomatch (hKind.symm.trans hWord).trans hw
  · next word hKind =>
    obtain ⟨hWord, hChars⟩ := h.keyword word hKind
    split at hName
    · cases hName
    · next hFree =>
      obtain rfl := Option.some.inj hName
      refine ⟨⟨hChars, fun w hw => ?_⟩, rfl, hWord⟩
      obtain rfl := TokenKind.keyword.inj ((hKind.symm.trans hWord).trans hw)
      simpa using hFree
  · cases hName

theorem nameOf?_of_identifierOf? {t : Token} {m : String} (h : identifierOf? t = some m) :
    nameOf? t = some m := by
  unfold identifierOf? at h
  unfold nameOf?
  split at h
  · next hKind => rw [hKind]; exact h
  · cases h

/-! ## Runs without an error -/

/-- If the run of a reader ends without an error, something holds of where it ends. -/
def After {α : Type} (m : Parse α) (s : State) (P : α → State → Prop) : Prop :=
  (m.run s).2.error = none → P (m.run s).1 (m.run s).2

/-- There are so few tokens left that a reader may come back to itself `n` times with `k` to spare,
and none of them is a quoted name. -/
structure Room (n k : Nat) (s : State) : Prop where
  length : s.tokens.length + k ≤ n
  bare : ∀ t ∈ s.tokens, t.Bare
  terminator : s.terminator.kind = .symbol .semicolon ∨ s.terminator.kind = .endOfInput

variable {α β : Type} {s s' : State} {n k : Nat} {t : Token} {rest : List Token}
  {P : α → State → Prop} {Q : β → State → Prop}

theorem Room.moves (h : Room n k s) (hMoves : Moves s s') : Room n k s' := by
  have hLength := hMoves.length_le
  have hRoom := h.length
  exact ⟨by omega, fun t ht => h.bare t (hMoves.suffix.subset ht),
    hMoves.terminator_eq ▸ h.terminator⟩

theorem Room.take (h : Room n k s) (hTokens : s.tokens = t :: rest) :
    Room n (k + 1) (s.take t rest) := by
  have hRoom := h.length
  rw [hTokens, List.length_cons] at hRoom
  refine ⟨show rest.length + (k + 1) ≤ n by omega, fun u hu => h.bare u ?_, h.terminator⟩
  exact hTokens ▸ List.mem_cons_of_mem t hu

theorem Room.mono {k' : Nat} (h : Room n k s) (hk : k' ≤ k) : Room n k' s := by
  have hRoom := h.length
  exact ⟨by omega, h.bare, h.terminator⟩

theorem Room.bare_head (h : Room n k s) (hTokens : s.tokens = t :: rest) : t.Bare :=
  h.bare t (hTokens ▸ List.mem_cons_self)

/-- What is next belongs to the statement, unless it is an end of the statement. -/
theorem Room.exists_token (h : Room n k s) (hSemicolon : s.current.kind ≠ .symbol .semicolon)
    (hEnd : s.current.kind ≠ .endOfInput) : ∃ t rest, s.tokens = t :: rest ∧ s.current = t := by
  cases hTokens : s.tokens with
  | cons t rest => exact ⟨t, rest, rfl, State.current_cons hTokens⟩
  | nil =>
    rw [State.current_nil hTokens] at hSemicolon hEnd
    exact (h.terminator.elim hSemicolon hEnd).elim

/-- The next token is of another kind than one that was looked for. -/
theorem Room.current_ne {kind : TokenKind} (h : Room n k s)
    (hKind : ∀ t rest, s.tokens = t :: rest → t.kind ≠ kind)
    (hSemicolon : kind ≠ .symbol .semicolon)
    (hEnd : kind ≠ .endOfInput) : s.current.kind ≠ kind := by
  cases hTokens : s.tokens with
  | cons t rest => exact State.current_cons hTokens ▸ hKind t rest hTokens
  | nil =>
    rw [State.current_nil hTokens]
    exact h.terminator.elim (fun hKind => hKind ▸ hSemicolon.symm) fun hKind => hKind ▸ hEnd.symm

/-- No error is taken back. -/
theorem error_none_of_moves (h : Moves s s') (hError : s'.error = none) : s.error = none := by
  cases hs : s.error with
  | none => rfl
  | some e => exact nomatch (h.error_eq hs).symm.trans hError

namespace After

theorem pure {a : α} (h : P a s) : After (pure a) s P := fun _ => h

theorem bind {m : Parse α} {f : α → Parse β} (h : After m s P)
    (hf : ∀ a s', P a s' → Moves s s' → After (f a) s' Q) : After (m >>= f) s Q := by
  intro hError
  have hFirst := error_none_of_moves ((f (m.run s).1).moves (m.run s).2) hError
  exact hf _ _ (h hFirst) (m.moves s) hError

/-- What is read first does not matter. -/
theorem behind {m : Parse α} {f : α → Parse β} (hf : ∀ a s', Moves s s' → After (f a) s' Q) :
    After (m >>= f) s Q :=
  bind (P := fun _ _ => True) (fun _ => trivial) fun a s' _ => hf a s'

theorem map {m : Parse α} {f : α → β} (h : After m s fun a s' => Q (f a) s') :
    After (f <$> m) s Q := h

theorem of_eq {m m' : Parse α} (h : m = m') (hAfter : After m' s P) : After m s P := h ▸ hAfter

/-- What a result was made of. -/
theorem made {m : Parse α} {f : α → β} (h : After m s P) :
    After (f <$> m) s fun b s' => ∃ a, b = f a ∧ P a s' := fun hError => ⟨_, rfl, h hError⟩

theorem imp {m : Parse α} {P' : α → State → Prop} (h : After m s P)
    (hP : ∀ a s', P a s' → P' a s') : After m s P' := fun hError => hP _ _ (h hError)

/-- What is known of a reader, for a run of it. -/
theorem result {m : Parse α} {a : α} (h : After m s P) (hRun : m.run s = (a, s'))
    (hError : s'.error = none) : P a s' := by
  rw [After, hRun] at h
  exact h hError

/-- What is looked at is known. -/
theorem look {f : State → α} {g : α → Parse β} (h : After (g (f s)) s Q) :
    After (Parse.look f >>= g) s Q := h

theorem advance {f : Unit → Parse β} (hTokens : s.tokens = t :: rest)
    (h : After (f ()) (s.take t rest) Q) : After (Parse.advance >>= f) s Q := by
  intro hError
  simp only [run_bind, run_advance_cons hTokens] at hError ⊢
  exact h hError

/-! ### Taking -/

/-- Either the next token is taken, or none is. -/
theorem take {accept : Token → Option α} {f : Option α → Parse β}
    (hSome : ∀ t rest a, s.tokens = t :: rest → accept t = some a →
      After (f (some a)) (s.take t rest) Q)
    (hNone : (∀ t rest, s.tokens = t :: rest → accept t = none) → After (f none) s Q) :
    After (take? accept >>= f) s Q := by
  cases hTokens : s.tokens with
  | nil =>
    intro hError
    simp only [run_bind, run_take?_nil hTokens] at hError ⊢
    exact hNone (by simp [hTokens]) hError
  | cons t rest =>
    cases hAccept : accept t with
    | none =>
      intro hError
      simp only [run_bind, run_take?_none hTokens hAccept] at hError ⊢
      exact hNone (by simp [hTokens, hAccept]) hError
    | some a =>
      intro hError
      simp only [run_bind, run_take?_some hTokens hAccept] at hError ⊢
      exact hSome t rest a hTokens hAccept hError

/-- Either the token is there, or it is not next. -/
theorem eat {kind : TokenKind} {f : Bool → Parse β}
    (hTrue : ∀ t rest, s.tokens = t :: rest → t.kind = kind → After (f true) (s.take t rest) Q)
    (hFalse : (∀ t rest, s.tokens = t :: rest → t.kind ≠ kind) → After (f false) s Q) :
    After (eatKind kind >>= f) s Q := by
  rw [Reads.eatKind_bind]
  refine take (fun t rest a hTokens hAccept => ?_) fun hNone =>
    hFalse fun t rest hTokens hKind => ?_
  · by_cases hKind : t.kind = kind
    · exact hTrue t rest hTokens hKind
    · rw [if_neg hKind] at hAccept
      cases hAccept
  · have hAccept := hNone t rest hTokens
    rw [if_pos hKind] at hAccept
    cases hAccept

/-- A choice by a token that may be there. -/
theorem eatIte {kind : TokenKind} {m m' : Parse β}
    (hTrue : ∀ t rest, s.tokens = t :: rest → t.kind = kind → After m (s.take t rest) Q)
    (hFalse : (∀ t rest, s.tokens = t :: rest → t.kind ≠ kind) → After m' s Q) :
    After (eatKind kind >>= fun c => if c = true then m else m') s Q :=
  eat (f := fun c => if c = true then m else m') hTrue hFalse

/-- A chain whose first entry is there. -/
theorem chain {accept : Token → Option α} {item : α → Parse β} {a : α} {R : List β → State → Prop}
    (hTokens : s.tokens = t :: rest) (hAccept : accept t = some a)
    (h : After (item a >>= fun x => List.cons x <$> Parse.chain accept item) (s.take t rest) R) :
    After (Parse.chain accept item) s R := by
  intro hError
  simp only [Parse.chain, chainFrom_some hTokens hAccept] at hError ⊢
  exact h hError

/-! ### Asking -/

/-- An error is no run without one. -/
theorem fail {expected : Expected} {f : Unit → Parse β} :
    After (Parse.fail expected >>= f) s Q := by
  intro hError
  have hFail := error_none_of_moves ((f ()).moves _) hError
  have hNote :=
    (State.error_note s ⟨s.errorPosition, .unexpected expected s.current⟩).symm.trans hFail
  simp at hNote

theorem failUntyped {position : Position} {name : String} {f : Unit → Parse β} :
    After (Parse.failUntyped position name >>= f) s Q := by
  intro hError
  have hFail := error_none_of_moves ((f ()).moves _) hError
  have hNote := (State.error_note s ⟨position, .untypedParameter name⟩).symm.trans hFail
  simp at hNote

/-- What is asked for is there. -/
theorem ask {expected : Expected} {standIn : α} {accept : Token → Option α} {f : α → Parse β}
    (h : ∀ t rest a, s.tokens = t :: rest → accept t = some a → After (f a) (s.take t rest) Q) :
    After (Parse.ask expected standIn accept >>= f) s Q := by
  rw [Parse.ask, bind_assoc]
  refine take (fun t rest a hTokens hAccept => ?_) fun _ => ?_
  · simpa only [pure_bind] using h t rest a hTokens hAccept
  · simp only [bind_assoc]
    exact fail

theorem expect {symbol : Symbol} {f : Unit → Parse β}
    (h : ∀ t rest, s.tokens = t :: rest → t.kind = .symbol symbol →
    After (f ()) (s.take t rest) Q) :
    After (Parse.expect symbol >>= f) s Q := by
  simp only [Parse.expect, askKind, bind_assoc, pure_bind]
  refine ask fun t rest a hTokens hAccept => ?_
  by_cases hKind : t.kind = .symbol symbol
  · exact h t rest hTokens hKind
  · rw [if_neg hKind] at hAccept
    cases hAccept

theorem expectKeyword {word : Keyword} {f : Unit → Parse β}
    (h : ∀ t rest, s.tokens = t :: rest → t.kind = .keyword word → After (f ()) (s.take t rest) Q) :
    After (Parse.expectKeyword word >>= f) s Q := by
  simp only [Parse.expectKeyword, askKind, bind_assoc, pure_bind]
  refine ask fun t rest a hTokens hAccept => ?_
  by_cases hKind : t.kind = .keyword word
  · exact h t rest hTokens hKind
  · rw [if_neg hKind] at hAccept
    cases hAccept

/-- A name that is asked for is written as it is. -/
theorem name {role : NameRole} {f : String → Parse β} (hRoom : Room n k s)
    (h : ∀ t rest m, s.tokens = t :: rest → IsName m → t.kind = wordKind m →
      After (f m) (s.take t rest) Q) : After (Parse.name role >>= f) s Q := by
  refine ask fun t rest m hTokens hAccept => ?_
  obtain ⟨hName, -, hKind⟩ := isName_of_nameOf? (hRoom.bare_head hTokens) hAccept
  exact h t rest m hTokens hName hKind

end After

end Grammar

end SqlKit
