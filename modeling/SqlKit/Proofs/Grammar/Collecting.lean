import SqlKit.Proofs.Grammar.Occurrences
import SqlKit.Proofs.Grammar.Phrases

/-!
# Readers collect parameters

Without an error a reader brings home the parameters and placeholders that stand in what it reads.
An `Account` says what is known of the nodes that were read between two states, and which steps keep
it so: inert tokens, a parameter, a placeholder, and a limit with two expressions. Only one reader
takes the sign of a parameter and only one that of a placeholder; all others pass on what the
readers in them bring home. So the whole grammar keeps any account (`Collects`).

A tree need not hold its nodes in the order in which they were read: of a limit with a comma the
second number comes first. This is why an account has a rule for limits of its own.

`Collects A before ns m` is about a reader `m` in front of which the nodes `before` were read, and
whose result has the nodes `ns`. The nodes of all readers in a row are so gathered in the order of
the source, and compared with those of the result at its end.
-/

namespace SqlKit.Grammar

open Parse

/-! ## Accounts -/

/-- Tokens that are no signs of parameters or placeholders. -/
def Inert (t : Token) : Prop := t.kind ≠ .symbol .atSign ∧ t.kind ≠ .symbol .question

/-- From one state to another only inert tokens were taken. -/
structure Skipped (s s' : State) : Prop where
  tokens : ∃ skipped, s.tokens = skipped ++ s'.tokens ∧ ∀ t ∈ skipped, Inert t
  terminator : s'.terminator = s.terminator
  bindings : s'.bindings = s.bindings
  placeholders : s'.placeholders = s.placeholders

namespace Skipped

variable {s s' s'' : State}

theorem refl (s : State) : Skipped s s := ⟨⟨[], rfl, by simp⟩, rfl, rfl, rfl⟩

theorem trans (h : Skipped s s') (h' : Skipped s' s'') : Skipped s s'' := by
  obtain ⟨ts, hTokens, hInert⟩ := h.tokens
  obtain ⟨us, hTokens', hInert'⟩ := h'.tokens
  refine ⟨⟨ts ++ us, ?_, List.forall_mem_append.mpr ⟨hInert, hInert'⟩⟩,
    h'.terminator.trans h.terminator, h'.bindings.trans h.bindings,
    h'.placeholders.trans h.placeholders⟩
  rw [hTokens, hTokens', List.append_assoc]

theorem take {t : Token} {rest : List Token} (hTokens : s.tokens = t :: rest)
    (hInert : Inert t) : Skipped s (s.take t rest) :=
  ⟨⟨[t], hTokens, by simpa using hInert⟩, rfl, rfl, rfl⟩

end Skipped

/-- A placeholder was read: the question mark, the number that touches it, and nothing else. What
stands behind all tokens is never a question mark. -/
structure ReadsPlaceholder (s : State) (p : Placeholder) (s' : State) : Prop where
  tokens : s.terminator.kind ≠ .symbol .question → ∃ t rest, s.tokens = t :: rest ∧
    t.kind = .symbol .question ∧ p.number = numberBehind? t rest ∧
      ∃ skipped, rest = skipped ++ s'.tokens ∧ ∀ u ∈ skipped, Inert u
  position : p.position = s.placeholders + 1
  terminator : s'.terminator = s.terminator
  bindings : s'.bindings = s.bindings
  placeholders : s'.placeholders = s.placeholders + 1
  signs : ∃ skipped, s.tokens = skipped ++ s'.tokens ∧ ∀ u ∈ skipped, u.kind ≠ .symbol .atSign

/-- A parameter was read: its sign, its name, and the type behind them if there is one. -/
structure ReadsParameter (s : State) (p : NamedParameter) (s' : State) : Prop where
  read : ∃ t u rest name, s.tokens = t :: u :: rest ∧ t.kind = .symbol .atSign ∧
    nameOf? u = some name ∧
    Occurrence.Gives ⟨name, typeBehind? rest, t.span.first⟩ s.bindings p ∧
    s'.bindings = Occurrence.declare s.bindings ⟨name, typeBehind? rest, t.span.first⟩ ∧
    ∃ skipped, rest = skipped ++ s'.tokens ∧ ∀ v ∈ skipped, Inert v
  complete : ∀ a, attemptAt? s.tokens = some a → a.Complete
  terminator : s'.terminator = s.terminator
  placeholders : s'.placeholders = s.placeholders

/-- From one state to another `LIMIT`, a number and a comma were taken. -/
def CommaLimit (s s' : State) : Prop :=
  ∃ t ts u, s.tokens = t :: (ts ++ u :: s'.tokens) ∧ t.kind = .keyword .LIMIT ∧ Phrase 0 true ts ∧
    u.kind = .symbol .comma

/-- The nodes that accounts have entries for. -/
def isNoted : Node → Bool
  | .term (.parameter _) | .term (.placeholder _) | .limit (.window _ _) => true
  | _ => false

/-- The entries among some nodes. -/
def noted (ns : List Node) : List Node := ns.filter isNoted

@[simp] theorem noted_nil : noted [] = [] := rfl

@[simp] theorem noted_append (ns ms : List Node) : noted (ns ++ ms) = noted ns ++ noted ms :=
  List.filter_append ..

@[simp] theorem noted_cons (n : Node) (ns : List Node) :
    noted (n :: ns) = (if isNoted n = true then [n] else []) ++ noted ns := by
  unfold noted
  rw [List.filter_cons]
  split <;> rfl

/-- What is known of the nodes that were read between two states. -/
structure Account where
  Explains : State → List Node → State → Prop
  skip {s s' : State} : Skipped s s' → Explains s [] s'
  trans {s s' s'' : State} {ns ms : List Node} :
    Explains s ns s' → Explains s' ms s'' → Explains s (ns ++ ms) s''
  congr {s s' : State} {ns ms : List Node} : noted ms = noted ns → Explains s ns s' →
    Explains s ms s'
  placeholder {s s' : State} {p : Placeholder} : ReadsPlaceholder s p s' →
    Explains s [.term (.placeholder p)] s'
  parameter {s s' : State} {p : NamedParameter} : ReadsParameter s p s' →
    Explains s [.term (.parameter p)] s'
  /-- A limit whose number of rows was read before the number of rows to leave out. -/
  window {s s' s'' : State} {count offset : Expr} :
    Explains s count.nodes s' → Explains s' offset.nodes s'' →
    Explains s (Limit.nodes (.window count offset)) s''
  /-- A limit whose numbers were read in the other order. -/
  comma {s s' s'' : State} {count offset : Expr} : CommaLimit s s' →
    Explains s offset.nodes s' → Explains s' count.nodes s'' →
    Explains s (Limit.nodes (.window count offset)) s''

theorem Account.refl (A : Account) (s : State) : A.Explains s [] s := A.skip (.refl s)

/-! ## Readers that keep an account -/

/-- Without an error the reader keeps the account, from this state on. -/
def CollectsAt {α : Type} (A : Account) (before : List Node) (ns : α → List Node) (m : Parse α)
    (s : State) : Prop :=
  ∀ s₀, A.Explains s₀ before s → After m s fun x s' => A.Explains s₀ (ns x) s'

/-- Without an error the reader keeps the account. -/
def Collects {α : Type} (A : Account) (before : List Node) (ns : α → List Node)
    (m : Parse α) : Prop :=
  ∀ s, CollectsAt A before ns m s

/-- A reader that meets no parameter. -/
def Quiet {α : Type} (A : Account) (m : Parse α) : Prop := Collects A [] (fun _ => []) m

/-- Tokens that are accepted are no signs of parameters or placeholders. -/
def NoSign {α : Type} (accept : Token → Option α) : Prop :=
  ∀ t a, accept t = some a → Inert t

theorem noSign_kind {α : Type} {kind : TokenKind} {a : α}
    (h : kind ≠ .symbol .atSign ∧ kind ≠ .symbol .question) :
    NoSign fun t => if t.kind = kind then some a else none := by
  intro t b hAccept
  by_cases hKind : t.kind = kind
  · rw [Inert, hKind]
    exact h
  · simp [hKind] at hAccept

variable {α β γ ε : Type} {A : Account} {before : List Node} {ms : α → List Node}
  {ns : β → List Node} {s : State}

namespace CollectsAt

theorem bind {m : Parse α} {f : α → Parse β} (h : CollectsAt A [] ms m s)
    (hf : ∀ a, Collects A (before ++ ms a) ns (f a)) : CollectsAt A before ns (m >>= f) s := by
  intro s₀ hBefore
  exact After.bind (h s (A.refl s)) fun a s' hFirst _ => hf a s' s₀ (A.trans hBefore hFirst)

/-- Behind tokens that were skipped. -/
theorem of_skipped {m : Parse β} {s' : State} (h : Skipped s s') (hm : CollectsAt A before ns m s')
    {s₀ : State} (hBefore : A.Explains s₀ before s) :
    After m s' fun x s'' => A.Explains s₀ (ns x) s'' := by
  have hTrans := A.trans hBefore (A.skip h)
  rw [List.append_nil] at hTrans
  exact hm s₀ hTrans

/-- The next token is known to be inert, and is taken. -/
theorem advance {f : Unit → Parse β} (hKind : Inert s.current)
    (h : Collects A before ns (f ())) : CollectsAt A before ns (Parse.advance >>= f) s := by
  intro s₀ hBefore
  cases hTokens : s.tokens with
  | nil =>
    have hRun : (Parse.advance >>= f).run s = (f ()).run s := by
      rw [Parse.advance, bind_assoc, run_bind, run_take?_nil hTokens]
      rfl
    intro hError
    rw [hRun] at hError ⊢
    exact h s s₀ hBefore hError
  | cons t rest =>
    rw [State.current_cons hTokens] at hKind
    exact After.advance hTokens (of_skipped (.take hTokens hKind) (h _) hBefore)

end CollectsAt

namespace Collects

theorem pure {b : β} (h : noted (ns b) = noted before) : Collects A before ns (pure b) :=
  fun _ _ hBefore _ => A.congr h hBefore

theorem bind {m : Parse α} {f : α → Parse β} (h : Collects A [] ms m)
    (hf : ∀ a, Collects A (before ++ ms a) ns (f a)) : Collects A before ns (m >>= f) :=
  fun s => (h s).bind hf

/-- Behind a reader that meets no parameter. -/
theorem behind {m : Parse α} {f : α → Parse β} (h : Quiet A m)
    (hf : ∀ a, Collects A before ns (f a)) : Collects A before ns (m >>= f) := by
  refine bind h fun a => ?_
  rw [List.append_nil]
  exact hf a

/-- The result of the last reader is made into another one. -/
theorem map {m : Parse α} {f : α → β} (h : Collects A [] ms m)
    (hf : ∀ a, noted (ns (f a)) = noted (before ++ ms a)) : Collects A before ns (f <$> m) := by
  rw [map_eq_pure_bind]
  exact h.bind fun a => pure (hf a)

/-- A choice by something that meets no parameter. -/
theorem choose {c : Parse Bool} {m m' : Parse β} (hc : Quiet A c) (hThen : Collects A before ns m)
    (hElse : Collects A before ns m') :
    Collects A before ns (c >>= fun b => if b = true then m else m') := by
  refine behind hc fun b => ?_
  cases b with
  | true => exact hThen
  | false => exact hElse

theorem look {f : State → α} {g : α → Parse β} (h : ∀ s, CollectsAt A before ns (g (f s)) s) :
    Collects A before ns (Parse.look f >>= g) := h

theorem fail {expected : Expected} {f : Unit → Parse β} :
    Collects A before ns (Parse.fail expected >>= f) := fun _ _ _ => After.fail

/-- What is read behind an accepted token, and what is read in place of it. -/
theorem take? {accept : Token → Option α} {f : Option α → Parse β} (hAccept : NoSign accept)
    (hSome : ∀ a, Collects A before ns (f (some a))) (hNone : Collects A before ns (f none)) :
    Collects A before ns (Parse.take? accept >>= f) := by
  intro s s₀ hBefore
  refine After.take (fun t rest a hTokens hToken => ?_) fun _ => hNone s s₀ hBefore
  exact CollectsAt.of_skipped (.take hTokens (hAccept t a hToken)) (hSome a _) hBefore

end Collects

/-! ## Readers that meet no parameter -/

section Quiet

theorem Quiet.pure (a : α) : Quiet A (pure a) := Collects.pure rfl

theorem Quiet.look (f : State → α) : Quiet A (Parse.look f) := fun _ _ hBefore _ => hBefore

theorem Quiet.take? {accept : Token → Option α} (h : NoSign accept) :
    Quiet A (Parse.take? accept) := by
  have hQuiet : Quiet A (Parse.take? accept >>= Pure.pure) :=
    Collects.take? h (fun a => Quiet.pure (some a)) (Quiet.pure none)
  rwa [bind_pure] at hQuiet

theorem Quiet.eatKind {kind : TokenKind}
    (h : kind ≠ .symbol .atSign ∧ kind ≠ .symbol .question) : Quiet A (Parse.eatKind kind) :=
  Collects.behind (Quiet.take? (noSign_kind h)) fun _ => Quiet.pure _

theorem quiet_eat {symbol : Symbol} (h : symbol ≠ .atSign ∧ symbol ≠ .question) :
    Quiet A (Parse.eat symbol) :=
  Quiet.eatKind (by simpa using h)

theorem quiet_eatKeyword (word : Keyword) : Quiet A (Parse.eatKeyword word) :=
  Quiet.eatKind (by simp)

theorem Quiet.ask {expected : Expected} {standIn : α} {accept : Token → Option α}
    (h : NoSign accept) : Quiet A (Parse.ask expected standIn accept) :=
  Collects.take? h Quiet.pure Collects.fail

theorem Quiet.askKind {expected : Expected} {kind : TokenKind}
    (h : kind ≠ .symbol .atSign ∧ kind ≠ .symbol .question) :
    Quiet A (Parse.askKind expected kind) := Quiet.ask (noSign_kind h)

theorem quiet_expect {symbol : Symbol} (h : symbol ≠ .atSign ∧ symbol ≠ .question) :
    Quiet A (Parse.expect symbol) :=
  Collects.behind (Quiet.askKind (by simpa using h)) fun _ => Quiet.pure _

theorem quiet_expectKeyword (word : Keyword) : Quiet A (Parse.expectKeyword word) :=
  Collects.behind (Quiet.askKind (by simp)) fun _ => Quiet.pure _

end Quiet

/-! ## Repeating -/

/-- What is put together from the left has the nodes of its parts. -/
theorem nodes_foldl {make : α → ε → α} {N : α → List Node} {M : ε → List Node}
    (h : ∀ a x, N (make a x) = N a ++ M x) (a : α) (xs : List ε) :
    N (xs.foldl make a) = N a ++ xs.flatMap M := by
  induction xs generalizing a with
  | nil => exact (List.append_nil _).symm
  | cons x xs ih => rw [List.foldl_cons, ih, h, List.flatMap_cons, List.append_assoc]

namespace Collects

theorem chain {accept : Token → Option α} {item : α → Parse β} (hAccept : NoSign accept)
    (h : ∀ a, Collects A [] ns (item a)) :
    Collects A [] (List.flatMap ns) (Parse.chain accept item) := by
  intro s s₀ hBefore hError
  simp only [Parse.chain] at hError ⊢
  have hChain :
    A.Explains s ((chainFrom accept item s).1.flatMap ns) (chainFrom accept item s).2 := by
    clear hBefore
    fun_induction chainFrom accept item s with
    | case1 s => exact A.refl s
    | case2 s => exact A.refl s
    | case3 s t rest hTokens a hToken after more ih =>
      have hAfter : after.2.error = none := error_none_of_moves (moves_chainFrom _ _ _) hError
      have hItem :=
        CollectsAt.of_skipped (.take hTokens (hAccept t a hToken)) (h a _) (A.refl s) hAfter
      exact A.trans hItem (ih hError)
  exact A.trans hBefore hChain

theorem chainOf {symbol : Symbol} {item : Parse β} (hSymbol : symbol ≠ .atSign ∧ symbol ≠ .question)
    (h : Collects A [] ns item) : Collects A [] (List.flatMap ns) (Parse.chainOf symbol item) :=
  chain (noSign_kind (by simpa using hSymbol)) fun _ => h

theorem separated {item : Parse β} (h : Collects A [] ns item) :
    Collects A [] (List.flatMap ns) (Parse.separated item) :=
  h.bind fun _ => (chainOf (by decide) h).bind fun _ => pure rfl

/-- Entries one behind the other, put together from the left. -/
theorem layer {first : Parse γ} {accept : Token → Option β} {item : β → Parse ε} {start : γ → α}
    {make : α → ε → α} {K : γ → List Node} {M : ε → List Node} (hAccept : NoSign accept)
    (hFirst : Collects A [] K first) (hItem : ∀ b, Collects A [] M (item b))
    (hStart : ∀ x, ms (start x) = K x) (hMake : ∀ a x, ms (make a x) = ms a ++ M x) :
    Collects A [] ms (do
      let x ← first
      let rest ← Parse.chain accept item
      return rest.foldl make (start x)) := by
  refine hFirst.bind fun x => (chain hAccept hItem).bind fun rest => pure ?_
  rw [nodes_foldl hMake, hStart, List.nil_append]

/-! ## Parts of statements -/

theorem after {word : Keyword} {item : Parse β} (h : Collects A [] ns item) :
    Collects A [] (nodesOption ns) (Parse.after word item) :=
  choose (quiet_eatKeyword word) (h.bind fun _ => pure rfl) (pure rfl)

theorem spanned {item : Parse (Span → β)} (h : ∀ span, Collects A [] (fun f => ns (f span)) item) :
    Collects A [] ns (Parse.spanned item) := fun s s₀ hBefore hError => h _ s s₀ hBefore hError

end Collects

namespace Quiet

/-- One reader behind another. -/
theorem behind {m : Parse α} {f : α → Parse β} (h : Quiet A m) (hf : ∀ a, Quiet A (f a)) :
    Quiet A (m >>= f) := Collects.behind h hf

theorem choose {c : Parse Bool} {m m' : Parse β} (hc : Quiet A c) (hThen : Quiet A m)
    (hElse : Quiet A m') : Quiet A (c >>= fun b => if b = true then m else m') :=
  Collects.choose hc hThen hElse

theorem map {m : Parse α} (f : α → β) (h : Quiet A m) : Quiet A (f <$> m) :=
  Collects.map h fun _ => rfl

theorem chain {accept : Token → Option α} {item : α → Parse β} (hAccept : NoSign accept)
    (h : ∀ a, Quiet A (item a)) : Quiet A (Parse.chain accept item) := by
  have hChain := Collects.chain hAccept h
  have hNil : (List.flatMap fun _ : β => ([] : List Node)) = fun _ => [] := by
    funext xs
    exact List.flatMap_eq_nil_iff.mpr fun _ _ => rfl
  rwa [hNil] at hChain

theorem chainOf {symbol : Symbol} {item : Parse β} (hSymbol : symbol ≠ .atSign ∧ symbol ≠ .question)
    (h : Quiet A item) : Quiet A (Parse.chainOf symbol item) :=
  chain (noSign_kind (by simpa using hSymbol)) fun _ => h

theorem separated {item : Parse β} (h : Quiet A item) : Quiet A (Parse.separated item) :=
  behind h fun _ => behind (chainOf (by decide) h) fun _ => pure _

theorem after {word : Keyword} {item : Parse β} (h : Quiet A item) :
    Quiet A (Parse.after word item) :=
  choose (quiet_eatKeyword word) (behind h fun _ => pure _) (pure _)

end Quiet

end SqlKit.Grammar
