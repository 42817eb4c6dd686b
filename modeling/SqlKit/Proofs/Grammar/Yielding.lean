import SqlKit.Proofs.Rendering.After

/-!
# What readers yield

`Yields T m P` says that a reader of tokens that are all in `T` comes to a result in `P` whenever it
ends without an error, wherever it starts and whatever it leaves. What a result is like is so told
reader by reader, without a word about states. The rules of this file are those of the building
blocks of readers.
-/

namespace SqlKit.Grammar

open Parse

/-- Without an error the result of a reader of such tokens is in `P`. -/
def Yields {α : Type} (T : Token → Prop) (m : Parse α) (P : α → Prop) : Prop :=
  ∀ s : State, (∀ t ∈ s.tokens, T t) → After m s fun x _ => P x

namespace Yields

variable {α β γ ε : Type} {T : Token → Prop} {P P' : α → Prop} {Q : β → Prop}

theorem imp {m : Parse α} (h : Yields T m P) (hP : ∀ a, P a → P' a) : Yields T m P' :=
  fun s hs => (h s hs).imp fun a _ => hP a

/-- Nothing is said of a result. -/
theorem any (m : Parse α) : Yields T m fun _ => True := fun _ _ _ => trivial

theorem pure {a : α} (h : P a) : Yields T (pure a) P := fun _ _ _ => h

theorem bind {m : Parse α} {f : α → Parse β} (h : Yields T m P)
    (hf : ∀ a, P a → Yields T (f a) Q) : Yields T (m >>= f) Q :=
  fun s hs => (h s hs).bind fun a s' ha hMoves =>
    hf a ha s' fun t ht => hs t (hMoves.suffix.subset ht)

/-- Behind a reader whose result does not count. -/
theorem behind {m : Parse α} {f : α → Parse β} (hf : ∀ a, Yields T (f a) Q) :
    Yields T (m >>= f) Q := (any m).bind fun a _ => hf a

/-- The result of the last reader is made into another one. -/
theorem map {m : Parse α} {f : α → β} (h : Yields T m fun a => Q (f a)) : Yields T (f <$> m) Q :=
  h

theorem choose {c : Parse Bool} {m m' : Parse β} (hThen : Yields T m Q) (hElse : Yields T m' Q) :
    Yields T (c >>= fun b => if b = true then m else m') Q :=
  behind fun b => by
    cases b with
    | true => exact hThen
    | false => exact hElse

theorem fail {expected : Expected} {f : Unit → Parse β} : Yields T (Parse.fail expected >>= f) Q :=
  fun _ _ => After.fail

theorem failUntyped {position : Position} {name : String} {f : Unit → Parse β} :
    Yields T (Parse.failUntyped position name >>= f) Q := fun _ _ => After.failUntyped

/-! ### Taking -/

theorem take? {accept : Token → Option α} (h : ∀ t a, T t → accept t = some a → P a) :
    Yields T (Parse.take? accept) fun o => ∀ a ∈ o, P a := by
  intro s hs
  have hTake : After (Parse.take? accept >>= Pure.pure) s fun o _ => ∀ a ∈ o, P a := by
    refine After.take (fun t rest a hTokens hAccept => .pure ?_) fun _ => .pure (by simp)
    rintro _ ⟨rfl⟩
    exact h t a (hs t (hTokens ▸ List.mem_cons_self)) hAccept
  rwa [bind_pure] at hTake

theorem ask {expected : Expected} {standIn : α} {accept : Token → Option α}
    (h : ∀ t a, T t → accept t = some a → P a) :
    Yields T (Parse.ask expected standIn accept) P := by
  refine (take? h).bind fun o ho => ?_
  cases o with
  | some a => exact .pure (ho a rfl)
  | none => exact fail

/-! ### Repeating -/

theorem chain {accept : Token → Option α} {item : α → Parse β}
    (h : ∀ t a, T t → accept t = some a → Yields T (item a) Q) :
    Yields T (Parse.chain accept item) fun xs => ∀ x ∈ xs, Q x := by
  intro s hs hError
  simp only [Parse.chain] at hError ⊢
  fun_induction chainFrom accept item s with
  | case1 s => simp
  | case2 s => simp
  | case3 s t rest hTokens a hAccept after more ih =>
    have hMoves : Moves s after.2 :=
      (Move.take hTokens).moves.trans ((item a).moves (s.take t rest))
    have hHead : T t := hs t (hTokens ▸ List.mem_cons_self)
    have hTaken : ∀ u ∈ (s.take t rest).tokens, T u :=
      fun u hu => hs u (hTokens ▸ List.mem_cons_of_mem t hu)
    refine List.forall_mem_cons.mpr ⟨h t a hHead hAccept _ hTaken ?_, ?_⟩
    · exact error_none_of_moves (moves_chainFrom _ _ _) hError
    · exact ih (fun u hu => hs u (hMoves.suffix.subset hu)) hError

theorem chainOf {symbol : Symbol} {item : Parse β} (h : Yields T item Q) :
    Yields T (Parse.chainOf symbol item) fun xs => ∀ x ∈ xs, Q x := chain fun _ _ _ _ => h

theorem separated {item : Parse β} (h : Yields T item Q) :
    Yields T (Parse.separated item) fun xs => xs ≠ [] ∧ ∀ x ∈ xs, Q x :=
  h.bind fun _ hFirst => (chainOf h).bind fun _ hRest =>
    .pure ⟨List.cons_ne_nil _ _, List.forall_mem_cons.mpr ⟨hFirst, hRest⟩⟩

/-- Entries one behind the other, put together from the left. -/
theorem layer {first : Parse γ} {accept : Token → Option β} {item : β → Parse ε} {start : γ → α}
    {make : α → ε → α} {K : γ → Prop} {M : ε → Prop} (hFirst : Yields T first K)
    (hItem : ∀ t b, T t → accept t = some b → Yields T (item b) M) (hStart : ∀ x, K x → P (start x))
    (hMake : ∀ a x, P a → M x → P (make a x)) :
    Yields T (do
      let x ← first
      let rest ← Parse.chain accept item
      return rest.foldl make (start x)) P := by
  refine hFirst.bind fun x hx => (chain hItem).bind fun rest hRest => .pure ?_
  exact List.foldlRecOn rest make (hStart x hx) fun a ha y hy => hMake a y ha (hRest y hy)

/-! ### Parts of statements -/

theorem after {word : Keyword} {item : Parse β} (h : Yields T item Q) :
    Yields T (Parse.after word item) fun o => ∀ x ∈ o, Q x :=
  choose (h.bind fun _ hx => .pure (by rintro _ ⟨rfl⟩; exact hx)) (.pure (by simp))

theorem spanned {item : Parse (Span → β)} (h : Yields T item fun f => ∀ span, Q (f span)) :
    Yields T (Parse.spanned item) Q :=
  behind fun _ => h.bind fun _ hf => behind fun span => .pure (hf span)

end Yields

end SqlKit.Grammar
