import SqlKit.Proofs.Grammar.Yielding
import SqlKit.Proofs.Syntax.Fragments
import Mathlib.Data.List.Infix

/-!
# Where fragments stand

A fragment with a span lies among some tokens (`Lies`) if its span is that of some of them in a row,
and if the spans of all fragments inside of it are those of tokens in that row.

`Locates before frs m` is about a reader `m` in front of which the fragments `before` were read, and
whose result has the fragments `frs`: they all lie among the tokens that were taken. What is read in
between and has no fragments needs no lemma, since readers only go forward (`Locates.behind`). The
span of a reader's own result is that of the tokens it takes (`Spans`), as soon as it takes any
(`Consumes`).
-/

namespace SqlKit

open Grammar

/-! ## Spans of fragments -/

/-- The span that a term keeps, if it keeps one. -/
def Term.span? : Term → Option Span
  | .parameter p => some p.span
  | .path _ | .literal _ | .placeholder _ | .paren _ | .subquery _ | .case _ _ _ | .cast _ _
  | .call _ _ _ | .callStar _ | .signed _ _ => none

/-- The span that a fragment keeps, if it keeps one. -/
def Fragment.span? : Fragment → Option Span
  | .term t => t.span?
  | .select q => some q.span
  | .columnDefinition d => some d.span
  | .constraint c => some c.span
  | .statement x => some x.span
  | .expr _ | .conjunction _ | .condition _ | .operand _ | .sum _ | .product _ | .type _ | .body _
  | .joinOperator _ | .joinConstraint _ => none

/-- A fragment and all fragments inside of it. -/
def Fragment.fragments : Fragment → List Fragment
  | .expr e => e.fragments
  | .conjunction c => c.fragments
  | .condition c => c.fragments
  | .operand o => o.fragments
  | .sum s => s.fragments
  | .product p => p.fragments
  | .term t => t.fragments
  | .type t => [.type t]
  | .select q => q.fragments
  | .body b => b.fragments
  | .joinOperator o => [.joinOperator o]
  | .joinConstraint c => c.fragments
  | .columnDefinition d => d.fragments
  | .constraint c => c.fragments
  | .statement x => x.fragments

/-- The span reaches from the start of the first of these tokens to the end of the last one. -/
def Span.Covers (span : Span) (ts : List Token) : Prop :=
  ∃ t ∈ ts.head?, ∃ u ∈ ts.getLast?, span.first = t.span.first ∧ span.last = u.span.last

/-- The span of a fragment is that of some of these tokens in a row, and the spans of the fragments
inside of it are those of tokens in that row. -/
def Lies (ts : List Token) (f : Fragment) : Prop :=
  ∀ span ∈ f.span?, ∃ run, run <:+: ts ∧ span.Covers run ∧
    ∀ g ∈ f.fragments, ∀ inner ∈ g.span?, ∃ part, part <:+: run ∧ inner.Covers part

/-- All of some fragments lie among these tokens. -/
def AllLie (ts : List Token) (fs : List Fragment) : Prop := ∀ f ∈ fs, Lies ts f

variable {ts us : List Token} {f : Fragment} {fs gs : List Fragment}

theorem Lies.mono (h : Lies ts f) (hMore : ts <:+: us) : Lies us f := fun span hSpan => by
  obtain ⟨run, hRun, hRest⟩ := h span hSpan
  exact ⟨run, hRun.trans hMore, hRest⟩

namespace AllLie

theorem mono (h : AllLie ts fs) (hMore : ts <:+: us) : AllLie us fs :=
  fun f hf => (h f hf).mono hMore

@[simp] theorem nil : AllLie ts [] := by simp [AllLie]

@[simp] theorem cons : AllLie ts (f :: fs) ↔ Lies ts f ∧ AllLie ts fs := List.forall_mem_cons

@[simp] theorem append : AllLie ts (fs ++ gs) ↔ AllLie ts fs ∧ AllLie ts gs :=
  List.forall_mem_append

@[simp] theorem flatMap {α : Type} {xs : List α} {f : α → List Fragment} :
    AllLie ts (xs.flatMap f) ↔ ∀ x ∈ xs, AllLie ts (f x) := List.forall_mem_flatMap

@[simp] theorem option {α : Type} {x : Option α} {f : α → List Fragment} :
    AllLie ts (fragmentsOption f x) ↔ ∀ a ∈ x, AllLie ts (f a) := by
  cases x <;> simp [fragmentsOption]

end AllLie

/-- A fragment whose span is that of all of these tokens lies among them if those inside of it
do. -/
theorem Lies.of_covers {span : Span} (hSpan : f.span? = some span) (hCovers : span.Covers ts)
    (hAll : f.fragments = f :: fs) (h : AllLie ts fs) : Lies ts f := by
  intro span' hSpan'
  obtain rfl := Option.some.inj (hSpan.symm.trans hSpan')
  refine ⟨ts, List.infix_rfl, hCovers, fun g hg inner hInner => ?_⟩
  rw [hAll] at hg
  rcases List.mem_cons.mp hg with rfl | hg
  · obtain rfl := Option.some.inj (hSpan.symm.trans hInner)
    exact ⟨ts, List.infix_rfl, hCovers⟩
  · obtain ⟨part, hPart, hCovered, -⟩ := h g hg inner hInner
    exact ⟨part, hPart, hCovered⟩

/-! ## Tokens in order -/

/-- Tokens one behind the other, none of them empty. -/
structure Aligned (ts : List Token) : Prop where
  nonempty : ∀ t ∈ ts, t.span.first.offset < t.span.last.offset
  pairwise : ts.Pairwise fun t u => t.span.last.offset ≤ u.span.first.offset

namespace Aligned

theorem sublist (h : Aligned us) (hSub : ts.Sublist us) : Aligned ts :=
  ⟨fun t ht => h.nonempty t (hSub.subset ht), h.pairwise.sublist hSub⟩

theorem first_le (h : Aligned ts) {t u : Token} (ht : t ∈ ts.head?) (hu : u ∈ ts) :
    t.span.first.offset ≤ u.span.first.offset := by
  obtain ⟨rest, rfl⟩ := List.head?_eq_some_iff.mp ht
  rcases List.mem_cons.mp hu with rfl | hu
  · exact Nat.le_refl _
  · have hBehind := List.rel_of_pairwise_cons h.pairwise hu
    have hSelf := h.nonempty t List.mem_cons_self
    omega

theorem le_last (h : Aligned ts) {t u : Token} (ht : t ∈ ts) (hu : u ∈ ts.getLast?) :
    t.span.last.offset ≤ u.span.last.offset := by
  obtain ⟨init, rfl⟩ := List.getLast?_eq_some_iff.mp hu
  rcases List.mem_append.mp ht with ht | ht
  · have hBehind := (List.pairwise_append.mp h.pairwise).2.2 t ht u (List.mem_singleton_self u)
    have hSelf := h.nonempty u (List.mem_append_right _ (List.mem_singleton_self u))
    omega
  · rw [List.mem_singleton.mp ht]

/-- A span of tokens is not empty. -/
theorem nonempty_of_covers (h : Aligned ts) {span : Span} (hCovers : span.Covers ts) :
    span.first.offset < span.last.offset := by
  obtain ⟨t, ht, u, hu, hFirst, hLast⟩ := hCovers
  have hBetween := h.le_last (List.mem_of_mem_head? ht) hu
  have hSelf := h.nonempty t (List.mem_of_mem_head? ht)
  rw [hFirst, hLast]
  omega

end Aligned

/-- One span contains another one. -/
structure Span.Contains (outer inner : Span) : Prop where
  first : outer.first.offset ≤ inner.first.offset
  last : inner.last.offset ≤ outer.last.offset

/-- The span of tokens contains that of some of them. -/
theorem Aligned.contains_of_infix (h : Aligned us) (hSub : ts <:+: us) {outer inner : Span}
    (hOuter : outer.Covers us) (hInner : inner.Covers ts) : outer.Contains inner := by
  obtain ⟨t, ht, u, hu, hFirst, hLast⟩ := hOuter
  obtain ⟨t', ht', u', hu', hFirst', hLast'⟩ := hInner
  refine ⟨?_, ?_⟩
  · rw [hFirst, hFirst']
    exact h.first_le ht (hSub.subset (List.mem_of_mem_head? ht'))
  · rw [hLast, hLast']
    exact h.le_last (hSub.subset (List.mem_of_mem_getLast? hu')) hu

namespace Grammar

open Parse

/-! ## Tokens that are taken -/

/-- From one state to another these tokens were taken. -/
structure Between (s s' : State) (ts : List Token) : Prop where
  tokens : s.tokens = ts ++ s'.tokens
  previous : s'.previous = (ts.getLast?.map Token.span).getD s.previous

theorem Moves.exists_between {s s' : State} (h : Moves s s') : ∃ ts, Between s s' ts :=
  let ⟨ts, hTokens, hPrevious⟩ := h.exists_taken
  ⟨ts, hTokens, hPrevious⟩

/-- The span from a state on to a later one is that of the tokens that were taken in between. -/
theorem exists_covers {s s' : State} (hAligned : Aligned s.tokens) (hMoves : Moves s s')
    (hFewer : s'.tokens.length < s.tokens.length) :
    ∃ ts, s.tokens = ts ++ s'.tokens ∧ ((spanFrom s.current.span).run s').1.Covers ts := by
  obtain ⟨ts, hTokens, hPrevious⟩ := hMoves.exists_between
  refine ⟨ts, hTokens, ?_⟩
  cases ts with
  | nil => exact absurd hFewer (by simp [hTokens])
  | cons t rest =>
    obtain ⟨u, hu⟩ : ∃ u, u ∈ (t :: rest).getLast? := ⟨_, List.getLast?_eq_some_getLast (by simp)⟩
    have hTaken : Aligned (t :: rest) := hAligned.sublist (hTokens ▸ List.sublist_append_left _ _)
    have hFirst := hTaken.first_le (Option.mem_some_self t) (List.mem_of_mem_getLast? hu)
    have hLast := hTaken.le_last List.mem_cons_self hu
    refine ⟨t, Option.mem_some_self t, u, hu, ?_⟩
    rw [Option.mem_def.mp hu, Option.map_some, Option.getD_some] at hPrevious
    rw [spanFrom, run_look, State.current_cons hTokens, hPrevious, if_neg (Nat.not_lt.mpr hFirst),
      Span.merge, if_pos hFirst, if_neg (Nat.not_lt.mpr hLast)]
    exact ⟨rfl, rfl⟩

variable {α β γ ε : Type} {before : List Fragment} {ms : α → List Fragment}
    {frs : β → List Fragment}

/-! ## Readers that take tokens -/

/-- Without an error the reader takes a token. -/
def Consumes {α : Type} (m : Parse α) : Prop :=
  ∀ s, After m s fun _ s' => s'.tokens.length < s.tokens.length

namespace Consumes

theorem bind {m : Parse α} {f : α → Parse β} (h : Consumes m) : Consumes (m >>= f) := fun s =>
  (h s).bind fun a s' hFewer _ _ => ((f a).length_run_le s').trans_lt hFewer

theorem behind {m : Parse α} {f : α → Parse β} (hf : ∀ a, Consumes (f a)) : Consumes (m >>= f) :=
  fun _ => After.behind fun a s' hMoves =>
    (hf a s').imp fun _ _ hFewer => hFewer.trans_le hMoves.length_le

theorem fail {expected : Expected} {f : Unit → Parse β} :
    Consumes (Parse.fail expected >>= f) := fun _ => After.fail

/-- Behind a token that was taken, or in place of it. -/
theorem take? {accept : Token → Option α} {f : Option α → Parse β} (h : Consumes (f none)) :
    Consumes (Parse.take? accept >>= f) := by
  intro s
  refine After.take (fun t rest a hTokens _ _ => ?_) fun _ => h s
  rw [hTokens, List.length_cons]
  exact Nat.lt_succ_of_le ((f (some a)).length_run_le (s.take t rest))

theorem ask {expected : Expected} {standIn : α} {accept : Token → Option α} :
    Consumes (Parse.ask expected standIn accept) := take? fail

theorem expectKeyword {word : Keyword} : Consumes (Parse.expectKeyword word) := bind ask

theorem choose {kind : TokenKind} {m m' : Parse β} (h : Consumes m') :
    Consumes (eatKind kind >>= fun b => if b = true then m else m') := by
  simp only [eatKind, bind_assoc]
  exact take? h

theorem spanned {item : Parse (Span → α)} (h : Consumes item) : Consumes (Parse.spanned item) :=
  behind fun _ => bind h

end Consumes

/-! ## Readers whose results have spans -/

/-- Without an error the span of the result is that of the tokens that the reader takes. -/
def Spans {α : Type} (spanOf : α → Span) (m : Parse α) : Prop :=
  ∀ s, Aligned s.tokens → After m s fun x s' =>
    ∃ ts, s.tokens = ts ++ s'.tokens ∧ (spanOf x).Covers ts

/-- A reader that takes a token, and whose result has the span from its start to its end. -/
theorem Spans.of_consumes {m : Parse β} {spanOf : β → Span} (h : Consumes m)
    (hSpan : ∀ s, After m s fun x s' => spanOf x = ((spanFrom s.current.span).run s').1) :
    Spans spanOf m := fun s hAligned hError => by
  have hOwn : spanOf (m.run s).1 = _ := hSpan s hError
  obtain ⟨ts, hTokens, hCovers⟩ := exists_covers hAligned (m.moves s) (h s hError)
  exact ⟨ts, hTokens, by rwa [hOwn]⟩

/-! ## Readers that locate fragments -/

/-- Without an error the fragments of the result lie among the tokens that were taken. -/
def Locates {α : Type} (before : List Fragment) (frs : α → List Fragment) (m : Parse α) : Prop :=
  ∀ s ts, Aligned s.tokens → AllLie ts before → After m s fun x s' =>
    ∃ us, s.tokens = us ++ s'.tokens ∧ AllLie (ts ++ us) (frs x)

namespace Locates

theorem pure {b : β} (h : ∀ ts, AllLie ts before → AllLie ts (frs b)) :
    Locates before frs (pure b) := fun s ts _ hBefore _ => by
  refine ⟨[], rfl, ?_⟩
  rw [List.append_nil]
  exact h ts hBefore

theorem bind {m : Parse α} {f : α → Parse β} (h : Locates [] ms m)
    (hf : ∀ a, Locates (before ++ ms a) frs (f a)) : Locates before frs (m >>= f) := by
  intro s ts hAligned hBefore
  refine After.bind (h s [] hAligned .nil) ?_
  rintro a s' ⟨us, hTokens, hLie⟩ -
  have hRest : Aligned s'.tokens := hAligned.sublist (hTokens ▸ List.sublist_append_right _ _)
  have hBoth : AllLie (ts ++ us) (before ++ ms a) := AllLie.append.mpr
    ⟨hBefore.mono (List.prefix_append _ _).isInfix, hLie.mono (List.suffix_append _ _).isInfix⟩
  refine (hf a s' (ts ++ us) hRest hBoth).imp ?_
  rintro b s'' ⟨vs, hTokens', hLie'⟩
  exact ⟨us ++ vs, by rw [hTokens, hTokens', List.append_assoc], by rwa [← List.append_assoc]⟩

/-- A reader whose result has no fragments. -/
theorem quiet (m : Parse α) : Locates [] (fun _ => []) m := fun s _ _ _ _ => by
  obtain ⟨us, hTokens⟩ := (m.moves s).suffix
  exact ⟨us, hTokens.symm, .nil⟩

theorem behind {m : Parse α} {f : α → Parse β} (hf : ∀ a, Locates before frs (f a)) :
    Locates before frs (m >>= f) := by
  refine bind (quiet m) fun a => ?_
  rw [List.append_nil]
  exact hf a

/-- The result of the last reader is made into another one. -/
theorem map {m : Parse α} {f : α → β} (h : Locates [] ms m)
    (hf : ∀ a ts, AllLie ts (before ++ ms a) → AllLie ts (frs (f a))) :
    Locates before frs (f <$> m) := by
  rw [map_eq_pure_bind]
  exact h.bind fun a => pure (hf a)

theorem choose {c : Parse Bool} {m m' : Parse β} (hThen : Locates before frs m)
    (hElse : Locates before frs m') :
    Locates before frs (c >>= fun b => if b = true then m else m') :=
  behind fun b => by
    cases b with
    | true => exact hThen
    | false => exact hElse

theorem fail {expected : Expected} {f : Unit → Parse β} :
    Locates before frs (Parse.fail expected >>= f) := fun _ _ _ _ => After.fail

/-- A result that keeps the span of all tokens that were taken for it. -/
theorem node {m : Parse β} {spanOf : β → Span} {own : β → Fragment} (hSpans : Spans spanOf m)
    (h : Locates [] frs m) (hSpan : ∀ b, (own b).span? = some (spanOf b))
    (hAll : ∀ b, (own b).fragments = own b :: frs b) : Locates [] (fun b => own b :: frs b) m := by
  intro s ts hAligned _ hError
  obtain ⟨us, hTokens, hCovers⟩ := hSpans s hAligned hError
  obtain ⟨vs, hTokens', hLie⟩ := h s [] hAligned .nil hError
  obtain rfl : us = vs := List.append_cancel_right (hTokens.symm.trans hTokens')
  have hOwn : Lies us (own _) := .of_covers (hSpan _) hCovers (hAll _) hLie
  exact ⟨us, hTokens, (AllLie.cons.mpr ⟨hOwn, hLie⟩).mono (List.suffix_append _ _).isInfix⟩

/-! ### Repeating -/

theorem chain {accept : Token → Option α} {item : α → Parse β} (h : ∀ a, Locates [] frs (item a)) :
    Locates [] (List.flatMap frs) (Parse.chain accept item) := by
  intro s ts hAligned _ hError
  suffices hChain : ∃ us, s.tokens = us ++ (chainFrom accept item s).2.tokens ∧
      AllLie us ((chainFrom accept item s).1.flatMap frs) by
    obtain ⟨us, hTokens, hLie⟩ := hChain
    exact ⟨us, hTokens, hLie.mono (List.suffix_append _ _).isInfix⟩
  simp only [Parse.chain] at hError
  fun_induction chainFrom accept item s with
  | case1 s => exact ⟨[], rfl, .nil⟩
  | case2 s => exact ⟨[], rfl, .nil⟩
  | case3 s t rest hTokens a _ after more ih =>
    have hRest : Aligned (s.take t rest).tokens :=
      hAligned.sublist (hTokens ▸ List.sublist_cons_self t rest)
    have hAfter : after.2.error = none := error_none_of_moves (moves_chainFrom _ _ _) hError
    obtain ⟨us, hItem, hLie⟩ := h a (s.take t rest) [] hRest .nil hAfter
    obtain ⟨vs, hMore, hLie'⟩ := ih (hRest.sublist (hItem ▸ List.sublist_append_right _ _)) hError
    refine ⟨t :: (us ++ vs), ?_, ?_⟩
    · rw [hTokens, List.cons_append, List.append_assoc, ← hMore]
      exact congrArg (t :: ·) hItem
    · have hFirst : us <:+: t :: (us ++ vs) := ⟨[t], vs, by simp⟩
      have hSecond : vs <:+: t :: (us ++ vs) := ⟨t :: us, [], by simp⟩
      rw [List.flatMap_cons, AllLie.append]
      exact ⟨hLie.mono hFirst, hLie'.mono hSecond⟩

theorem chainOf {symbol : Symbol} {item : Parse β} (h : Locates [] frs item) :
    Locates [] (List.flatMap frs) (Parse.chainOf symbol item) := chain fun _ => h

theorem separated {item : Parse β} (h : Locates [] frs item) :
    Locates [] (List.flatMap frs) (Parse.separated item) :=
  h.bind fun _ => (chainOf h).bind fun _ => pure fun _ hLie => by simpa using hLie

/-- Entries one behind the other, put together from the left. -/
theorem layer {first : Parse γ} {accept : Token → Option β} {item : β → Parse ε} {start : γ → α}
    {make : α → ε → α} {K : γ → List Fragment} {M : ε → List Fragment} (hFirst : Locates [] K first)
    (hItem : ∀ b, Locates [] M (item b))
    (hStart : ∀ x ts, AllLie ts (K x) → AllLie ts (ms (start x)))
    (hMake : ∀ a x ts, AllLie ts (ms a) → AllLie ts (M x) → AllLie ts (ms (make a x))) :
    Locates [] ms (do
      let x ← first
      let rest ← Parse.chain accept item
      return rest.foldl make (start x)) := by
  refine hFirst.bind fun x => (chain hItem).bind fun rest => pure fun ts hLie => ?_
  simp only [List.nil_append, AllLie.append, AllLie.flatMap] at hLie
  exact List.foldlRecOn rest make (hStart x ts hLie.1) fun a ha y hy =>
    hMake a y ts ha (hLie.2 y hy)

/-! ### Parts of statements -/

theorem after {word : Keyword} {item : Parse β} (h : Locates [] frs item) :
    Locates [] (fragmentsOption frs) (Parse.after word item) :=
  choose (h.bind fun _ => pure fun _ hLie => by simpa using hLie) (pure fun _ hLie => by simp)

theorem spanned {item : Parse (Span → β)} (h : ∀ span, Locates [] (fun f => frs (f span)) item) :
    Locates [] frs (Parse.spanned item) := fun s ts hAligned hBefore hError =>
  h _ s ts hAligned hBefore hError

end Locates

end Grammar

end SqlKit
