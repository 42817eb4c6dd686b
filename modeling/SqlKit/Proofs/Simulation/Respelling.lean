import SqlKit.Proofs.Simulation.Statement

/-!
# Statements spelled in another way

Two lists of tokens may differ in what an erasure erases: in the places of the tokens, or in the
spelling of bare names. `Simulation.respelled` relates the readings of two such statements. The one
thing that a reader asks about places is whether a number touches the question mark in front of it,
so the lists have to agree on that as well (`RespelledTokens`).

Errors are compared in the same way. What a reader is told of an error, its wording, is the same up
to the spelling of names (`ParseError.Respelled.message`).
-/

namespace SqlKit

/-! ## Erasures that readers cannot see through -/

/-- An erasure that keeps names apart that are told apart in lower case, goes along with the joining
of names, and compares spans either as they are or not at all. -/
structure Erasure.Lawful (e : Erasure) : Prop where
  lower : ∀ {a b : String}, e.name a = e.name b → a.toLower = b.toLower
  append : ∀ {a b c d : String}, e.name a = e.name b → e.name c = e.name d →
    e.name (a ++ c) = e.name (b ++ d)
  span : (∀ a b : Span, e.span a = e.span b) ∨ (∀ a b : Span, e.span a = e.span b → a = b)

namespace Erasure.Lawful

variable {e : Erasure}

/-- What is made of like spans, step by step in the same way, is like. -/
theorem like_span {α : Type} (h : e.Lawful) (f : α → Span) {x y : α}
    (hSame : (∀ a b : Span, e.span a = e.span b → a = b) → f x = f y) :
    Like e (f x) (f y) := by
  rcases h.span with hAll | hExact
  · exact hAll _ _
  · exact congrArg e.span (hSame hExact)

theorem isEmpty_eq (h : e.Lawful) {a b : String} (hName : e.name a = e.name b) :
    a.isEmpty = b.isEmpty := by
  have hLower := congrArg (fun s : String => s.toList.length) (h.lower hName)
  unfold String.toLower at hLower
  simp only [String.toList_map, List.length_map] at hLower
  rw [Bool.eq_iff_iff, String.isEmpty_iff, String.isEmpty_iff]
  constructor
  · rintro rfl
    exact String.toList_eq_nil_iff.mp (List.length_eq_zero_iff.mp hLower.symm)
  · rintro rfl
    exact String.toList_eq_nil_iff.mp (List.length_eq_zero_iff.mp hLower)

end Erasure.Lawful

/-! ## Tokens -/

/-- Two kinds that are equal, or the kinds of bare names that are spelled alike. -/
def TokenKind.Respelled (e : Erasure) (k l : TokenKind) : Prop :=
  k = l ∨ ∃ m n, k = .identifier (.bare m) ∧ l = .identifier (.bare n) ∧ e.name m = e.name n

namespace TokenKind.Respelled

variable {e : Erasure} {k l : TokenKind}

theorem form (h : k.Respelled e l) : k.form e = l.form e := by
  rcases h with rfl | ⟨m, n, rfl, rfl, hName⟩
  · rfl
  · simp only [TokenKind.form, Identifier.bare, Bool.false_eq_true, if_false, hName]

theorem isEnd_iff (h : k.Respelled e l) : k.IsEnd ↔ l.IsEnd := by
  rw [← TokenKind.form_eq_end (e := e), h.form, TokenKind.form_eq_end]

/-- A kind that is no bare name is the same in both spellings. -/
theorem eq_iff (h : k.Respelled e l) {kind : TokenKind} (hKind : ∀ n, kind ≠ .identifier n) :
    k = kind ↔ l = kind := by
  rcases h with rfl | ⟨m, n, rfl, rfl, -⟩
  · rfl
  · constructor
    · intro hm
      exact absurd hm.symm (hKind _)
    · intro hn
      exact absurd hn.symm (hKind _)

theorem shown (h : k.Respelled e l) : e.name k.shown = e.name l.shown := by
  rcases h with rfl | ⟨m, n, rfl, rfl, hName⟩
  · rfl
  · exact hName

end TokenKind.Respelled

/-- Two tokens that are equal up to an erasure. -/
structure Token.Respelled (e : Erasure) (a b : Token) : Prop where
  kind : a.kind.Respelled e b.kind
  text : e.name a.text = e.name b.text
  span : Like e a.span b.span

namespace Token.Respelled

variable {e : Erasure} {a b : Token}

theorem alike (h : Token.Respelled e a b) : Token.Alike e a b := ⟨h.kind.form, h.text⟩

theorem isEnd_eq (h : Token.Respelled e a b) : a.isEnd = b.isEnd := by
  have hKind : a.kind = .endOfInput ↔ b.kind = .endOfInput := h.kind.eq_iff (by simp)
  rw [Bool.eq_iff_iff, isEnd, isEnd, beq_iff_eq, beq_iff_eq]
  exact hKind

/-- The words for a token that was found. -/
theorem described (hE : e.Lawful) (h : Token.Respelled e a b) :
    e.name a.described = e.name b.described := by
  have hEnd := h.isEnd_eq
  by_cases ha : a.kind = .endOfInput
  · have hb : b.kind = .endOfInput := (h.kind.eq_iff (by simp)).mp ha
    simp only [Token.described, ha, hb]
  · have hb : b.kind ≠ .endOfInput := fun hb => ha ((h.kind.eq_iff (by simp)).mpr hb)
    have hWords : ∀ {t : Token}, t.kind ≠ .endOfInput →
        t.described = if t.text.isEmpty then t.kind.shown else t.text := by
      intro t ht
      unfold Token.described
      split
      · next hKind => exact absurd hKind ht
      · rfl
    rw [hWords ha, hWords hb, hE.isEmpty_eq h.text]
    split
    · exact h.kind.shown
    · exact h.text

end Token.Respelled

/-- Whether a token starts where the one in front of it ends. -/
def Token.Touches (a c : Token) : Prop := c.span.first.offset = a.span.last.offset

instance (a c : Token) : Decidable (a.Touches c) := inferInstanceAs (Decidable (_ = _))

/-- Two lists of tokens that are equal one by one up to an erasure. A number touches the question
mark in front of it in both of them or in neither. -/
inductive RespelledTokens (e : Erasure) : List Token → List Token → Prop where
  | nil : RespelledTokens e [] []
  | cons {a b : Token} {as bs : List Token} (head : Token.Respelled e a b)
    (touches : ∀ c d n, as.head? = some c → bs.head? = some d → a.kind = .symbol .question →
      c.kind = .integer n → (a.Touches c ↔ b.Touches d))
    (tail : RespelledTokens e as bs) : RespelledTokens e (a :: as) (b :: bs)

namespace RespelledTokens

variable {e : Erasure} {as bs : List Token}

theorem length_eq (h : RespelledTokens e as bs) : as.length = bs.length := by
  induction h with
  | nil => rfl
  | cons _ _ _ ih => rw [List.length_cons, List.length_cons, ih]

/-- Both lists can be cut at the same place. -/
theorem of_append {cs ds : List Token} (h : RespelledTokens e (as ++ cs) (bs ++ ds))
    (hLength : as.length = bs.length) : RespelledTokens e as bs ∧ RespelledTokens e cs ds := by
  induction as generalizing bs with
  | nil =>
    obtain rfl := List.length_eq_zero_iff.mp hLength.symm
    exact ⟨.nil, h⟩
  | cons a as ih =>
    cases bs with
    | nil => cases hLength
    | cons b bs =>
      rw [List.cons_append, List.cons_append] at h
      cases h with
      | cons head touches tail =>
        obtain ⟨hFront, hBack⟩ := ih tail (Nat.succ.inj hLength)
        refine ⟨.cons head ?_ hFront, hBack⟩
        intro c d n hc hd
        apply touches c d n
        · rw [List.head?_append, hc, Option.some_or]
        · rw [List.head?_append, hd, Option.some_or]

end RespelledTokens

/-! ## Errors -/

/-- Two causes of errors that are equal up to an erasure. -/
inductive ParseError.Cause.Respelled (e : Erasure) :
    ParseError.Cause → ParseError.Cause → Prop where
  | unexpected (expected : Expected) {a b : Token} (found : Token.Respelled e a b) :
    Respelled e (.unexpected expected a) (.unexpected expected b)
  | untyped {m n : String} (name : e.name m = e.name n) :
    Respelled e (.untypedParameter m) (.untypedParameter n)

/-- Two errors that are equal up to an erasure. -/
structure ParseError.Respelled (e : Erasure) (x y : ParseError) : Prop where
  position : Like e (⟨x.position, x.position⟩ : Span) ⟨y.position, y.position⟩
  cause : ParseError.Cause.Respelled e x.cause y.cause

namespace ParseError.Respelled

variable {e : Erasure} {x y : ParseError}

theorem kindName_eq (h : ParseError.Respelled e x y) : x.kindName = y.kindName := by
  obtain ⟨p, x⟩ := x
  obtain ⟨q, y⟩ := y
  cases h.cause <;> rfl

theorem expected?_eq (h : ParseError.Respelled e x y) : x.expected? = y.expected? := by
  obtain ⟨p, x⟩ := x
  obtain ⟨q, y⟩ := y
  cases h.cause <;> rfl

theorem found? (hE : e.Lawful) (h : ParseError.Respelled e x y) :
    x.found?.map e.name = y.found?.map e.name := by
  obtain ⟨p, x⟩ := x
  obtain ⟨q, y⟩ := y
  cases h.cause with
  | unexpected expected found => exact congrArg some (found.described hE)
  | untyped name => rfl

theorem message (hE : e.Lawful) (h : ParseError.Respelled e x y) :
    e.name x.message = e.name y.message := by
  obtain ⟨p, x⟩ := x
  obtain ⟨q, y⟩ := y
  cases h.cause with
  | unexpected expected found => exact hE.append rfl (found.described hE)
  | untyped name => exact hE.append (hE.append rfl name) rfl

end ParseError.Respelled

/-! ## Readings -/

namespace Grammar

/-- Two states in the readings of statements that are equal up to an erasure. -/
structure State.Respelled (e : Erasure) (s t : State) : Prop where
  tokens : RespelledTokens e s.tokens t.tokens
  terminator : Token.Respelled e s.terminator t.terminator
  isEnd : s.terminator.kind.IsEnd
  previous : Like e s.previous t.previous
  error : Option.Rel (ParseError.Respelled e) s.error t.error
  bindings : List.Forall₂ (fun x y => x.1 = y.1 ∧ e.name x.2 = e.name y.2) s.bindings t.bindings
  placeholders : s.placeholders = t.placeholders

namespace State.Respelled

variable {e : Erasure} {s t : State}

theorem current (h : State.Respelled e s t) : Token.Respelled e s.current t.current := by
  obtain ⟨hTokens, hTerminator, -⟩ := h
  unfold State.current
  cases hs : s.tokens with
  | nil =>
    rw [hs] at hTokens
    generalize t.tokens = ts at hTokens
    cases hTokens
    exact hTerminator
  | cons a as =>
    rw [hs] at hTokens
    generalize t.tokens = ts at hTokens
    cases hTokens with
    | cons head _ _ => exact head

theorem note (h : State.Respelled e s t) {x y : ParseError} (hError : ParseError.Respelled e x y) :
    State.Respelled e (s.note x) (t.note y) := by
  have hFirst := h.error
  refine ⟨by simpa using h.tokens, by simpa using h.terminator, by simpa using h.isEnd,
    by simpa using h.previous, ?_, by simpa using h.bindings, by simpa using h.placeholders⟩
  rw [State.error_note, State.error_note]
  cases hs : s.error with
  | none =>
    rw [hs] at hFirst
    cases ht : t.error with
    | none => exact .some hError
    | some _ =>
      rw [ht] at hFirst
      cases hFirst
  | some _ =>
    rw [hs] at hFirst
    cases ht : t.error with
    | none =>
      rw [ht] at hFirst
      cases hFirst
    | some _ =>
      rw [ht] at hFirst
      exact hFirst

/-- An error at the next token is at the same place in both. -/
theorem errorPosition (hE : e.Lawful) (h : State.Respelled e s t) :
    Like e (⟨s.errorPosition, s.errorPosition⟩ : Span) ⟨t.errorPosition, t.errorPosition⟩ := by
  apply hE.like_span (fun s : State => (⟨s.errorPosition, s.errorPosition⟩ : Span))
  intro hExact
  have hPosition : s.errorPosition = t.errorPosition := by
    unfold State.errorPosition
    rw [h.current.isEnd_eq, hExact _ _ h.current.span, hExact _ _ h.previous]
  rw [hPosition]

end State.Respelled

/-- The readings of two statements that are equal up to an erasure. -/
def Simulation.respelled {e : Erasure} (hE : e.Lawful) : Simulation e where
  state := State.Respelled e
  lower := hE.lower
  append := hE.append
  ends := by
    intro s t h hNext
    exact h.current.kind.isEnd_iff.mp hNext
  cons := by
    intro s t h hNext
    obtain ⟨a, as, hTokens⟩ := State.exists_cons h.isEnd hNext
    have hAll := h.tokens
    rw [hTokens] at hAll
    generalize hTokens' : t.tokens = ts at hAll
    cases hAll with
    | @cons _ b _ bs head _ tail =>
      exact ⟨a, as, b, bs, hTokens, rfl, head.alike,
        { h with tokens := tail, previous := head.span }⟩
  touches := by
    intro s t a b c d as bs n h hs ht hKind hInteger
    have hAll := h.tokens
    rw [hs, ht] at hAll
    cases hAll with
    | cons _ touches _ => exact touches c d n rfl rfl hKind hInteger
  spanFrom := by
    intro s t u v h h'
    apply hE.like_span (fun p : State × State => p.2.spanFrom p.1.current.span) (x := (s, u))
      (y := (t, v))
    intro hExact
    unfold State.spanFrom
    rw [hExact _ _ h.current.span, hExact _ _ h'.previous]
  unexpected := fun expected h =>
    h.note ⟨h.errorPosition hE, .unexpected expected h.current⟩
  untyped := by
    intro s t u v a b as bs m n h hs ht _ _ h' hName
    apply h'.note
    refine ⟨?_, .untyped hName⟩
    have hSpan := h.current.span
    rw [State.current_cons hs, State.current_cons ht] at hSpan
    apply hE.like_span (fun t : Token => (⟨t.span.first, t.span.first⟩ : Span))
    intro hExact
    rw [hExact _ _ hSpan]
  declare := fun _ _ _ h hName hType =>
    { h with bindings := .cons ⟨hE.lower hName, hType⟩ h.bindings }
  lookup := by
    intro s t name h
    have hBindings := h.bindings
    generalize s.bindings = bs at hBindings
    generalize t.bindings = cs at hBindings
    induction hBindings with
    | nil => rfl
    | @cons x y xs ys hEntry _ ih =>
      obtain ⟨key, m⟩ := x
      obtain ⟨key', n⟩ := y
      obtain ⟨rfl, hName⟩ := hEntry
      rw [List.lookup_cons, List.lookup_cons]
      cases name == key with
      | true => exact congrArg some hName
      | false => exact ih
  placeholders := fun h => h.placeholders
  countPlaceholder := fun h => { h with placeholders := congrArg (· + 1) h.placeholders }

end Grammar

end SqlKit
