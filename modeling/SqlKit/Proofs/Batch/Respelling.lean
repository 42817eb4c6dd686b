import SqlKit.Proofs.Batch.Isolation
import SqlKit.Proofs.Simulation.Respelling
import Mathlib.Data.List.Forall2

/-!
# Texts spelled in another way

Two texts whose tokens are equal up to an erasure are cut into segments at the same places, the
segments are read alike, and what became of the texts is equal up to the erasure
(`parse_respelled`). With the erasure of places this says that the layout of a text does not matter
(`parse_layout`): blanks and comments between tokens may be put in, taken out and changed, as long
as no number is moved up to a question mark or away from it.

* `segmentsFrom_respelled`: the segments.
* `readSegments_respelled`: their readings, one after another.
* `ofReadings_respelled`: the results.
-/

namespace SqlKit

open Grammar

variable {e : Erasure}

/-! ## Segments -/

/-- Two segments that are equal up to an erasure. -/
structure Segment.Respelled (e : Erasure) (s u : Segment) : Prop where
  tokens : RespelledTokens e s.tokens u.tokens
  terminator : Token.Respelled e s.terminator u.terminator
  isEnd : s.terminator.kind.IsEnd

theorem ofTokens?_respelled {ts us : List Token} {t u : Token} (hTokens : RespelledTokens e ts us)
    (hTerminator : Token.Respelled e t u) (hEnd : t.kind.IsEnd) :
    List.Forall₂ (Segment.Respelled e) (Segment.ofTokens? ts t).toList
      (Segment.ofTokens? us u).toList := by
  cases hTokens with
  | nil => exact .nil
  | cons head touches tail => exact .cons ⟨.cons head touches tail, hTerminator, hEnd⟩ .nil

theorem isSemicolon_respelled {t u : Token} (h : Token.Respelled e t u) :
    isSemicolon t = isSemicolon u := by
  have hKind : t.kind = .symbol .semicolon ↔ u.kind = .symbol .semicolon := h.kind.eq_iff (by simp)
  rw [Bool.eq_iff_iff, isSemicolon_iff, isSemicolon_iff]
  exact hKind

theorem segmentsFrom_respelled {finish finish' : Token}
    (hFinish : Token.Respelled e finish finish') (hEnd : finish.kind.IsEnd)
    {before before' ts us : List Token} (hLength : before.length = before'.length)
    (h : RespelledTokens e (before ++ ts) (before' ++ us)) :
    List.Forall₂ (Segment.Respelled e) (segmentsFrom finish before ts)
      (segmentsFrom finish' before' us) := by
  induction ts generalizing before before' us with
  | nil =>
    obtain ⟨hBefore, hRest⟩ := h.of_append hLength
    cases hRest
    exact ofTokens?_respelled hBefore hFinish hEnd
  | cons t ts ih =>
    obtain ⟨hBefore, hRest⟩ := h.of_append hLength
    cases hRest with
    | @cons _ u _ us head touches tail =>
      rw [segmentsFrom, segmentsFrom, isSemicolon_respelled head]
      split
      · next hSemicolon =>
        have hKind : t.kind.IsEnd :=
          head.kind.isEnd_iff.mpr (Or.inl (isSemicolon_iff.mp hSemicolon))
        exact List.rel_append (ofTokens?_respelled hBefore head hKind) (ih rfl tail)
      · apply ih
        · rw [List.length_append, List.length_append, hLength]
          rfl
        · simpa using h

/-! ## Readings -/

/-- Two readings that are equal up to an erasure. -/
structure Reading.Respelled (e : Erasure) (r u : Reading) : Prop where
  statement : Like e r.statement u.statement
  error : Option.Rel (ParseError.Respelled e) r.error u.error

/-- Declared types that are equal up to an erasure. -/
def RespelledBindings (e : Erasure) (bs cs : Bindings) : Prop :=
  List.Forall₂ (fun x y => x.1 = y.1 ∧ e.name x.2 = e.name y.2) bs cs

theorem Segment.Respelled.start (hE : e.Lawful) {s u : Segment} (h : s.Respelled e u)
    {bs cs : Bindings} (hBindings : RespelledBindings e bs cs) :
    State.Respelled e (s.start bs) (u.start cs) := by
  refine ⟨h.tokens, h.terminator, h.isEnd, ?_, .none, hBindings, rfl⟩
  have hFirst : Like e s.first.span u.first.span := by
    have hTokens := h.tokens
    rw [Segment.tokens, Segment.tokens] at hTokens
    cases hTokens with
    | cons head _ _ => exact head.span
  apply hE.like_span (fun a : Segment => (⟨a.first.span.first, a.first.span.first⟩ : Span))
  intro hExact
  rw [hExact _ _ hFirst]

/-- Segments that are equal up to an erasure are read alike. -/
theorem Segment.Respelled.read (hE : e.Lawful) {s u : Segment} (h : s.Respelled e u)
    {bs cs : Bindings} (hBindings : RespelledBindings e bs cs) :
    (s.read bs).1.Respelled e (u.read cs).1 ∧
      RespelledBindings e (s.read bs).2 (u.read cs).2 := by
  have hKeep := keep_upTo (Simulation.respelled hE) (s.tokens.length + 1)
  obtain ⟨hLike, hState⟩ := similar_statement hKeep (h.start hE hBindings)
  simp only [Segment.read, Rules.forTokens, ← h.tokens.length_eq]
  exact ⟨⟨hLike, hState.error⟩, hState.bindings⟩

theorem readSegments_respelled (hE : e.Lawful) (scope : ParameterScope) {segs segs' : List Segment}
    (h : List.Forall₂ (Segment.Respelled e) segs segs') {bs cs : Bindings}
    (hBindings : RespelledBindings e bs cs) :
    List.Forall₂ (Reading.Respelled e) (readSegments scope bs segs)
      (readSegments scope cs segs') := by
  induction h generalizing bs cs with
  | nil => exact .nil
  | cons hSegment _ ih =>
    obtain ⟨hReading, hAfter⟩ := hSegment.read hE hBindings
    refine .cons hReading (ih ?_)
    cases scope with
    | session => exact hAfter
    | statement => exact .nil

/-! ## Results -/

/-- Two results that are equal up to an erasure. -/
structure ParseResult.Respelled (e : Erasure) (r u : ParseResult) : Prop where
  statements : Like e r.statements u.statements
  recovered : Like e r.recovered u.recovered
  errors : List.Forall₂ (ParseError.Respelled e) r.errors u.errors

theorem keeps_eq (retention : Retention) {s u : Statement} (h : Like e s u) :
    retention.keeps s = retention.keeps u := by
  have hErase : ∀ s : Statement, retention.keeps (s.erase e) = retention.keeps s := by
    intro s
    cases retention with
    | all => rfl
    | definitions => cases s <;> rfl
  rw [← hErase s, ← hErase u]
  exact congrArg retention.keeps h

theorem ofReadings_cons (retention : Retention) (r : Reading) (rs : List Reading) :
    ParseResult.ofReadings retention (r :: rs) =
      { statements :=
          (if retention.keeps r.statement && !r.error.isSome then [r.statement] else []) ++
            (ParseResult.ofReadings retention rs).statements
        recovered :=
          (if retention.keeps r.statement && r.error.isSome then [r.statement] else []) ++
            (ParseResult.ofReadings retention rs).recovered
        errors := r.error.toList ++ (ParseResult.ofReadings retention rs).errors } := by
  cases hKeeps : retention.keeps r.statement <;> cases hError : r.error <;>
    simp [ParseResult.ofReadings, hKeeps, hError]

theorem forall₂_toList {α β : Type} {R : α → β → Prop} {x : Option α} {y : Option β}
    (h : Option.Rel R x y) : List.Forall₂ R x.toList y.toList := by
  cases h with
  | none => exact .nil
  | some h => exact .cons h .nil

/-- Readings that are equal one by one make equal results, up to the erasure. -/
theorem ofReadings_respelled (retention : Retention) {rs us : List Reading}
    (h : List.Forall₂ (Reading.Respelled e) rs us) :
    ParseResult.Respelled e (.ofReadings retention rs) (.ofReadings retention us) := by
  induction h with
  | nil => exact ⟨rfl, rfl, .nil⟩
  | @cons r u rs us hReading _ ih =>
    have hKept : ∀ c : Bool, Like e (if c then [r.statement] else [])
        (if c then [u.statement] else []) := by
      intro c
      cases c with
      | true => exact .cons hReading.statement rfl
      | false => rfl
    have hError := hReading.error
    rw [ofReadings_cons, ofReadings_cons, keeps_eq retention hReading.statement,
      isSome_eq_of_rel hError]
    refine ⟨(hKept _).append ih.statements, (hKept _).append ih.recovered, ?_⟩
    exact List.rel_append (forall₂_toList hError) ih.errors

/-- Texts whose tokens are equal up to an erasure are read alike. -/
theorem parse_respelled (hE : e.Lawful) {a b : String}
    (hTokens : RespelledTokens e (tokensOf a) (tokensOf b))
    (hEnd : Like e (Token.endOfInput (endOf a)).span (Token.endOfInput (endOf b)).span)
    (options : ParseOptions) :
    ParseResult.Respelled e (parse options a) (parse options b) := by
  have hFinish : Token.Respelled e (.endOfInput (endOf a)) (.endOfInput (endOf b)) :=
    ⟨Or.inl rfl, rfl, hEnd⟩
  have hSegments : List.Forall₂ (Segment.Respelled e) (segments a) (segments b) :=
    segmentsFrom_respelled hFinish (Or.inr rfl) rfl hTokens
  rw [parse_eq, parse_eq]
  exact ofReadings_respelled _ (readSegments_respelled hE _ hSegments .nil)

/-! ## Layout -/

theorem lawful_spans : Erasure.spans.Lawful := by
  refine ⟨?_, ?_, Or.inl fun _ _ => rfl⟩
  · intro a b h
    exact congrArg String.toLower h
  · intro a b c d h h'
    exact congrArg₂ (· ++ ·) h h'

/-- What an error says, without its place. -/
structure ParseError.Wording where
  kindName : String
  message : String
  expected : Option String
  found : Option String
  deriving Repr, DecidableEq, Inhabited

/-- What an error says. -/
def ParseError.wording (e : ParseError) : ParseError.Wording :=
  ⟨e.kindName, e.message, e.expected?, e.found?⟩

/-- Whether a question mark stands at an index of a list of tokens, and an integer behind it. -/
def numberFollows (ts : List Token) (i : Nat) : Bool :=
  match ts[i]?.map Token.kind, ts[i + 1]?.map Token.kind with
  | some (.symbol .question), some (.integer _) => true
  | _, _ => false

/-- Whether the token behind an index of a list touches the one at the index. -/
def touchesNext (ts : List Token) (i : Nat) : Bool :=
  match ts[i]?, ts[i + 1]? with
  | some t, some u => decide (t.Touches u)
  | _, _ => false

theorem respelledTokens_spans {ts us : List Token}
    (hSame : ts.map (fun t => (t.kind, t.text)) = us.map fun t => (t.kind, t.text))
    (hTouches : ∀ i, numberFollows ts i = true → touchesNext ts i = touchesNext us i) :
    RespelledTokens .spans ts us := by
  induction ts generalizing us with
  | nil =>
    obtain rfl := List.map_eq_nil_iff.mp hSame.symm
    exact .nil
  | cons t ts ih =>
    cases us with
    | nil => cases hSame
    | cons u us =>
      obtain ⟨hHead, hTail⟩ := List.cons.inj hSame
      obtain ⟨hKind, hText⟩ := Prod.mk.inj hHead
      refine .cons ⟨Or.inl hKind, hText, rfl⟩ ?_ (ih hTail fun i hFollows => ?_)
      · intro c d n hc hd hQuestion hInteger
        rw [List.head?_eq_getElem?] at hc hd
        have hFollows : numberFollows (t :: ts) 0 = true := by
          simp only [numberFollows, List.getElem?_cons_zero, List.getElem?_cons_succ, hc,
            Option.map_some, hQuestion, hInteger]
        have hFirst := hTouches 0 hFollows
        simp only [touchesNext, List.getElem?_cons_zero, List.getElem?_cons_succ, hc, hd] at hFirst
        exact decide_eq_decide.mp hFirst
      · exact hTouches (i + 1) hFollows

/-- **The layout of a text does not matter.** Two texts with the same kinds and source texts of
tokens are read in the same way, up to places: they hold the same statements and the same stand-ins
for broken ones, and their errors say the same. The one exception is a number behind a question
mark, which has to touch it in both texts or in neither. -/
theorem parse_layout {a b : String}
    (hSame : (tokensOf a).map (fun t => (t.kind, t.text)) =
      (tokensOf b).map fun t => (t.kind, t.text))
    (hTouches : ∀ i, numberFollows (tokensOf a) i = true →
      touchesNext (tokensOf a) i = touchesNext (tokensOf b) i)
    (options : ParseOptions) :
    Like .spans (parse options a).statements (parse options b).statements ∧
      Like .spans (parse options a).recovered (parse options b).recovered ∧
      (parse options a).errors.map ParseError.wording =
        (parse options b).errors.map ParseError.wording := by
  have hTokens := respelledTokens_spans hSame hTouches
  obtain ⟨hStatements, hRecovered, hErrors⟩ := parse_respelled lawful_spans hTokens rfl options
  refine ⟨hStatements, hRecovered, ?_⟩
  have hWording : ∀ {x y : ParseError}, ParseError.Respelled .spans x y →
      x.wording = y.wording := by
    intro x y h
    have hFound := h.found? lawful_spans
    simp only [Erasure.spans, Option.map_id_fun, id_eq] at hFound
    have hMessage : x.message = y.message := h.message lawful_spans
    unfold ParseError.wording
    rw [h.kindName_eq, h.expected?_eq, hMessage, hFound]
  rw [← List.forall₂_eq_eq_eq, List.forall₂_map_left_iff, List.forall₂_map_right_iff]
  exact hErrors.imp fun _ _ => hWording

/-- A placeholder with a number, and a broken statement where the number stands apart. -/
theorem layout_of_placeholders :
    (tokensOf "SELECT ?1;SELECT ? 2").map (fun t => (t.kind, t.text)) =
        (tokensOf "SELECT--\n?1 ; SELECT ?/**/2").map (fun t => (t.kind, t.text)) ∧
      (∀ i, numberFollows (tokensOf "SELECT ?1;SELECT ? 2") i = true →
        touchesNext (tokensOf "SELECT ?1;SELECT ? 2") i =
          touchesNext (tokensOf "SELECT--\n?1 ; SELECT ?/**/2") i) ∧
      Like .spans (parse .standard "SELECT ?1;SELECT ? 2").statements
        (parse .standard "SELECT--\n?1 ; SELECT ?/**/2").statements ∧
      Like .spans (parse .standard "SELECT ?1;SELECT ? 2").recovered
        (parse .standard "SELECT--\n?1 ; SELECT ?/**/2").recovered ∧
      (parse .standard "SELECT ?1;SELECT ? 2").errors.map ParseError.wording =
        (parse .standard "SELECT--\n?1 ; SELECT ?/**/2").errors.map ParseError.wording := by
  have hSame : (tokensOf "SELECT ?1;SELECT ? 2").map (fun t => (t.kind, t.text)) =
      (tokensOf "SELECT--\n?1 ; SELECT ?/**/2").map fun t => (t.kind, t.text) := by
    decide +kernel
  have hTouches : ∀ i, numberFollows (tokensOf "SELECT ?1;SELECT ? 2") i = true →
      touchesNext (tokensOf "SELECT ?1;SELECT ? 2") i =
        touchesNext (tokensOf "SELECT--\n?1 ; SELECT ?/**/2") i := by
    intro i hFollows
    have hLength : (tokensOf "SELECT ?1;SELECT ? 2").length = 7 := by decide +kernel
    have hEarly : ∀ i < 7, numberFollows (tokensOf "SELECT ?1;SELECT ? 2") i = true →
        touchesNext (tokensOf "SELECT ?1;SELECT ? 2") i =
          touchesNext (tokensOf "SELECT--\n?1 ; SELECT ?/**/2") i := by
      decide +kernel
    rcases Nat.lt_or_ge i 7 with hLess | hMore
    · exact hEarly i hLess hFollows
    · have hNone := List.getElem?_eq_none (hLength ▸ hMore)
      simp [numberFollows, hNone] at hFollows
  exact ⟨hSame, hTouches, parse_layout hSame hTouches .standard⟩

end SqlKit
