import SqlKit.Proofs.Batch.Constants

/-!
# Signs in front of terms

A run of signs in front of a number makes a number of it, the one whose sign is that of all signs
together, and in front of any other term each sign stands as it is written (`Folded`). The integers
of tokens are not negative, so the least integer never comes up and no negation overflows:
`term?` and `signed?` read what `term` and `signed` read, and would find out (`parse_signs`). There
are no other readers that negate an integer.
-/

namespace SqlKit

namespace Grammar

open Parse

/-- Whether a token is a sign. -/
def IsSign (t : Token) : Prop := t.kind = .symbol .plus ∨ t.kind = .symbol .minus

instance (t : Token) : Decidable (IsSign t) := inferInstanceAs (Decidable (_ ∨ _))

/-- Whether a token is a minus. -/
def isMinus (t : Token) : Bool := t.kind == .symbol .minus

/-- The state after some tokens are taken. -/
def State.takeAll (s : State) : List Token → State
  | [] => s
  | t :: ts => (s.take t s.tokens.tail).takeAll ts

/-- What signs make of the term behind them, which starts with the first token of `rest`: a number
is multiplied by `-1` for each minus, and any other term stands behind the signs in their order. -/
structure Folded (signs rest : List Token) (plain folded : Term) : Prop where
  integer : ∀ t n, rest.head? = some t → t.kind = .integer n → plain = .literal (.integer n) ∧
    ∃ m, folded = .literal (.integer m) ∧ m.toInt = (-1) ^ signs.countP isMinus * n.toInt
  float : ∀ t x, rest.head? = some t → t.kind = .float x → plain = .literal (.float x) ∧
    folded = .literal (.float (if signs.countP isMinus % 2 = 0 then x else x.neg))
  other : (∀ t ∈ rest.head?, t.kind.isNumber = false) →
    folded = signs.foldr (fun t inner => .signed (isMinus t) inner) plain

/-! ## Negation -/

/-- The negation of an integer, unless it overflows. -/
def negated? (n : Int64) : Option Int64 := if n = Int64.minValue then none else some (-n)

/-- A sign in front of a term, unless a negation overflows. -/
def applySign? (negative : Bool) (term : Term) : Option Term :=
  match negative, term with
  | true, .literal (.integer n) => (negated? n).map fun m => .literal (.integer m)
  | negative, term => some (applySign negative term)

/-- A term behind any number of signs, unless a negation overflows. -/
def term? (rules : Rules) : Parse (Option Term) := do
  let signs ← chain signOf? pure
  return signs.foldrM applySign? (← unsignedTerm rules)

/-- A number with an optional minus, unless its negation overflows. -/
def signed? (expected : Expected) : Parse (Option Int64) := do
  let negative ← eat .minus
  ask expected (some 0) fun t =>
    match t.kind with
    | .integer n => some (if negative then negated? n else some n)
    | _ => none

theorem toInt_neg_of_ne {n : Int64} (h : n ≠ Int64.minValue) : (-n).toInt = -n.toInt := by
  have hLeast : n.toInt ≠ -2 ^ 63 := fun hEq => h (Int64.toInt_inj.mp hEq)
  have hLower := n.le_toInt
  have hMax : Numeral.maxInteger = 2 ^ 63 - 1 := rfl
  exact toInt_neg_of_le (by omega)

theorem neg_ne_minValue {n : Int64} (h : n ≠ Int64.minValue) : -n ≠ Int64.minValue := by
  intro hEq
  have hSelf : -n = -Int64.minValue := hEq.trans (by decide)
  exact h (Int64.neg_inj.mp hSelf)

theorem ne_minValue_of_nonneg {n : Int64} (h : 0 ≤ n.toInt) : n ≠ Int64.minValue := by
  rintro rfl
  exact absurd h (by decide)

/-- Terms that are not the least integer can be negated, and are not the least integer then. -/
theorem applySign?_eq {x : Term} (h : x ≠ .literal (.integer Int64.minValue)) (negative : Bool) :
    applySign? negative x = some (applySign negative x) ∧
      applySign negative x ≠ .literal (.integer Int64.minValue) := by
  unfold applySign?
  split
  · next n =>
    have hn : n ≠ Int64.minValue := fun hEq => h (by rw [hEq])
    refine ⟨by rw [negated?, if_neg hn]; rfl, fun hEq => ?_⟩
    exact neg_ne_minValue hn (by simpa [applySign] using hEq)
  · refine ⟨rfl, ?_⟩
    unfold applySign
    split <;> simp_all

variable {s : State} {signs rest : List Token}

theorem foldrM_applySign? {x : Term} (h : x ≠ .literal (.integer Int64.minValue))
    (signs : List Bool) : signs.foldrM applySign? x = some (signs.foldr applySign x) ∧
      signs.foldr applySign x ≠ .literal (.integer Int64.minValue) := by
  induction signs with
  | nil => exact ⟨rfl, h⟩
  | cons negative signs ih =>
    obtain ⟨hFold, hNe⟩ := ih
    rw [List.foldrM_cons, hFold]
    exact applySign?_eq hNe negative

theorem toInt_foldSigns {n : Int64} (h : n ≠ Int64.minValue) (signs : List Token) :
    (foldSigns (signs.map isMinus) n).toInt = (-1) ^ signs.countP isMinus * n.toInt ∧
      foldSigns (signs.map isMinus) n ≠ Int64.minValue := by
  induction signs with
  | nil => exact ⟨(Int.one_mul _).symm, h⟩
  | cons t signs ih =>
    obtain ⟨hValue, hNe⟩ := ih
    have hCons : foldSigns ((t :: signs).map isMinus) n =
        if isMinus t then -foldSigns (signs.map isMinus) n
          else foldSigns (signs.map isMinus) n := rfl
    rw [hCons]
    cases hMinus : isMinus t with
    | false =>
      rw [List.countP_cons_of_neg (by simp [hMinus])]
      exact ⟨hValue, hNe⟩
    | true =>
      rw [List.countP_cons_of_pos hMinus]
      refine ⟨?_, neg_ne_minValue hNe⟩
      rw [if_pos rfl, toInt_neg_of_ne hNe, hValue, Int.pow_succ]
      ring

theorem foldr_applySign_float_eq (x : Binary64) (signs : List Token) :
    (signs.map isMinus).foldr applySign (.literal (.float x)) =
      .literal (.float (if signs.countP isMinus % 2 = 0 then x else x.neg)) := by
  induction signs with
  | nil => rfl
  | cons t signs ih =>
    rw [List.map_cons, List.foldr_cons, ih]
    cases hMinus : isMinus t with
    | false =>
      rw [List.countP_cons_of_neg (by simp [hMinus])]
      rfl
    | true =>
      rw [List.countP_cons_of_pos hMinus]
      rcases Nat.mod_two_eq_zero_or_one (signs.countP isMinus) with hEven | hOdd
      · rw [if_pos hEven, if_neg (by omega)]
        rfl
      · rw [if_neg (by omega), if_pos (by omega)]
        exact congrArg _ (congrArg _ x.neg_neg)

/-! ## Readers -/

theorem signOf?_of_isSign {t : Token} (h : IsSign t) : signOf? t = some (isMinus t) := by
  rcases h with h | h <;> simp [signOf?, isMinus, h]

theorem signOf?_of_not {t : Token} (h : ¬ IsSign t) : signOf? t = none := by
  unfold signOf?
  split
  · next hKind => exact absurd (Or.inr hKind) h
  · next hKind => exact absurd (Or.inl hKind) h
  · rfl

theorem tokens_takeAll (h : s.tokens = signs ++ rest) : (s.takeAll signs).tokens = rest := by
  induction signs generalizing s with
  | nil => exact h
  | cons t signs ih => exact ih (by rw [h]; rfl)

/-- A run of signs is taken to its end. -/
theorem chainFrom_signOf? (h : s.tokens = signs ++ rest) (hSigns : ∀ t ∈ signs, IsSign t)
    (hRest : ∀ t ∈ rest.head?, ¬ IsSign t) :
    chainFrom signOf? pure s = (signs.map isMinus, s.takeAll signs) := by
  induction signs generalizing s with
  | nil =>
    cases rest with
    | nil => exact chainFrom_nil h
    | cons t rest => exact chainFrom_none h (signOf?_of_not (hRest t rfl))
  | cons t signs ih =>
    obtain ⟨hSign, hMore⟩ := List.forall_mem_cons.mp hSigns
    have hTail : s.tokens.tail = signs ++ rest := by rw [h]; rfl
    rw [chainFrom_some h (signOf?_of_isSign hSign)]
    simp only [run_pure, List.append_eq, ← hTail]
    rw [ih (s := s.take t s.tokens.tail) hTail hMore]
    rfl

theorem run_unsignedTerm_literal {rules : Rules} {t : Token} {ts : List Token} {value : Literal}
    (h : s.tokens = t :: ts) (hValue : literalOf? t = some value) :
    (unsignedTerm rules).run s = (.literal value, s.take t ts) := by
  rw [unsignedTerm_eq, run_bind, run_take?_some h hValue]
  rfl

/-- A term without a sign is a constant of its token, or it is no number. -/
theorem unsignedTerm_cases (rules : Rules) (s : State) :
    (∃ t ts value, s.tokens = t :: ts ∧ literalOf? t = some value ∧
      ((unsignedTerm rules).run s).1 = .literal value) ∨
    isNumber ((unsignedTerm rules).run s).1 = false := by
  cases hTokens : s.tokens with
  | nil =>
    rw [unsignedTerm_eq, run_bind, run_take?_nil hTokens]
    exact Or.inr isNumber_termOfKind
  | cons t ts =>
    cases hValue : literalOf? t with
    | none =>
      rw [unsignedTerm_eq, run_bind, run_take?_none hTokens hValue]
      exact Or.inr isNumber_termOfKind
    | some value =>
      rw [run_unsignedTerm_literal hTokens hValue]
      exact Or.inl ⟨t, ts, value, rfl, hValue, rfl⟩

/-- A term that starts with no number is none. -/
theorem isNumber_unsignedTerm (rules : Rules) (h : ∀ t ∈ s.tokens.head?, t.kind.isNumber = false) :
    isNumber ((unsignedTerm rules).run s).1 = false := by
  rcases unsignedTerm_cases rules s with ⟨t, ts, value, hTokens, hValue, hTerm⟩ | hNone
  · have hKind := h t (by rw [hTokens]; rfl)
    rw [kind_of_literalOf? hValue] at hKind
    rw [hTerm]
    cases value <;> first | rfl | cases hKind
  · exact hNone

/-- No term without a sign is the least integer. -/
theorem unsignedTerm_ne_minValue (rules : Rules) (h : ∀ t ∈ s.tokens, t.Written) :
    ((unsignedTerm rules).run s).1 ≠ .literal (.integer Int64.minValue) := by
  intro hLeast
  rcases unsignedTerm_cases rules s with ⟨t, ts, value, hTokens, hValue, hTerm⟩ | hNone
  · have hWritten := h t (by rw [hTokens]; exact List.mem_cons_self)
    obtain rfl := Term.literal.inj (hTerm.symm.trans hLeast)
    exact ne_minValue_of_nonneg (hWritten.integer _ (kind_of_literalOf? hValue)) rfl
  · rw [hLeast] at hNone
    cases hNone

/-- A term goes on behind its signs. -/
theorem run_term (rules : Rules) (h : s.tokens = signs ++ rest) (hSigns : ∀ t ∈ signs, IsSign t)
    (hRest : ∀ t ∈ rest.head?, ¬ IsSign t) :
    (term rules).run s =
      ((signs.map isMinus).foldr applySign ((unsignedTerm rules).run (s.takeAll signs)).1,
        ((unsignedTerm rules).run (s.takeAll signs)).2) := by
  have hChain : (chain signOf? pure).run s = (signs.map isMinus, s.takeAll signs) :=
    chainFrom_signOf? h hSigns hRest
  rw [term, run_bind, hChain]
  rfl

/-- **A run of signs folds into the term behind it.** -/
theorem folded_term (rules : Rules) (hWritten : ∀ t ∈ s.tokens, t.Written)
    (h : s.tokens = signs ++ rest) (hSigns : ∀ t ∈ signs, IsSign t)
    (hRest : ∀ t ∈ rest.head?, ¬ IsSign t) :
    Folded signs rest ((unsignedTerm rules).run (s.takeAll signs)).1 ((term rules).run s).1 := by
  have hTokens := tokens_takeAll h
  rw [run_term rules h hSigns hRest]
  have hLiteral : ∀ t value, rest.head? = some t → literalOf? t = some value →
      ((unsignedTerm rules).run (s.takeAll signs)).1 = .literal value := by
    intro t value hHead hValue
    rw [run_unsignedTerm_literal (hTokens.trans (List.eq_cons_of_mem_head? hHead)) hValue]
  refine ⟨fun t n hHead hKind => ?_, fun t x hHead hKind => ?_, fun hOther => ?_⟩
  · have hPlain := hLiteral t (.integer n) hHead (by rw [literalOf?, hKind])
    have hMem : t ∈ s.tokens := h ▸ List.mem_append_right _ (List.mem_of_mem_head? hHead)
    have hNe := ne_minValue_of_nonneg ((hWritten t hMem).integer n hKind)
    rw [hPlain]
    exact ⟨rfl, _, (foldr_applySign_integer _ n).1, (toInt_foldSigns hNe signs).1⟩
  · have hPlain := hLiteral t (.float x) hHead (by rw [literalOf?, hKind])
    rw [hPlain]
    exact ⟨rfl, foldr_applySign_float_eq x signs⟩
  · have hNumber := isNumber_unsignedTerm rules (s := s.takeAll signs) (by rwa [hTokens])
    exact (foldr_applySign hNumber).1.trans List.foldr_map

theorem run_term? (rules : Rules) (hWritten : ∀ t ∈ s.tokens, t.Written) :
    (term? rules).run s = (some ((term rules).run s).1, ((term rules).run s).2) := by
  have hBehind : ∀ t ∈ ((chain signOf? pure).run s).2.tokens, t.Written := fun t ht =>
    hWritten t (((chain signOf? pure).moves s).suffix.subset ht)
  have hFold := (foldrM_applySign? (unsignedTerm_ne_minValue rules hBehind)
    ((chain signOf? pure).run s).1).1
  exact Prod.ext hFold rfl

/-- A reader that accepts the same tokens, and with them what is there, comes to the same. -/
theorem run_ask_some_of {α : Type} {expected : Expected} {standIn : α} {accept : Token → Option α}
    {accept' : Token → Option (Option α)}
    (h : ∀ t ∈ s.tokens.head?, accept' t = (accept t).map some) :
    (ask expected (some standIn) accept').run s =
      (some ((ask expected standIn accept).run s).1, ((ask expected standIn accept).run s).2) := by
  simp only [ask, run_bind]
  cases hTokens : s.tokens with
  | nil =>
    rw [run_take?_nil hTokens, run_take?_nil hTokens]
    rfl
  | cons t ts =>
    have hSame := h t (by rw [hTokens]; rfl)
    cases hAccept : accept t with
    | none =>
      rw [hAccept] at hSame
      rw [run_take?_none hTokens hSame, run_take?_none hTokens hAccept]
      rfl
    | some a =>
      rw [hAccept] at hSame
      rw [run_take?_some hTokens hSame, run_take?_some hTokens hAccept]
      rfl

theorem run_signed? (expected : Expected) (hWritten : ∀ t ∈ s.tokens, t.Written) :
    (signed? expected).run s =
      (some ((signed expected).run s).1, ((signed expected).run s).2) := by
  rw [signed?, signed, run_bind, run_bind]
  refine run_ask_some_of fun t ht => ?_
  have hMem := ((eat .minus).moves s).suffix.subset (List.mem_of_mem_head? ht)
  cases hKind : t.kind with
  | integer n =>
    have hNegated : negated? n = some (-n) :=
      if_neg (ne_minValue_of_nonneg ((hWritten t hMem).integer n hKind))
    cases ((eat .minus).run s).1
    · rfl
    · exact congrArg some hNegated
  | float | string | identifier | keyword | symbol | unknown | endOfInput => rfl

end Grammar

open Grammar

/-- **Signs fold exactly, and no negation overflows.** At every place `s` that the reading of a
statement can come to, a run of signs folds into the term behind it (`Folded`), and reading goes on
where that term ends. The readers that negate integers do the same with the overflow looked for,
and none is found. -/
theorem parse_signs (text : String) (seg : Segment) (hSegment : seg ∈ segments text)
    (bindings : Bindings) (s : State) (hMoves : Moves (seg.start bindings) s) (rules : Rules) :
    (∀ signs rest, s.tokens = signs ++ rest → (∀ t ∈ signs, IsSign t) →
      (∀ t ∈ rest.head?, ¬ IsSign t) →
      Folded signs rest ((unsignedTerm rules).run (s.takeAll signs)).1 ((term rules).run s).1 ∧
        ((term rules).run s).2 = ((unsignedTerm rules).run (s.takeAll signs)).2) ∧
    (term? rules).run s = (some ((term rules).run s).1, ((term rules).run s).2) ∧
    ∀ expected, (signed? expected).run s =
      (some ((signed expected).run s).1, ((signed expected).run s).2) := by
  have hWritten : ∀ t ∈ s.tokens, t.Written := fun t ht =>
    written_tokensOf t (segments_mem hSegment (hMoves.suffix.subset ht))
  refine ⟨fun signs rest hTokens hSigns hRest => ?_, run_term? rules hWritten,
    fun expected => run_signed? expected hWritten⟩
  refine ⟨folded_term rules hWritten hTokens hSigns hRest, ?_⟩
  rw [run_term rules hTokens hSigns hRest]

/-- The greatest integer behind an even number of minuses. -/
def sampleSigned : Segment := (segments "SELECT - + - 9223372036854775807").headD default

theorem parse_signs_sampleSigned :
    ((term (.forTokens sampleSigned.tokens.length)).run
      ((sampleSigned.start []).take sampleSigned.first sampleSigned.rest)).1 =
      .literal (.integer 9223372036854775807) := by
  have hSegment : sampleSigned ∈ segments "SELECT - + - 9223372036854775807" := by decide +kernel
  have hHead : (sampleSigned.rest.drop 3).head? = some (sampleSigned.rest.getD 3 default) := by
    decide +kernel
  have hKind : (sampleSigned.rest.getD 3 default).kind = .integer 9223372036854775807 := by
    decide +kernel
  have hCount : (sampleSigned.rest.take 3).countP isMinus = 2 := by decide +kernel
  obtain ⟨hFolded, -⟩ := (parse_signs _ sampleSigned hSegment [] _ (Move.take rfl).moves _).1
    (sampleSigned.rest.take 3) (sampleSigned.rest.drop 3) (List.take_append_drop ..).symm
    (by decide +kernel) (by rw [hHead]; decide +kernel)
  obtain ⟨-, m, hTerm, hValue⟩ := hFolded.integer _ _ hHead hKind
  obtain rfl : m = 9223372036854775807 := Int64.toInt_inj.mp (by rw [hValue, hCount]; decide)
  exact hTerm

end SqlKit
