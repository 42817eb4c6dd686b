import SqlKit.Proofs.Grammar.Running

/-!
# Declarations as far as they are written

A parameter with a colon behind its name is declared even where names are missing: the reader notes
the error and goes on with the empty name. An `Attempt` is such a declaration, with the names that
are there; `attempts` finds them in a row of tokens without reading anything else, and
`attemptAt?_of_run` says that these are what the reader comes to.
-/

namespace SqlKit

/-- A declaration as far as it is written: the name behind the sign, and the names behind the colon,
with points between them. -/
structure Attempt where
  name? : Option String
  parts : List (Option String)
  deriving Repr, DecidableEq, Inhabited

namespace Attempt

/-- The name, which is empty if it is missing. -/
def name (a : Attempt) : String := a.name?.getD ""

/-- The type, with nothing in place of the names that are missing. -/
def typeName (a : Attempt) : String := ".".intercalate (a.parts.map (·.getD ""))

/-- No name is missing. -/
def Complete (a : Attempt) : Prop := a.name?.isSome ∧ ∀ part ∈ a.parts, part.isSome

instance (a : Attempt) : Decidable a.Complete :=
  inferInstanceAs (Decidable (a.name?.isSome ∧ ∀ part ∈ a.parts, part.isSome))

end Attempt

open Grammar

/-- The name that is next. -/
def nextName? (ts : List Token) : Option String := ts.head?.bind nameOf?

/-- What is behind the name that is next, if one is. -/
def behindName : List Token → List Token
  | [] => []
  | t :: rest => if (nameOf? t).isSome then rest else t :: rest

/-- The names behind points at the start of some tokens, as far as they are there. -/
def pointedNames : List Token → List (Option String)
  | point :: next :: rest =>
    if point.kind = .symbol .dot then
      match nameOf? next with
      | some name => some name :: pointedNames rest
      | none => none :: pointedNames (next :: rest)
    else []
  | [point] => if point.kind = .symbol .dot then [none] else []
  | [] => []

/-- The names of the type behind a colon at the start of some tokens, as far as they are there. -/
def typeParts? : List Token → Option (List (Option String))
  | colon :: rest =>
    if colon.kind = .symbol .colon then some (nextName? rest :: pointedNames (behindName rest))
    else none
  | [] => none

/-- The declaration at the start of some tokens. -/
def attemptAt? : List Token → Option Attempt
  | mark :: rest =>
    if mark.kind = .symbol .atSign then (typeParts? (behindName rest)).map (.mk (nextName? rest))
    else none
  | [] => none

/-- The declarations among some tokens, in order. -/
def attempts : List Token → List Attempt
  | [] => []
  | t :: rest => (attemptAt? (t :: rest)).toList ++ attempts rest

/-- Only at a sign there is a declaration. -/
theorem attempts_cons {t : Token} (h : t.kind ≠ .symbol .atSign) (rest : List Token) :
    attempts (t :: rest) = attempts rest := by
  rw [attempts, attemptAt?, if_neg h]
  rfl

theorem attempts_append_of_ne {ts rest : List Token} (h : ∀ t ∈ ts, t.kind ≠ .symbol .atSign) :
    attempts (ts ++ rest) = attempts rest := by
  induction ts with
  | nil => rfl
  | cons t ts ih =>
    obtain ⟨hHead, hTail⟩ := List.forall_mem_cons.mp h
    rw [List.cons_append, attempts_cons hHead, ih hTail]

theorem mem_attempts {a : Attempt} {ts us : List Token} (hSuffix : us <:+ ts)
    (h : attemptAt? us = some a) : a ∈ attempts ts := by
  induction ts with
  | nil =>
    rw [List.suffix_nil.mp hSuffix] at h
    cases h
  | cons t ts ih =>
    rw [attempts, List.mem_append]
    rcases List.suffix_cons_iff.mp hSuffix with rfl | hSuffix
    · exact .inl (Option.mem_toList.mpr h)
    · exact .inr (ih hSuffix)

theorem pointedNames_cons {point : Token} (h : point.kind = .symbol .dot) (rest : List Token) :
    pointedNames (point :: rest) = nextName? rest :: pointedNames (behindName rest) := by
  cases rest with
  | nil => rw [pointedNames, if_pos h]; rfl
  | cons next rest =>
    rw [pointedNames, if_pos h, nextName?, List.head?_cons, Option.bind_some, behindName]
    cases nameOf? next <;> rfl

theorem pointedNames_of_ne {ts : List Token} (h : ∀ t ∈ ts.head?, t.kind ≠ .symbol .dot) :
    pointedNames ts = [] := by
  rcases ts with _ | ⟨t, _ | ⟨u, rest⟩⟩
  · rfl
  · rw [pointedNames, if_neg (h t rfl)]
  · rw [pointedNames, if_neg (h t rfl)]

theorem typeParts?_eq_none {ts : List Token}
    (h : ∀ t rest, ts = t :: rest → t.kind ≠ .symbol .colon) : typeParts? ts = none := by
  cases ts with
  | nil => rfl
  | cons t rest => rw [typeParts?, if_neg (h t rest rfl)]

/-! ## Tokens that no declaration goes on with -/

/-- A token that is no part of a declaration, unless one starts with it. -/
structure Token.Stops (t : Token) : Prop where
  name : nameOf? t = none
  dot : t.kind ≠ .symbol .dot
  colon : t.kind ≠ .symbol .colon

theorem stops_semicolon {t : Token} (h : t.kind = .symbol .semicolon) : t.Stops :=
  ⟨by simp [nameOf?, h], by simp [h], by simp [h]⟩

theorem stops_atSign {t : Token} (h : t.kind = .symbol .atSign) : t.Stops :=
  ⟨by simp [nameOf?, h], by simp [h], by simp [h]⟩

section Stops

variable {t : Token} (h : t.Stops) (us : List Token)

include h

theorem nextName?_append (ts : List Token) : nextName? (ts ++ t :: us) = nextName? ts := by
  cases ts with
  | nil => exact h.name
  | cons u ts => rfl

theorem behindName_append (ts : List Token) :
    behindName (ts ++ t :: us) = behindName ts ++ t :: us := by
  cases ts with
  | nil => simp [behindName, h.name]
  | cons u ts =>
    rw [List.cons_append, behindName, behindName]
    split <;> rfl

theorem pointedNames_append (ts : List Token) :
    pointedNames (ts ++ t :: us) = pointedNames ts := by
  fun_induction pointedNames ts with
  | case1 point next rest hPoint name hName ih =>
    rw [List.cons_append, List.cons_append, pointedNames, if_pos hPoint, hName]
    exact congrArg (some name :: ·) ih
  | case2 point next rest hPoint hName ih =>
    rw [List.cons_append, List.cons_append, pointedNames, if_pos hPoint, hName]
    exact congrArg (none :: ·) ih
  | case3 point next rest hPoint =>
    rw [List.cons_append, List.cons_append, pointedNames, if_neg hPoint]
  | case4 point hPoint =>
    rw [List.cons_append, List.nil_append, pointedNames_cons hPoint, nextName?, List.head?_cons,
      Option.bind_some, h.name, behindName, h.name, if_neg (by simp), pointedNames_of_ne]
    simpa using h.dot
  | case5 point hPoint => rw [List.cons_append, List.nil_append, pointedNames, if_neg hPoint]
  | case6 => exact pointedNames_of_ne (by simpa using h.dot)

theorem typeParts?_append (ts : List Token) : typeParts? (ts ++ t :: us) = typeParts? ts := by
  cases ts with
  | nil => exact if_neg h.colon
  | cons u ts =>
    rw [List.cons_append, typeParts?, typeParts?, nextName?_append h, behindName_append h,
      pointedNames_append h]

theorem attemptAt?_append (u : Token) (ts : List Token) :
    attemptAt? (u :: (ts ++ t :: us)) = attemptAt? (u :: ts) := by
  rw [attemptAt?, attemptAt?, nextName?_append h, behindName_append h, typeParts?_append h]

/-- No declaration goes on behind such a token. -/
theorem attempts_append (ts : List Token) :
    attempts (ts ++ t :: us) = attempts ts ++ attempts (t :: us) := by
  induction ts with
  | nil => rfl
  | cons u ts ih =>
    rw [List.cons_append, attempts, attempts, attemptAt?_append h, ih, List.append_assoc]

end Stops

/-! ## Runs -/

namespace Grammar

open Parse

/-- What is read of a type behind a colon, if there is one. -/
def writtenType : Parse (Option String) := do
  if ← eat .colon then
    let first ← name .type
    return some (".".intercalate (first :: (← dottedRest .type)))
  else return none

/-- What is made of a parameter whose name and type are read. -/
def resolve (mark : Span) (name : String) : Option String → Parse Term
  | some typeName => do
    declare name.toLower typeName
    return .parameter ⟨name, typeName, true, ← spanFrom mark⟩
  | none => do
    match ← declaredType? name.toLower with
    | some typeName => return .parameter ⟨name, typeName, false, ← spanFrom mark⟩
    | none =>
      failUntyped mark.first name
      return .parameter ⟨name, "", false, ← spanFrom mark⟩

theorem parameterOf_eq (mark : Span) (name : String) :
    parameterOf mark name = writtenType >>= resolve mark name := by
  refine Parse.ext fun s => ?_
  simp only [parameterOf, writtenType, run_bind]
  cases ((eat .colon).run s).1 <;> rfl

/-- A name that is asked for is the next one, or empty. -/
theorem run_name (role : NameRole) (s : State) :
    ((name role).run s).1 = (nextName? s.tokens).getD "" ∧
      ((name role).run s).2.tokens = behindName s.tokens := by
  simp only [name, ask, run_bind]
  cases hTokens : s.tokens with
  | nil =>
    rw [run_take?_nil hTokens]
    exact ⟨rfl, by simp [fail, hTokens, behindName]⟩
  | cons t rest =>
    cases hName : nameOf? t with
    | none =>
      rw [run_take?_none hTokens hName]
      simpa [nextName?, behindName, hName, fail] using hTokens
    | some n =>
      rw [run_take?_some hTokens hName]
      simp [nextName?, behindName, hName, State.take]

/-- A name that is asked for is the next token, or an error is noted. -/
theorem head?_of_run_name {role : NameRole} {s : State}
    (h : ((name role).run s).2.error = none) :
    ∃ t, s.tokens.head? = some t ∧ nameOf? t = some ((name role).run s).1 := by
  simp only [name, ask, run_bind] at h ⊢
  have hFail : ∀ u : State, ((fail (.name role)).run u).2.error ≠ none := fun u hNone => by
    simp [fail, State.error_note] at hNone
  cases hTokens : s.tokens with
  | nil =>
    rw [run_take?_nil hTokens] at h
    exact absurd h (hFail s)
  | cons t rest =>
    cases hName : nameOf? t with
    | none =>
      rw [run_take?_none hTokens hName] at h
      exact absurd h (hFail s)
    | some n =>
      rw [run_take?_some hTokens hName]
      exact ⟨t, rfl, hName⟩

theorem run_dottedRest (role : NameRole) (s : State) :
    ((dottedRest role).run s).1 = (pointedNames s.tokens).map (·.getD "") := by
  simp only [dottedRest, chainOf, chain]
  fun_induction chainFrom (fun t => if t.kind = .symbol .dot then some () else none)
    (fun _ => name role) s with
  | case1 s hTokens => rw [hTokens]; rfl
  | case2 s t rest hTokens hAccept =>
    have hPoint : t.kind ≠ .symbol .dot := by
      intro hKind
      simp [hKind] at hAccept
    rw [hTokens, pointedNames_of_ne (by simpa using hPoint)]
    rfl
  | case3 s t rest hTokens b hAccept after more ih =>
    have hPoint : t.kind = .symbol .dot := by
      by_contra hKind
      simp [hKind] at hAccept
    obtain ⟨hName, hBehind⟩ := run_name role (s.take t rest)
    rw [hTokens, pointedNames_cons hPoint, List.map_cons]
    rw [show after.2.tokens = behindName rest from hBehind] at ih
    exact List.cons_eq_cons.mpr ⟨hName, ih⟩

theorem run_writtenType (s : State) :
    (writtenType.run s).1 = (typeParts? s.tokens).map fun parts =>
      ".".intercalate (parts.map (·.getD "")) := by
  by_cases hColon : ∃ t rest, s.tokens = t :: rest ∧ t.kind = .symbol .colon
  · obtain ⟨t, rest, hTokens, hColon⟩ := hColon
    obtain ⟨hName, hBehind⟩ := run_name .type (s.take t rest)
    have hRest := run_dottedRest .type ((name .type).run (s.take t rest)).2
    rw [hBehind] at hRest
    simp only [writtenType, eat, run_bind, run_eatKind_cons hTokens hColon, ↓reduceIte, hName,
      hRest]
    rw [hTokens, typeParts?, if_pos hColon]
    rfl
  · have hNone : ∀ t ∈ s.tokens.head?, t.kind ≠ .symbol .colon := by
      intro t ht hKind
      obtain ⟨rest, hTokens⟩ := List.head?_eq_some_iff.mp ht
      exact hColon ⟨t, rest, hTokens, hKind⟩
    simp only [writtenType, eat, run_bind, run_eatKind_of_ne hNone]
    cases hTokens : s.tokens with
    | nil => rfl
    | cons t rest =>
      rw [typeParts?, if_neg (hNone t (by rw [hTokens]; rfl))]
      rfl

/-- What is read of a parameter with a type is the declaration that stands there. -/
theorem attemptAt?_of_run {s : State} {mark : Token} {rest : List Token} {typeName : String}
    (hTokens : s.tokens = mark :: rest) (hMark : mark.kind = .symbol .atSign)
    (hType : (writtenType.run ((name .parameter).run (s.take mark rest)).2).1 = some typeName) :
    ∃ a, attemptAt? s.tokens = some a ∧ a.typeName = typeName ∧
      a.name = ((name .parameter).run (s.take mark rest)).1 := by
  obtain ⟨hName, hBehind⟩ := run_name .parameter (s.take mark rest)
  rw [run_writtenType, hBehind, Option.map_eq_some_iff] at hType
  obtain ⟨parts, hParts, rfl⟩ := hType
  refine ⟨⟨nextName? rest, parts⟩, ?_, rfl, hName.symm⟩
  rw [hTokens, attemptAt?, if_pos hMark, show typeParts? (behindName rest) = some parts from hParts]
  rfl

end Grammar

end SqlKit
