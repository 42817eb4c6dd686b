import SqlKit.Proofs.Grammar.Attempts
import SqlKit.Proofs.Rendering.After
import SqlKit.Proofs.Syntax.Parameters

/-!
# Parameters among tokens

`occurrences` finds the parameters with a name in a row of tokens, without reading anything else of
them: a sign `@`, a name, and perhaps a colon and a dotted type. What such a parameter means is said
from the front, by the types declared before it (`Bound`), and in hindsight, by the last declaration
of its name (`LastType`); `lookup_declarations` shows that the two agree.
-/

namespace SqlKit

/-- A parameter with a name as it is written. -/
structure Occurrence where
  name : String
  /-- The type behind its colon, the names of it joined with points. -/
  typeName? : Option String
  /-- Where its sign starts. -/
  position : Position
  deriving Repr, DecidableEq, Inhabited

open Grammar

/-- The names behind points at the start of some tokens. -/
def dottedNames : List Token → List String
  | point :: next :: rest =>
    if point.kind = .symbol .dot then
      match nameOf? next with
      | some name => name :: dottedNames rest
      | none => []
    else []
  | _ => []

/-- The type behind a colon at the start of some tokens. -/
def typeBehind? : List Token → Option String
  | colon :: first :: rest =>
    if colon.kind = .symbol .colon then
      (nameOf? first).map fun name => ".".intercalate (name :: dottedNames rest)
    else none
  | _ => none

theorem typeBehind?_eq_none {ts : List Token}
    (h : ∀ t rest, ts = t :: rest → t.kind ≠ .symbol .colon) : typeBehind? ts = none := by
  rcases ts with _ | ⟨t, _ | ⟨u, rest⟩⟩
  · rfl
  · rfl
  · rw [typeBehind?, if_neg (h t _ rfl)]

/-- The parameter at the start of some tokens. -/
def occurrenceAt? : List Token → Option Occurrence
  | mark :: next :: rest =>
    if mark.kind = .symbol .atSign then
      (nameOf? next).map fun name => ⟨name, typeBehind? rest, mark.span.first⟩
    else none
  | _ => none

/-- The parameters with a name among some tokens, in order. -/
def occurrences : List Token → List Occurrence
  | [] => []
  | t :: rest => (occurrenceAt? (t :: rest)).toList ++ occurrences rest

/-- Only at a sign there is a parameter. -/
theorem occurrences_cons {t : Token} (h : t.kind ≠ .symbol .atSign) (rest : List Token) :
    occurrences (t :: rest) = occurrences rest := by
  have hNone : occurrenceAt? (t :: rest) = none := by
    cases rest with
    | nil => rfl
    | cons u rest => rw [occurrenceAt?, if_neg h]
  rw [occurrences, hNone]
  rfl

theorem occurrences_append_of_ne {ts rest : List Token} (h : ∀ t ∈ ts, t.kind ≠ .symbol .atSign) :
    occurrences (ts ++ rest) = occurrences rest := by
  induction ts with
  | nil => rfl
  | cons t ts ih =>
    obtain ⟨hHead, hTail⟩ := List.forall_mem_cons.mp h
    rw [List.cons_append, occurrences_cons hHead, ih hTail]

/-- A name is no sign. -/
theorem ne_atSign_of_nameOf? {t : Token} {name : String} (h : nameOf? t = some name) :
    t.kind ≠ .symbol .atSign := by
  intro hKind
  simp [nameOf?, hKind] at h

/-! ## Tokens that no parameter goes on with -/

section Stops

variable {t : Token} (h : t.Stops) (us : List Token)

include h

theorem dottedNames_append (ts : List Token) : dottedNames (ts ++ t :: us) = dottedNames ts := by
  fun_induction dottedNames ts with
  | case1 point next rest hPoint name hName ih =>
    rw [List.cons_append, List.cons_append, dottedNames, if_pos hPoint, hName]
    exact congrArg (name :: ·) ih
  | case2 point next rest hPoint hName =>
    rw [List.cons_append, List.cons_append, dottedNames, if_pos hPoint, hName]
  | case3 point next rest hPoint =>
    rw [List.cons_append, List.cons_append, dottedNames, if_neg hPoint]
  | case4 ts hShort =>
    match ts, hShort with
    | [], _ =>
      cases us with
      | nil => rfl
      | cons u us => simp [dottedNames, h.dot]
    | [u], _ => simp [dottedNames, h.name]
    | u :: v :: rest, hShort => exact absurd rfl (hShort u v rest)

theorem typeBehind?_append (ts : List Token) : typeBehind? (ts ++ t :: us) = typeBehind? ts := by
  match ts with
  | [] =>
    cases us with
    | nil => rfl
    | cons u us => simp [typeBehind?, h.colon]
  | [u] => simp [typeBehind?, h.name]
  | u :: v :: rest =>
    rw [List.cons_append, List.cons_append, typeBehind?, typeBehind?, dottedNames_append h]

theorem occurrenceAt?_append (u : Token) (ts : List Token) :
    occurrenceAt? (u :: (ts ++ t :: us)) = occurrenceAt? (u :: ts) := by
  cases ts with
  | nil => simp [occurrenceAt?, h.name]
  | cons v rest => rw [List.cons_append, occurrenceAt?, occurrenceAt?, typeBehind?_append h]

/-- No parameter goes on behind such a token. -/
theorem occurrences_append (ts : List Token) :
    occurrences (ts ++ t :: us) = occurrences ts ++ occurrences (t :: us) := by
  induction ts with
  | nil => rfl
  | cons u ts ih =>
    rw [List.cons_append, occurrences, occurrences, occurrenceAt?_append h, ih, List.append_assoc]

end Stops

theorem mark_of_occurrenceAt? {t : Token} {ts : List Token} {o : Occurrence}
    (h : occurrenceAt? (t :: ts) = some o) :
    t.kind = .symbol .atSign ∧ t.span.first = o.position := by
  cases ts with
  | nil => cases h
  | cons u ts =>
    rw [occurrenceAt?] at h
    split at h
    · next hMark =>
      obtain ⟨name, -, rfl⟩ := Option.map_eq_some_iff.mp h
      exact ⟨hMark, rfl⟩
    · cases h

/-- In front of a parameter stand those that are written in front of its sign. -/
theorem exists_split_of_occurrences {ts : List Token} {earlier later : List Occurrence}
    {o : Occurrence} (h : occurrences ts = earlier ++ o :: later) :
    ∃ front mark back, ts = front ++ mark :: back ∧ mark.kind = .symbol .atSign ∧
      mark.span.first = o.position ∧ occurrences front = earlier := by
  induction ts generalizing earlier with
  | nil => simp [occurrences] at h
  | cons t ts ih =>
    rw [occurrences] at h
    cases hAt : occurrenceAt? (t :: ts) with
    | none =>
      rw [hAt] at h
      obtain ⟨front, mark, back, rfl, hKind, hPlace, rfl⟩ := ih h
      refine ⟨t :: front, mark, back, rfl, hKind, hPlace, ?_⟩
      rw [occurrences, ← occurrenceAt?_append (stops_atSign hKind), hAt]
      rfl
    | some first =>
      rw [hAt] at h
      cases earlier with
      | nil =>
        obtain ⟨rfl, -⟩ := List.cons.inj h
        obtain ⟨hKind, hPlace⟩ := mark_of_occurrenceAt? hAt
        exact ⟨[], t, ts, rfl, hKind, hPlace, rfl⟩
      | cons first' earlier =>
        obtain ⟨rfl, hRest⟩ := List.cons.inj h
        obtain ⟨front, mark, back, rfl, hKind, hPlace, rfl⟩ := ih hRest
        refine ⟨t :: front, mark, back, rfl, hKind, hPlace, ?_⟩
        rw [occurrences, ← occurrenceAt?_append (stops_atSign hKind), hAt]
        rfl

/-! ## Parameters and declarations as far as they are written -/

/-- Names behind points of which none is missing. -/
theorem pointedNames_eq {ts : List Token} (h : ∀ part ∈ pointedNames ts, part.isSome = true) :
    pointedNames ts = (dottedNames ts).map some := by
  fun_induction dottedNames ts with
  | case1 point next rest hPoint name hName ih =>
    rw [pointedNames, if_pos hPoint, hName] at h ⊢
    exact congrArg (some name :: ·) (ih (List.forall_mem_cons.mp h).2)
  | case2 point next rest hPoint hName =>
    rw [pointedNames, if_pos hPoint, hName] at h
    exact absurd (h none List.mem_cons_self) (by simp)
  | case3 point next rest hPoint => rw [pointedNames, if_neg hPoint]; rfl
  | case4 ts hShort =>
    rcases ts with _ | ⟨u, _ | ⟨v, rest⟩⟩
    · rfl
    · rw [pointedNames] at h ⊢
      split at h
      · exact absurd (h none List.mem_cons_self) (by simp)
      · next hPoint => rw [if_neg hPoint]; rfl
    · exact absurd rfl (hShort u v rest)

/-- A type that is written as a whole. -/
theorem typeBehind?_of_parts {ts : List Token} {parts : List (Option String)}
    (hParts : typeParts? ts = some parts) (h : ∀ part ∈ parts, part.isSome = true) :
    typeBehind? ts = some (".".intercalate (parts.map (·.getD ""))) := by
  cases ts with
  | nil => cases hParts
  | cons colon rest =>
    rw [typeParts?] at hParts
    split at hParts
    · next hColon =>
      obtain rfl := Option.some.inj hParts
      obtain ⟨hFirst, hRest⟩ := List.forall_mem_cons.mp h
      cases rest with
      | nil => cases hFirst
      | cons first rest =>
        obtain ⟨name, hName⟩ := Option.isSome_iff_exists.mp hFirst
        have hName' : nameOf? first = some name := hName
        have hBehind : behindName (first :: rest) = rest := by simp [behindName, hName']
        rw [hBehind] at hRest
        rw [typeBehind?, if_pos hColon, hName', hBehind, pointedNames_eq hRest, hName]
        simp [Function.comp_def]
    · cases hParts

/-- What stands at a sign as a declaration of which nothing is missing is a parameter with this
type. -/
theorem Attempt.Complete.occurrenceAt? {ts : List Token} {a : Attempt} (h : a.Complete)
    (hAttempt : attemptAt? ts = some a) : ∃ o, SqlKit.occurrenceAt? ts = some o ∧ o.name = a.name ∧
      o.typeName? = some a.typeName := by
  cases ts with
  | nil => cases hAttempt
  | cons mark rest =>
    rw [attemptAt?] at hAttempt
    split at hAttempt
    · next hMark =>
      obtain ⟨parts, hParts, rfl⟩ := Option.map_eq_some_iff.mp hAttempt
      obtain ⟨hName, hType⟩ := h
      cases rest with
      | nil => cases hName
      | cons next rest =>
        obtain ⟨name, hNext⟩ := Option.isSome_iff_exists.mp hName
        have hNext' : nameOf? next = some name := hNext
        have hBehind : behindName (next :: rest) = rest := by simp [behindName, hNext']
        rw [hBehind] at hParts
        refine ⟨⟨name, typeBehind? rest, mark.span.first⟩, ?_, ?_,
          typeBehind?_of_parts hParts hType⟩
        · rw [SqlKit.occurrenceAt?, if_pos hMark, hNext']
          rfl
        · rw [Attempt.name, hNext]
          rfl
    · cases hAttempt

/-- Behind a parameter with a type stands a declaration, as far as it is written. -/
theorem exists_attemptAt? {ts : List Token} {o : Occurrence} {typeName : String}
    (h : occurrenceAt? ts = some o) (hType : o.typeName? = some typeName) :
    ∃ a, attemptAt? ts = some a := by
  rcases ts with _ | ⟨mark, _ | ⟨next, rest⟩⟩
  · cases h
  · cases h
  · rw [occurrenceAt?] at h
    split at h
    · next hMark =>
      obtain ⟨name, hName, rfl⟩ := Option.map_eq_some_iff.mp h
      have hBehind : behindName (next :: rest) = rest := by simp [behindName, hName]
      rcases rest with _ | ⟨colon, _ | ⟨first, rest⟩⟩
      · cases hType
      · cases hType
      · rw [typeBehind?] at hType
        split at hType
        · next hColon =>
          rw [attemptAt?, if_pos hMark, hBehind, typeParts?, if_pos hColon]
          exact ⟨_, rfl⟩
        · cases hType
    · cases h

/-- The parameters that are declared by declarations of which nothing is missing. -/
theorem exists_occurrence_of_attempts {ts : List Token} {a : Attempt} (ha : a ∈ attempts ts)
    (h : a.Complete) : ∃ o ∈ occurrences ts, o.name = a.name ∧ o.typeName? = some a.typeName := by
  induction ts with
  | nil => cases ha
  | cons t ts ih =>
    rw [attempts, List.mem_append, Option.mem_toList] at ha
    rw [occurrences]
    rcases ha with hAt | hLater
    · obtain ⟨o, ho, hSame⟩ := h.occurrenceAt? hAt
      exact ⟨o, List.mem_append_left _ (Option.mem_toList.mpr ho), hSame⟩
    · obtain ⟨o, ho, hSame⟩ := ih hLater
      exact ⟨o, List.mem_append_right _ ho, hSame⟩

/-- Where nothing is missing, a parameter with a type is a declaration. -/
theorem exists_attempt_of_occurrences {ts : List Token} {o : Occurrence} {typeName : String}
    (hComplete : ∀ a ∈ attempts ts, a.Complete) (ho : o ∈ occurrences ts)
    (hType : o.typeName? = some typeName) :
    ∃ a ∈ attempts ts, a.name = o.name ∧ a.typeName = typeName := by
  induction ts with
  | nil => cases ho
  | cons t ts ih =>
    rw [occurrences, List.mem_append, Option.mem_toList] at ho
    rw [attempts] at hComplete ⊢
    rcases ho with hAt | hLater
    · obtain ⟨a, ha⟩ := exists_attemptAt? hAt hType
      have hMem := List.mem_append_left (attempts ts) (Option.mem_toList.mpr ha)
      obtain ⟨o', ho', hName, hType'⟩ := (hComplete a hMem).occurrenceAt? ha
      obtain rfl := Option.some.inj (hAt.symm.trans ho')
      exact ⟨a, hMem, hName.symm, Option.some.inj (hType'.symm.trans hType)⟩
    · obtain ⟨a, ha, hSame⟩ := ih (fun a ha => hComplete a (List.mem_append_right _ ha)) hLater
      exact ⟨a, List.mem_append_right _ ha, hSame⟩

/-! ## Declarations -/

/-- The types that are known behind a parameter. -/
def Occurrence.declare (bindings : Bindings) (o : Occurrence) : Bindings :=
  match o.typeName? with
  | some typeName => (o.name.toLower, typeName) :: bindings
  | none => bindings

/-- The types that some parameters declare, on top of those that are known before them. -/
def declarations (bindings : Bindings) (os : List Occurrence) : Bindings :=
  os.foldl Occurrence.declare bindings

@[simp] theorem declarations_nil (bindings : Bindings) : declarations bindings [] = bindings := rfl

theorem declarations_cons (bindings : Bindings) (o : Occurrence) (os : List Occurrence) :
    declarations bindings (o :: os) = declarations (o.declare bindings) os := rfl

theorem declarations_append (bindings : Bindings) (os ps : List Occurrence) :
    declarations bindings (os ++ ps) = declarations (declarations bindings os) ps :=
  List.foldl_append

/-- The last of some parameters that has this name, in any letter case, and a type, has this
type. -/
def LastType (os : List Occurrence) (name typeName : String) : Prop :=
  ∃ before o after, os = before ++ o :: after ∧ Text.sameName o.name name ∧
    o.typeName? = some typeName ∧
    ∀ x ∈ after, Text.sameName x.name name → x.typeName? = none

/-- A parameter at the end that declares nothing for the name changes nothing. -/
theorem lastType_concat {os : List Occurrence} {o : Occurrence} {name typeName : String}
    (h : Text.sameName o.name name → o.typeName? = none) :
    LastType (os ++ [o]) name typeName ↔ LastType os name typeName := by
  constructor
  · rintro ⟨before, d, after, hSplit, hName, hType, hAfter⟩
    rcases List.eq_nil_or_concat after with rfl | ⟨after, x, rfl⟩
    · obtain ⟨-, hLast⟩ := List.append_inj' hSplit rfl
      obtain rfl := List.singleton_inj.mp hLast
      exact nomatch (h hName).symm.trans hType
    · have hSplit' : os ++ [o] = (before ++ d :: after) ++ [x] := by simp [hSplit]
      obtain ⟨rfl, -⟩ := List.append_inj' hSplit' rfl
      exact ⟨before, d, after, rfl, hName, hType, fun y hy => hAfter y (by simp [hy])⟩
  · rintro ⟨before, d, after, rfl, hName, hType, hAfter⟩
    refine ⟨before, d, after ++ [o], by simp, hName, hType, fun x hx => ?_⟩
    rcases List.mem_append.mp hx with hx | hx
    · exact hAfter x hx
    · rw [List.mem_singleton.mp hx]
      exact h

/-- A parameter at the end with a type for the name declares it. -/
theorem lastType_concat_typed {os : List Occurrence} {o : Occurrence}
    {name typeName typeName' : String}
    (hName : Text.sameName o.name name) (hType : o.typeName? = some typeName') :
    LastType (os ++ [o]) name typeName ↔ typeName' = typeName := by
  constructor
  · rintro ⟨before, d, after, hSplit, -, hType', hAfter⟩
    rcases List.eq_nil_or_concat after with rfl | ⟨after, x, rfl⟩
    · obtain ⟨-, hLast⟩ := List.append_inj' hSplit rfl
      obtain rfl := List.singleton_inj.mp hLast
      exact Option.some.inj (hType.symm.trans hType')
    · have hSplit' : os ++ [o] = (before ++ d :: after) ++ [x] := by simp [hSplit]
      obtain ⟨-, hLast⟩ := List.append_inj' hSplit' rfl
      obtain rfl := List.singleton_inj.mp hLast
      exact nomatch (hAfter o (by simp) hName).symm.trans hType
  · rintro rfl
    exact ⟨os, o, [], rfl, hName, hType, by simp⟩

/-- What is known of a name is its last type. -/
theorem lookup_declarations (os : List Occurrence) (name typeName : String) :
    (declarations [] os).lookup name.toLower = some typeName ↔ LastType os name typeName := by
  induction os using List.reverseRecOn with
  | nil => simp [LastType]
  | append_singleton os o ih =>
    rw [declarations_append, declarations_cons, declarations_nil, Occurrence.declare]
    cases hType : o.typeName? with
    | none =>
      rw [lastType_concat fun _ => hType]
      exact ih
    | some typeName' =>
      by_cases hName : Text.sameName o.name name = true
      · rw [lastType_concat_typed hName hType, Text.sameName_iff.mp hName]
        simp
      · rw [lastType_concat fun h => absurd h hName, ← ih]
        have hKey : (name.toLower == o.name.toLower) = false := by
          rw [beq_eq_false_iff_ne]
          exact fun h => hName (Text.sameName_iff.mpr h.symm)
        simp [List.lookup_cons, hKey]

/-! ## Meaning -/

/-- The parameter `p` stands at this place, behind which these types are known: it has the type that
is written there, or else the one that is known for its name. -/
structure Occurrence.Gives (o : Occurrence) (bindings : Bindings) (p : NamedParameter) : Prop where
  name : p.name = o.name
  position : p.span.first = o.position
  typed : ∀ typeName, o.typeName? = some typeName → p.declared = true ∧ p.typeName = typeName
  untyped : o.typeName? = none →
    p.declared = false ∧ bindings.lookup o.name.toLower = some p.typeName

/-- These parameters stand at these places, in order, behind which these types are known. -/
inductive Bound : Bindings → List Occurrence → List NamedParameter → Prop where
  | nil (bindings : Bindings) : Bound bindings [] []
  | cons {bindings : Bindings} {o : Occurrence} {p : NamedParameter} {os : List Occurrence}
    {ps : List NamedParameter} (head : o.Gives bindings p)
    (tail : Bound (o.declare bindings) os ps) :
    Bound bindings (o :: os) (p :: ps)

theorem Bound.append {bindings : Bindings} {os os' : List Occurrence} {ps ps' : List NamedParameter}
    (h : Bound bindings os ps) (h' : Bound (declarations bindings os) os' ps') :
    Bound bindings (os ++ os') (ps ++ ps') := by
  induction h with
  | nil => exact h'
  | cons head tail ih => exact .cons head (ih h')

/-- The parameters start at the places, in order. -/
theorem Bound.positions {bindings : Bindings} {os : List Occurrence} {ps : List NamedParameter}
    (h : Bound bindings os ps) : ps.map (·.span.first) = os.map (·.position) := by
  induction h with
  | nil => rfl
  | cons head tail ih => rw [List.map_cons, List.map_cons, head.position, ih]

/-- Each of the parameters stands at one of the places. -/
theorem Bound.exists_gives {bindings : Bindings} {os : List Occurrence} {ps : List NamedParameter}
    (h : Bound bindings os ps) : ∀ p ∈ ps, ∃ before o after, os = before ++ o :: after ∧
      o.Gives (declarations bindings before) p := by
  induction h with
  | nil => simp
  | @cons bindings o p os ps head tail ih =>
    intro q hq
    rcases List.mem_cons.mp hq with rfl | hq
    · exact ⟨[], o, os, rfl, head⟩
    · obtain ⟨before, o', after, rfl, hGives⟩ := ih q hq
      exact ⟨o :: before, o', after, rfl, hGives⟩

end SqlKit
