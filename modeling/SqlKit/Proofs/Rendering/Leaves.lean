import SqlKit.Proofs.Rendering.Faithful
import SqlKit.Syntax.Render

/-!
# Leaves are read back

Names, types, constants and parameters.
-/

namespace SqlKit

/-! ## Numbers -/

theorem ofNat_toNat_toInt {n : Int64} (h : 0 ≤ n.toInt) : Int64.ofNat n.toInt.toNat = n := by
  rw [← Int64.ofInt_eq_ofNat, Int.toNat_of_nonneg h, Int64.ofInt_toInt]

theorem toNat_toInt_le (n : Int64) : n.toInt.toNat ≤ Numeral.maxInteger := by
  have hLess := n.toInt_lt
  simp only [Numeral.maxInteger, Nat.pow_eq]
  omega

theorem toInt_ofNat {n : Nat} (h : n ≤ Numeral.maxInteger) : (Int64.ofNat n).toInt = n := by
  refine Int64.toInt_ofNat_of_lt ?_
  simp only [Numeral.maxInteger, Nat.pow_eq] at h
  omega

/-- No integer but the least one overflows when it is negated. -/
theorem toInt_neg_of_le {v : Int64} (h : -(Numeral.maxInteger : Int) ≤ v.toInt) :
    (-v).toInt = -v.toInt := by
  have hMax : Numeral.maxInteger = 2 ^ 63 - 1 := rfl
  have hLess := v.toInt_lt
  rw [Int64.toInt_neg]
  exact Int.bmod_eq_of_le (by omega) (by omega)

theorem toString_neg {n : Nat} (h : 0 < n) : toString (-(n : Int)) = "-" ++ toString n := by
  obtain ⟨m, rfl⟩ : ∃ m, n = m + 1 := ⟨n - 1, by omega⟩
  rfl

namespace Grammar

open Parse

variable {n k : Nat} {s : State}

theorem maxUnsigned_le : maxUnsigned ≤ Numeral.maxInteger := by decide

/-- A number that is not too large is read from the token that it is written as. -/
theorem unsigned?_of_kind {t : Token} {n : Nat} (hn : n ≤ maxUnsigned)
    (hKind : t.kind = Glyph.integerKind n) : unsigned? t = some n := by
  unfold unsigned?
  rw [hKind]
  simp only [Glyph.integerKind, toInt_ofNat (hn.trans maxUnsigned_le)]
  rw [if_pos (by omega)]
  simp

theorem of_unsigned? {t : Token} {n : Nat} (h : unsigned? t = some n) : n ≤ maxUnsigned := by
  unfold unsigned? at h
  split at h
  · split at h
    · obtain rfl := Option.some.inj h
      omega
    · cases h
  · cases h

theorem unsigned?_none {t : Token} (h : 1 ≤ closes t.kind) : unsigned? t = none := by
  unfold unsigned?
  split
  · next hKind =>
    rw [hKind] at h
    cases h
  · rfl

/-! ## Names -/

/-- A character that no name goes on with does not occur in a name. -/
theorem not_mem_of_isName {c : Char} {m : String} (h : IsName m) (hStart : isNameStart c = false)
    (hPart : isNamePart c = false) : c ∉ m.toList := by
  intro hMem
  have hWord := h.word
  cases hChars : m.toList with
  | nil => rw [hChars] at hMem; cases hMem
  | cons d ds =>
    rw [hChars, isWord, Bool.and_eq_true, Bool.and_eq_true] at hWord
    rw [hChars] at hMem
    rcases List.mem_cons.mp hMem with rfl | hMem
    · exact nomatch hStart.symm.trans hWord.1.1
    · exact nomatch hPart.symm.trans (List.all_eq_true.mp hWord.2 _ hMem)

theorem legal_dotted {name : String} {names : List String} (hName : IsName name)
    (h : ∀ m ∈ names, IsName m) : Script.Legal (.name name :: dotted names) := by
  induction names generalizing name with
  | nil => exact (Script.legal_singleton _).mpr hName
  | cons m names ih =>
    obtain ⟨hm, hNames⟩ := List.forall_mem_cons.mp h
    have hRest := ih hm hNames
    refine Script.legal_cons.mpr ⟨hName, ?_, Script.legal_cons.mpr ⟨by simp, ?_, hRest⟩⟩
    · simp [Glyph.meets, Glyph.allows]
    · simp [Glyph.meets, Glyph.allows]

theorem accept_symbol {symbol : Symbol} {t : Token} (h : t.kind = .symbol symbol) :
    (if t.kind = .symbol symbol then some () else none) = some () := if_pos h

/-- A name with nothing behind it. -/
theorem Reads.nameEnd {role : NameRole} {m : String} (h : IsName m) :
    Reads k (fun _ => Parse.name role) [.name m] [] 0 (· = m) := by
  have hPure : Reads (k + 1) (fun _ => Pure.pure m) [] [] 0 (· = m) := Reads.pure rfl
  have hBind : Reads k (fun _ => Parse.name role >>= Pure.pure) [.name m] [] 0 (· = m) :=
    Reads.name h hPure
  simpa only [bind_pure] using hBind

theorem Reads.dottedRest {role : NameRole} {names : List String} (h : ∀ m ∈ names, IsName m) :
    Reads k (fun _ => Parse.dottedRest role) (dotted names) [] 1 (· = names) := by
  induction names generalizing k with
  | nil => exact Reads.chainNil (accept_none (by decide)) rfl
  | cons m names ih =>
    obtain ⟨hm, hNames⟩ := List.forall_mem_cons.mp h
    have hEntry : Reads k (fun _ => entry (fun t => if t.kind = .symbol .dot then some () else none)
        fun _ => Parse.name role) [.symbol .dot, .name m] [] 0 fun o => ∃ a, o = some a ∧ a = m :=
      Reads.take rfl (fun t hKind _ => accept_symbol hKind)
        ((Reads.nameEnd hm).map fun a ha => ⟨a, rfl, ha⟩)
    refine ((hEntry.chainCons (fun _ _ => Nat.zero_le _) (ih hNames)).imp ?_)
    rintro _ ⟨a, as, rfl, rfl, rfl⟩
    rfl

/-- A name is written as it is. -/
theorem After.nameEnd {role : NameRole} (hRoom : Room n k s) :
    After (Parse.name role) s fun m s' => IsName m ∧ s'.scope = s.scope ∧
      s.current.kind = wordKind m := by
  have hBind : After (Parse.name role >>= Pure.pure) s fun m s' => IsName m ∧ s'.scope = s.scope ∧
      s.current.kind = wordKind m := by
    refine After.name hRoom fun t rest m hTokens hName hKind => .pure ⟨hName, rfl, ?_⟩
    rw [State.current_cons hTokens, hKind]
  simpa only [bind_pure] using hBind

theorem After.dottedRest {role : NameRole} (hRoom : Room n k s) :
    After (Parse.dottedRest role) s fun ms s' => (∀ m ∈ ms, IsName m) ∧ s'.scope = s.scope := by
  simp only [After, Parse.dottedRest, Parse.chainOf, Parse.chain]
  fun_induction chainFrom (fun t => if t.kind = .symbol .dot then some () else none)
    (fun _ => Parse.name role) s with
  | case1 s => exact fun _ => ⟨by simp, rfl⟩
  | case2 s => exact fun _ => ⟨by simp, rfl⟩
  | case3 s t rest hTokens b hAccept after more ih =>
    intro hError
    have hTaken := hRoom.take hTokens
    have hMoves := (Parse.name role).moves (s.take t rest)
    have hErrorFirst : after.2.error = none :=
      error_none_of_moves (moves_chainFrom _ (fun _ => Parse.name role) after.2) hError
    obtain ⟨hName, hScope, -⟩ := After.nameEnd hTaken hErrorFirst
    obtain ⟨hNames, hScope'⟩ := ih ((hTaken.moves hMoves).mono (Nat.le_succ k)) hError
    exact ⟨List.forall_mem_cons.mpr ⟨hName, hNames⟩, hScope'.trans hScope⟩

/-! ## Types -/

/-- A type name that has two words is written with a blank between them. -/
def typeRow (first : String) : Option String → Script
  | some word => [.name first, .blank, .name word]
  | none => [.name first]

/-- The name of a type is taken apart into its words again. -/
theorem typeNameRow_eq {first : String} {second : Option String} (hFirst : IsName first)
    (hSecond : ∀ word, second = some word → IsName word) :
    typeNameRow (typeName first second) = typeRow first second := by
  have hBlank : ∀ m, IsName m → ' ' ∉ m.toList := fun m hm =>
    not_mem_of_isName hm (by decide) (by decide)
  cases second with
  | none =>
    have hWords := wordsOf_intercalate (c := ' ')
      (show ∀ word ∈ [first], ' ' ∉ word.toList by simpa using hBlank first hFirst)
    exact congrArg (wordRow .blank) hWords
  | some word =>
    have hWords := wordsOf_intercalate (c := ' ')
      (show ∀ w ∈ [first, word], ' ' ∉ w.toList by
        simpa using ⟨hBlank first hFirst, hBlank word (hSecond word rfl)⟩)
    exact congrArg (wordRow .blank) hWords

/-- The second word of a type name is written as it is, and is no keyword. -/
theorem secondWord?_spec {first word : String} {t : Token} (h : t.Bare)
    (hWord : secondWord? first t = some word) :
    IsName word ∧ t.text = word ∧ t.kind = wordKind word := by
  unfold secondWord? at hWord
  split at hWord
  · next name hKind =>
    split at hWord
    · obtain rfl := Option.some.inj hWord
      exact isName_of_nameOf? h (by simp [nameOf?, hKind, (h.identifier name hKind).1])
    · cases hWord
  · cases hWord

/-- Another token of the same word is a second word of a type name as well. -/
theorem secondWord?_of_kind {first word : String} {t u : Token}
    (h : secondWord? first t = some word)
    (hKind : u.kind = t.kind) (hText : u.text = word) : secondWord? first u = some word := by
  unfold secondWord? at h ⊢
  rw [hKind, hText]
  revert h
  split
  · split
    · exact fun _ => rfl
    · exact fun h => nomatch h
  · exact fun h => nomatch h

theorem secondWord?_none {first : String} {t : Token} (h : ∀ n, t.kind ≠ .identifier n) :
    secondWord? first t = none := by
  unfold secondWord?
  split
  · next hKind => exact absurd hKind (h _)
  · rfl

/-- A scale behind a comma, if there is one. -/
def scaleArgument : Parse (Option Nat) := do
  if ← eat .comma then some <$> ask .scale 0 unsigned? else pure none

/-- A length and a scale behind the opening parenthesis. -/
def lengthArguments (typeName : String) : Parse ColumnType := do
  let length ← ask .length 0 unsigned?
  let scale ← scaleArgument
  expect .rightParen
  return ⟨typeName, some length, scale⟩

theorem typeArguments_eq (typeName : String) : typeArguments typeName =
    if (SqlType.ofName typeName).acceptsLength = true then
      eat .leftParen >>= fun c =>
        if c = true then lengthArguments typeName else pure ⟨typeName, none, none⟩
    else pure ⟨typeName, none, none⟩ := by
  unfold typeArguments
  split
  · refine bind_congr fun c => ?_
    cases c with
    | false => rfl
    | true =>
      simp only [lengthArguments, scaleArgument, bind_assoc]
      refine bind_congr fun length => bind_congr fun c => ?_
      cases c <;> rfl
  · rfl

/-- What stands behind the name of a type can be written there again. -/
structure IsArguments (type : ColumnType) : Prop where
  length : ∀ l, type.length = some l →
    l ≤ maxUnsigned ∧ (SqlType.ofName type.name).acceptsLength = true
  scale : ∀ c, type.scale = some c → c ≤ maxUnsigned ∧ type.length.isSome = true

theorem After.scaleArgument :
    After scaleArgument s fun scale s' => (∀ c, scale = some c → c ≤ maxUnsigned) ∧
      s'.scope = s.scope := by
  refine After.eatIte (fun t rest _ _ => ?_) fun _ => .pure ⟨by simp, rfl⟩
  rw [map_eq_pure_bind]
  refine After.ask fun u rest' c _ hScale => .pure ⟨?_, rfl⟩
  rintro _ ⟨rfl⟩
  exact of_unsigned? hScale

theorem After.typeArguments {typeName : String} :
    After (typeArguments typeName) s fun type s' =>
      type.name = typeName ∧ IsArguments type ∧ s'.scope = s.scope := by
  rw [typeArguments_eq]
  split
  · next hAccepts =>
    refine After.eatIte (fun t rest _ _ => ?_) fun _ => .pure ⟨rfl, ⟨by simp, by simp⟩, rfl⟩
    refine After.ask fun u rest' l _ hLength => After.scaleArgument.bind ?_
    rintro scale s' ⟨hScale, hScope⟩ _
    refine After.expect fun _ _ _ _ => .pure ⟨rfl, ⟨?_, fun c hc => ⟨hScale c hc, rfl⟩⟩, hScope⟩
    rintro _ ⟨rfl⟩
    exact ⟨of_unsigned? hLength, hAccepts⟩
  · exact .pure ⟨rfl, ⟨by simp, by simp⟩, rfl⟩

/-- The scale of a type behind its length. -/
def scaleRow : Option Nat → Script
  | some scale => [.symbol .comma, .blank, .integer scale]
  | none => []

theorem argumentsRow_some (name : String) (length : Nat) (scale : Option Nat) :
    ColumnType.argumentsRow ⟨name, some length, scale⟩ =
      .symbol .leftParen :: .integer length :: (scaleRow scale ++ [.symbol .rightParen]) := by
  cases scale <;> rfl

theorem Reads.scaleArgument {scale : Option Nat} (h : ∀ c, scale = some c → c ≤ maxUnsigned) :
    Reads k (fun _ => scaleArgument) (scaleRow scale) [] 11 (· = scale) := by
  cases scale with
  | none =>
    exact Reads.eatElse (leads_ne (by decide)) (Reads.pure rfl)
  | some c =>
    refine Reads.eatThen rfl (Reads.blank ?_)
    simp only [map_eq_pure_bind]
    exact Reads.ask rfl (fun t hKind _ => unsigned?_of_kind (h c rfl) hKind) (Reads.pure rfl)

theorem Reads.typeArguments {type : ColumnType} (h : IsArguments type) :
    Reads k (fun _ => typeArguments type.name) type.argumentsRow [] 1 (· = type) := by
  obtain ⟨name, length, scale⟩ := type
  simp only [typeArguments_eq]
  cases length with
  | none =>
    obtain rfl : scale = none := by
      cases scale with
      | none => rfl
      | some c => exact nomatch (h.scale c rfl).2
    split
    · exact Reads.eatElse (leads_ne (by decide)) (Reads.pure rfl)
    · exact Reads.pure rfl
  | some l =>
    obtain ⟨hLength, hAccepts⟩ := h.length l rfl
    rw [if_pos hAccepts, argumentsRow_some]
    refine Reads.eatThen rfl (Reads.ask rfl (fun t hKind _ => unsigned?_of_kind hLength hKind) ?_)
    refine Reads.bindFirst (Reads.scaleArgument fun c hc => (h.scale c hc).1)
      (stops_cons rfl (by decide)) fun c hc => ?_
    rw [hc]
    exact Reads.expect (Reads.pure rfl)

/-- How a type is written. -/
def Print.columnType : Print ColumnType := ⟨ColumnType.row, fun _ => []⟩

theorem legal_argumentsRow {type : ColumnType} (h : IsArguments type) :
    Script.Legal type.argumentsRow ∧ Script.Detached type.argumentsRow := by
  obtain ⟨name, length, scale⟩ := type
  have hFits : ∀ n ≤ maxUnsigned, (Glyph.integer n).Fits := fun n hn => hn.trans maxUnsigned_le
  cases length with
  | none => exact ⟨Script.legal_nil, Script.detached_nil⟩
  | some l =>
    have hLength := hFits l (h.length l rfl).1
    refine ⟨?_, ?_⟩
    · cases scale with
      | none =>
        rw [ColumnType.argumentsRow, Script.legal_leftParen,
          Script.legal_cons_detached (Script.detached_cons rfl)]
        simpa using hLength
      | some c =>
        have hScale := hFits c (h.scale c rfl).1
        rw [ColumnType.argumentsRow, Script.legal_leftParen,
          Script.legal_cons_detached (Script.detached_cons rfl),
          Script.legal_comma, Script.legal_blank,
          Script.legal_cons_detached (Script.detached_cons rfl)]
        exact ⟨hLength, hScale, by simp⟩
    · rw [argumentsRow_some]
      exact Script.detached_cons rfl

theorem stops_argumentsRow (type : ColumnType) (more : Script) (h : 1 ≤ closes (Script.lead more))
    (name : Identifier) : Script.lead (type.argumentsRow ++ more) ≠ .identifier name := by
  obtain ⟨typeName, length, scale⟩ := type
  cases length with
  | none =>
    intro hKind
    rw [show Script.lead more = .identifier name by simpa [ColumnType.argumentsRow]
      using hKind] at h
    cases h
  | some l =>
    rw [argumentsRow_some]
    intro hKind
    cases hKind

/-- The name of a type is read back, of one word or of two. -/
theorem Reads.typeName {type : ColumnType} {first : String} {second : Option String}
    (hName : type.name = typeName first second) (hFirst : IsName first)
    (hSecond : ∀ word, second = some word → ∃ t : Token, secondWord? first t = some word ∧
      t.kind = wordKind word) (h : IsArguments type) :
    Reads k (fun _ => columnType) (typeRow first second ++ type.argumentsRow) [] 1 (· = type) := by
  simp only [columnType_eq]
  cases second with
  | none =>
    refine Reads.name hFirst (Reads.takeNone (fun more hMore t hKind => ?_) ?_)
    · exact secondWord?_none fun name hName => stops_argumentsRow type more hMore name
        (hKind.symm.trans hName)
    · rw [← hName]
      exact Reads.typeArguments h
  | some word =>
    obtain ⟨t, hWord, hKind⟩ := hSecond word rfl
    refine Reads.name hFirst (Reads.blank (Reads.take (b := word) rfl (fun u hu hText => ?_) ?_))
    · exact secondWord?_of_kind hWord (hu.trans hKind.symm) (hText word rfl)
    · rw [← hName]
      exact Reads.typeArguments h

/-- A type is written as it is read. -/
theorem faithful_columnType :
    Faithful n k .columnType (fun _ => columnType) 1 fun _ _ => True := by
  intro s hs
  rw [columnType_eq]
  refine After.name hs fun t rest first hTokens hFirst _ => ?_
  have hTaken := hs.take hTokens
  have hType : ∀ (second : Option String) (s' : State), s'.scope = s.scope →
      (∀ word, second = some word → IsName word ∧ ∃ t : Token, secondWord? first t = some word ∧
        t.kind = wordKind word) →
      After (typeArguments (typeName first second)) s' fun x s'' =>
        Legible .columnType (Shown k .columnType (fun _ => columnType) 1 (fun _ => True) x) x s
          s'' := by
    intro second s' hScope hSecond
    refine After.typeArguments.imp fun type s'' hType _ => ?_
    obtain ⟨hName, hArguments, hScope'⟩ := hType
    obtain ⟨hLegal, hDetached⟩ := legal_argumentsRow hArguments
    refine ⟨⟨typeRow first second ++ type.argumentsRow, ?_, ?_, fun _ _ => trivial, ?_⟩, ?_⟩
    · rw [show Print.columnType.row type = typeNameRow type.name ++ type.argumentsRow from rfl,
        hName, typeNameRow_eq hFirst fun word h => (hSecond word h).1]
    · refine Script.Legal.append ?_ hLegal hDetached
      cases second with
      | none => simpa [typeRow] using hFirst
      | some word => simpa [typeRow] using ⟨hFirst, (hSecond word rfl).1⟩
    · refine (Reads.typeName hName hFirst (fun word h => (hSecond word h).2) hArguments).imp ?_
      rintro _ rfl
      rfl
    · exact (hScope'.trans hScope).symm
  refine After.take (fun u rest' word hTokens' hWord => ?_) fun _ => ?_
  · refine hType (some word) _ rfl ?_
    rintro _ ⟨rfl⟩
    obtain ⟨hName, -, hKind⟩ := secondWord?_spec (hTaken.bare_head hTokens') hWord
    exact ⟨hName, u, hWord, hKind⟩
  · exact hType none _ rfl fun _ h => nomatch h

/-! ## Parameters -/

end Grammar

end SqlKit
