import SqlKit.Proofs.Tables.Form
import SqlKit.Proofs.Token.LetterCase

/-!
# Columns are read back

The parts of a column come in a fixed order, and any of them may be missing. A part is read back in
front of all that comes behind it: the word that it starts with ends what is in front of it, and
none of the words behind it could be taken for its own (`Joins`, `reads_columnRest`).
-/

namespace SqlKit.Grammar

open Parse

variable {k level middle next : Nat}

/-- A row that may stand behind any other, and ends `level` if what follows it ends `next`. -/
structure Joins (level next : Nat) (gs : Script) : Prop where
  legal : Script.Legal gs
  detached : Script.Detached gs
  stops : Stops level next gs

namespace Joins

variable {gs hs : Script}

theorem nil (h : level ≤ next) : Joins level next [] :=
  ⟨Script.legal_nil, Script.detached_nil, stops_nil h⟩

theorem append (h : Joins level middle gs) (h' : Joins middle next hs) :
    Joins level next (gs ++ hs) :=
  ⟨h.legal.append h'.legal h'.detached, h.detached.append h'.detached, h.stops.append h'.stops⟩

/-- A word with a blank in front of it. -/
theorem word {word : Keyword} (h : Script.Legal (.keyword word :: gs))
    (hLevel : level ≤ closes (.keyword word)) : Joins level next (.blank :: .keyword word :: gs) :=
  ⟨(Script.legal_blank _).mpr h, Script.detached_cons rfl, stops_blank (stops_cons rfl hLevel)⟩

theorem flag {word : Keyword} (present : Bool) (hLevel : level ≤ closes (.keyword word))
    (hNext : level ≤ next) : Joins level next (flagRow present word) := by
  cases present with
  | true => exact Joins.word (by simp) hLevel
  | false => exact .nil hNext

end Joins

/-- A word that is there or not, in front of something that does not start with it. -/
theorem Reads.flag {α : Type} {word : Keyword} {present : Bool} {m : Rules → Bool → Parse α}
    {gs : Script} {ms : List ParamMark} {Q : α → Prop}
    (hNone : Leads level (fun ks => first ks ≠ .keyword word) gs)
    (h : Reads k (fun rules => m rules present) gs ms level Q) :
    Reads k (fun rules => eatKeyword word >>= m rules) (flagRow present word ++ gs) ms level Q := by
  cases present with
  | true => exact Reads.blank (Reads.eat rfl (h.mono (Nat.le_succ k) le_rfl))
  | false => exact Reads.eatNone hNone h

/-! ## Types -/

/-- The second word of a type name is no keyword. -/
theorem wordKind_of_toLower {word lower : String} (h : word.toLower = lower.toLower)
    (hLower : wordKind lower = .identifier (.bare lower)) :
    wordKind word = .identifier (.bare word) := by
  have hLetters : SameLetters word.toList lower.toList := by
    have hMap := congrArg String.toList h
    unfold String.toLower at hMap
    rw [String.toList_map, String.toList_map, ← List.forall₂_eq_eq_eq, List.forall₂_map_left_iff,
      List.forall₂_map_right_iff] at hMap
    exact hMap
  have hKind := wordKind_respelled hLetters
  rw [String.ofList_toList, String.ofList_toList, hLower] at hKind
  unfold wordKind at hKind ⊢
  split at hKind
  · rcases hKind with hKind | ⟨_, _, hKind, -⟩ <;> cases hKind
  · rfl

theorem precision_identifier : wordKind "precision" = .identifier (.bare "precision") := by
  decide +kernel

theorem varying_identifier : wordKind "varying" = .identifier (.bare "varying") := by
  decide +kernel

theorem exists_secondWord {first second : String}
    (h : (first.toLower, second.toLower) ∈ twoWordTypes) :
    ∃ t : Token, secondWord? first t = some second ∧ t.kind = wordKind second := by
  refine ⟨⟨wordKind second, .atStart, second⟩, ?_, rfl⟩
  have hCases : (first.toLower = "double" ∧ second.toLower = "precision") ∨
      (first.toLower = "character" ∧ second.toLower = "varying") := by
    simpa [twoWordTypes] using h
  have hKind : wordKind second = .identifier (.bare second) := by
    rcases hCases with ⟨-, h⟩ | ⟨-, h⟩
    · exact wordKind_of_toLower (h.trans (by decide +kernel)) precision_identifier
    · exact wordKind_of_toLower (h.trans (by decide +kernel)) varying_identifier
  simp only [secondWord?, hKind]
  exact if_pos hCases

/-- A type is read back. -/
theorem legal_columnType {type : ColumnType} (h : type.Proper) : Script.Legal type.row ∧
    Reads k (fun _ => columnType) type.row [] 1 (· = type) := by
  obtain ⟨hLegal, hDetached⟩ := legal_argumentsRow h.toIsArguments
  obtain ⟨first, second, hFirst, hSecond, hWords, hName⟩ : ∃ first second, IsName first ∧
      (∀ word, second = some word → IsName word) ∧ (∀ word, second = some word →
        (first.toLower, word.toLower) ∈ twoWordTypes) ∧ type.name = typeName first second := by
    rcases h.name with hName | ⟨first, second, hFirst, hSecond, hTypes, hName⟩
    · exact ⟨type.name, none, hName, by simp, by simp, rfl⟩
    · exact ⟨first, some second, hFirst, by simpa using hSecond, by simpa using hTypes, hName⟩
  have hRow : type.row = typeRow first second ++ type.argumentsRow := by
    rw [ColumnType.row, hName, typeNameRow_eq hFirst hSecond]
  rw [hRow]
  refine ⟨Script.Legal.append ?_ hLegal hDetached, Reads.typeName hName hFirst (fun word hWord =>
    exists_secondWord (hWords word hWord)) h.toIsArguments⟩
  cases second with
  | none => simpa [typeRow] using hFirst
  | some word => simpa [typeRow] using ⟨hFirst, hSecond word rfl⟩

/-! ## Defaults and conditions -/

theorem tail_default {c : ColumnForm} (h : c.Proper) :
    Tail k (Print.term.afterWord .DEFAULT) (fun rules => after .DEFAULT (term rules)) 1 4 c.default
      c.defaultRow := by
  unfold ColumnForm.defaultRow
  split
  · next value hValue =>
    rw [hValue]
    exact tail_some ((h.default value hValue).shown.mono (Nat.zero_le _) (by decide)) (by decide)
  · next hNone =>
    rw [hNone]
    exact tail_none (by decide) (by decide)

/-- A condition in parentheses is read back. -/
theorem shown_checkCondition {e : Expr} (h : e.Rereadable) :
    Shown k Print.expr.enclosed checkCondition 0 (fun ks => first ks = .symbol .leftParen) e
      (.symbol .leftParen :: (e.row ++ [.symbol .rightParen])) :=
  (h.shown.mono (Nat.zero_le _) le_rfl).enclosed (by decide)

theorem tail_check {c : ColumnForm} (h : c.Proper) :
    Tail k (Print.expr.enclosed.afterWord .CHECK) (fun rules => after .CHECK (checkCondition rules))
      8 10 c.check c.checkRow := by
  unfold ColumnForm.checkRow
  split
  · next condition hCondition =>
    rw [hCondition]
    exact tail_some ((shown_checkCondition (h.check condition hCondition)).mono le_rfl
      (Nat.zero_le _)) le_rfl
  · next hNone =>
    rw [hNone]
    exact tail_none (by decide) (by decide)

theorem Tail.joins {α : Type} [Erasable α] {p : Print α} {read : Rules → Parse α} {x : α}
    {gs : Script} (h : Tail k p read level next x gs) : Joins level next gs :=
  ⟨h.legal, h.detached, h.leads⟩

/-! ## Missing values -/

theorem joins_nullability (n : Nullability) : Joins 4 5 n.row := by
  cases n with
  | unstated => exact .nil (by decide)
  | null => exact .word (by simp) le_rfl
  | notNull => exact .word (by simp) le_rfl

theorem reads_nullability (n : Nullability) :
    Reads k (fun _ => nullability) n.row [] 5 (· = n) := by
  cases n with
  | unstated =>
    refine Reads.eatElse (leads_ne (by decide)) (Reads.eatElse (leads_ne (by decide)) ?_)
    exact Reads.pure rfl
  | null =>
    refine Reads.blank (Reads.eatElse (fun _ _ hKind => by cases hKind) ?_)
    exact Reads.eatThen rfl (Reads.pure rfl)
  | notNull =>
    exact Reads.blank (Reads.eatThen rfl (Reads.blank (Reads.expectKeyword (Reads.pure rfl))))

/-! ## Columns that number their rows -/

theorem legal_signedForm {n : SignedForm} (h : n.Proper) : Script.Legal n.row := by
  unfold SignedForm.Proper at h
  unfold SignedForm.row
  split
  · exact Script.legal_cons.mpr ⟨by simp, by simp [Glyph.meets, Glyph.allows], by simpa using h⟩
  · simpa using h

/-- A number is read back with its sign. -/
theorem reads_signedForm {expected : Expected} (n : SignedForm) :
    Reads k (fun _ => signed expected) n.row [] 0 (· = n.value) := by
  have hAsk : ∀ (j : Nat) {accept : Token → Option Int64} {value : Int64},
      (∀ t : Token, t.kind = .integer (.ofNat n.magnitude) → accept t = some value) →
      Reads j (fun _ => ask expected 0 accept) [.integer n.magnitude] [] 0 (· = value) := by
    intro j accept value hAccept
    rw [← bind_pure (ask _ _ _)]
    refine Reads.ask rfl (fun t hKind _ => hAccept t ?_) (Reads.pure rfl)
    rw [hKind, Glyph.integerKind]
  obtain ⟨negative, magnitude⟩ := n
  cases negative with
  | true => exact Reads.eat rfl (hAsk (k + 1) fun t hKind => by rw [hKind]; rfl)
  | false =>
    exact Reads.eatNone (fun _ _ hKind => by cases hKind) (hAsk k fun t hKind => by rw [hKind]; rfl)

/-- Reads the increment of a sequence, which is one unless stated. -/
def increment : Parse Int64 := do
  if ← eat .comma then signed .increment else pure 1

theorem sequence_eq : sequence = eat .leftParen >>= fun c =>
    if c = true then do
      let start ← signed .startValue
      let increment ← increment
      expect .rightParen
      return some ⟨start, increment⟩
    else return none := by
  refine bind_congr fun c => ?_
  cases c with
  | false => rfl
  | true =>
    simp only [increment, bind_assoc, ↓reduceIte]
    refine bind_congr fun start => bind_congr fun c => ?_
    cases c <;> rfl

theorem reads_increment (o : Option SignedForm) : Reads k (fun _ => increment) (incrementRow o) []
    11 (· = (o.map SignedForm.value).getD 1) := by
  cases o with
  | none => exact Reads.eatElse (leads_ne (by decide)) (Reads.pure rfl)
  | some i => exact Reads.eatThen rfl (((reads_signedForm i).mono le_rfl (Nat.zero_le 11)).blank)

theorem legal_sequenceRow {o : Option SequenceForm} (h : ∀ s ∈ o, s.Proper) :
    Script.Legal (sequenceRow o) := by
  cases o with
  | none => exact Script.legal_nil
  | some s =>
    obtain ⟨start, increment⟩ := s
    have hStart := legal_signedForm (h _ rfl).start
    cases increment with
    | none => simpa [sequenceRow, SequenceForm.row, incrementRow, Glyph.Fits] using hStart
    | some i =>
      have hIncrement := legal_signedForm ((h _ rfl).increment i rfl)
      simpa [sequenceRow, SequenceForm.row, incrementRow, Glyph.Fits] using ⟨hStart, hIncrement⟩

/-- A sequence is read back; where no increment is written, it is one. -/
theorem reads_sequence (o : Option SequenceForm) :
    Reads k (fun _ => sequence) (sequenceRow o) [] 1 (· = o.map SequenceForm.sequence) := by
  rw [sequence_eq]
  cases o with
  | none => exact Reads.eatElse (leads_ne (by decide)) (Reads.pure rfl)
  | some s =>
    obtain ⟨start, increment⟩ := s
    refine Reads.blank (Reads.eatThen rfl ?_)
    refine Reads.bindFirst (reads_signedForm start) (fun _ _ => Nat.zero_le _) ?_
    rintro _ rfl
    refine Reads.bindFirst (reads_increment increment) (stops_cons rfl (by decide)) ?_
    rintro _ rfl
    exact Reads.expect (Reads.pure rfl)

theorem joins_numbering {c : ColumnForm} (h : c.Proper) : Joins 5 6 c.numberingRow := by
  unfold ColumnForm.numberingRow
  cases hNumbering : c.numbering with
  | none => exact .nil (by decide)
  | some n =>
    have hSequence := legal_sequenceRow (h.sequence n hNumbering)
    have hKind : (Glyph.name n.word.text).kinds = [.keyword n.word.keyword] :=
      congrArg (fun kind => [kind]) n.word.wordKind_text
    have hDetached : Script.Detached (sequenceRow n.sequence) := by
      cases n.sequence with
      | none => exact Script.detached_nil
      | some s => exact Script.detached_cons rfl
    refine ⟨?_, Script.detached_cons rfl, stops_blank (stops_cons hKind ?_)⟩
    · exact (Script.legal_blank _).mpr ((Script.legal_cons_detached hDetached).mpr
        ⟨n.word.isName_text, hSequence⟩)
    · cases n.word <;> exact le_rfl

/-- A column is said to number its rows, or its type implies it. -/
theorem reads_numbering (c : ColumnForm) :
    Reads k (fun _ => numbering (SqlType.impliesIdentity c.type.name)) c.numberingRow [] 6
      (· = c.columnNumbering) := by
  unfold ColumnForm.numberingRow ColumnForm.columnNumbering numbering
  cases hNumbering : c.numbering with
  | none =>
    refine Reads.eatElse (leads_ne (by decide)) (Reads.eatElse (leads_ne (by decide)) ?_)
    exact Reads.pure rfl
  | some n =>
    have hKind : (Glyph.name n.word.text).kinds = [.keyword n.word.keyword] :=
      congrArg (fun kind => [kind]) n.word.wordKind_text
    have hSequence : Reads (k + 1) (fun _ => sequence >>= fun s => pure (Numbering.automatic s))
        (sequenceRow n.sequence) [] 6
        (· = Numbering.automatic (n.sequence.map SequenceForm.sequence)) := by
      refine ((reads_sequence n.sequence).mono le_rfl (by decide)).bindEnd ?_
      rintro _ rfl
      exact Reads.pure rfl
    refine Reads.blank ?_
    cases hWord : n.word with
    | identity =>
      rw [hWord] at hKind
      refine Reads.eatElse (fun _ _ hFirst => ?_) (Reads.eatThen hKind hSequence)
      rw [Script.kinds_append, Script.kinds_cons, hKind] at hFirst
      cases hFirst
    | autoIncrement | autoincrement =>
      rw [hWord] at hKind
      exact Reads.eatThen hKind hSequence

/-! ## Keys -/

theorem joins_columnKey (key : ColumnKey) : Joins 7 8 key.row := by
  cases key with
  | none => exact .nil (by decide)
  | plain => exact .word (by simp) le_rfl
  | hash => exact .word (by simp) le_rfl

/-- The kind of index of a key that is there. -/
def keyKind (hash : Bool) : ColumnKey := if hash then .hash else .plain

theorem reads_keyKind (hash : Bool) : Reads k (fun _ => eatKeyword .HASH >>= fun hash =>
    pure (keyKind hash)) (flagRow hash .HASH) [] 8 (· = keyKind hash) := by
  have hNone : Leads 8 (fun ks => first ks ≠ .keyword .HASH) [] := leads_ne (by decide)
  have hKind : Reads k (fun _ => Pure.pure (keyKind hash)) [] [] 8 (· = keyKind hash) :=
    Reads.pure rfl
  have hReads := Reads.flag (m := fun _ hash => Pure.pure (keyKind hash)) hNone hKind
  rwa [List.append_nil] at hReads

theorem reads_columnKey (key : ColumnKey) :
    Reads k (fun _ => columnKey) key.row [] 8 (· = key) := by
  cases key with
  | none => exact Reads.eatElse (leads_ne (by decide)) (Reads.pure rfl)
  | plain =>
    refine Reads.blank (Reads.eatThen rfl (Reads.blank (Reads.expectKeyword ?_)))
    exact reads_keyKind false
  | hash =>
    refine Reads.blank (Reads.eatThen rfl (Reads.blank (Reads.expectKeyword ?_)))
    exact reads_keyKind true

/-! ## Columns -/

variable {c : ColumnForm}

theorem joins_check (h : c.Proper) : Joins 8 10 c.checkRow := (tail_check (k := 0) h).joins

theorem joins_key (h : c.Proper) : Joins 7 10 (c.primaryKey.row ++ c.checkRow) :=
  (joins_columnKey c.primaryKey).append (joins_check h)

theorem joins_unique (h : c.Proper) :
    Joins 6 10 (flagRow c.unique .UNIQUE ++ (c.primaryKey.row ++ c.checkRow)) :=
  have hUnique : Joins 6 7 (flagRow c.unique .UNIQUE) := .flag c.unique le_rfl (by decide)
  hUnique.append (joins_key h)

theorem joins_nullable (h : c.Proper) : Joins 4 10 (c.nullability.row ++ (c.numberingRow ++
    (flagRow c.unique .UNIQUE ++ (c.primaryKey.row ++ c.checkRow)))) :=
  (joins_nullability c.nullability).append ((joins_numbering h).append (joins_unique h))

/-- What is behind the type of a column. -/
theorem joins_column (h : c.Proper) : Joins 1 10 (c.defaultRow ++ (c.nullability.row ++
    (c.numberingRow ++ (flagRow c.unique .UNIQUE ++ (c.primaryKey.row ++ c.checkRow))))) :=
  (tail_default (k := 0) h).joins.append (joins_nullable h)

theorem legal_column (h : c.Proper) : Script.Legal c.row := by
  have hJoins := joins_column h
  have hType := (legal_columnType (k := 0) h.type).1
  exact (Script.legal_cons_blank _ _).mpr ⟨h.name, hType.append hJoins.legal hJoins.detached⟩

theorem marks_column (c : ColumnForm) : paramMarks c.definition.nodes =
    (Print.term.afterWord .DEFAULT).marks c.default ++
      (Print.expr.enclosed.afterWord .CHECK).marks c.check := by
  refine (paramMarks_append _ _).trans (congrArg₂ _ ?_ ?_)
  · unfold ColumnForm.definition
    cases c.default <;> rfl
  · unfold ColumnForm.definition
    cases c.check <;> rfl

/-- A column is read back behind its name, with the parts that it has. -/
theorem reads_columnRest (h : c.Proper) (start : Span) :
    Reads k (fun rules => columnRest rules c.name start) (c.type.row ++ (c.defaultRow ++
      (c.nullability.row ++ (c.numberingRow ++ (flagRow c.unique .UNIQUE ++ (c.primaryKey.row ++
        c.checkRow)))))) (paramMarks c.definition.nodes) 10 (Like .spans c.definition) := by
  rw [marks_column]
  refine Reads.bindFirst (legal_columnType h.type).2 (joins_column h).stops ?_
  rintro _ rfl
  refine (tail_default h).reads.bind (joins_nullable h).stops fun default hDefault => ?_
  have hNumbering := (joins_numbering h).append (joins_unique h)
  refine Reads.bindFirst (reads_nullability _) hNumbering.stops ?_
  rintro _ rfl
  refine Reads.bindFirst (reads_numbering c) (joins_unique h).stops ?_
  rintro _ rfl
  refine Reads.flag ((joins_key h).stops.ne (by decide)) ?_
  refine Reads.bindFirst (reads_columnKey _) (joins_check h).stops ?_
  rintro _ rfl
  refine (tail_check h).reads.bindEnd fun check hCheck => Reads.spanFrom fun span => Reads.pure ?_
  simp_all [Like, Erasable.erase, ColumnDefinition.erase, ColumnForm.definition, Erasure.spans]

/-- A column is read back. -/
theorem reads_columnDefinition (h : c.Proper) : Reads k (fun rules => columnDefinition rules) c.row
    (paramMarks c.definition.nodes) 10 (Like .spans c.definition) :=
  Reads.current fun t => Reads.name h.name
    ((reads_columnRest h t.span).blank.mono (Nat.le_succ k) le_rfl)

end SqlKit.Grammar
