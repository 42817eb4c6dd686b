import SqlKit.Proofs.Query.Leaves

/-!
# Names in the SQL of predicates

The SQL of a predicate names columns of a table, and the name of a table stands behind the name of
its schema. If the names are words that are not reserved, they are read again in the same order, and
no other names are (`HasNames`): a text that is read as the tokens of a row has the names of the row
(`HasRow.hasNames`), and the induction is over the predicate.
-/

namespace SqlKit

open Grammar

/-- The names in a text, in order. -/
def namesOf (text : String) : List String := (tokensOf text).filterMap nameOf?

/-- In front of `rest` some characters are read as tokens of their own, which stand for these
names. -/
def HasNames (part rest : List Char) (names : List String) : Prop :=
  ∀ p, ∃ ts q, (Cursor.mk p (part ++ rest)).tokens = ts ++ (Cursor.mk q rest).tokens ∧
    ts.filterMap nameOf? = names

namespace HasNames

variable {part part' rest : List Char} {names names' : List String}

theorem append (h : HasNames part (part' ++ rest) names) (h' : HasNames part' rest names') :
    HasNames (part ++ part') rest (names ++ names') := by
  intro p
  obtain ⟨ts, q, hTokens, hNames⟩ := h p
  obtain ⟨us, r, hTokens', hNames'⟩ := h' q
  refine ⟨ts ++ us, r, ?_, by rw [List.filterMap_append, hNames, hNames']⟩
  rw [List.append_assoc, hTokens, hTokens', List.append_assoc]

/-- The names of a text that is read as a whole. -/
theorem namesOf_eq {text : String} (h : HasNames text.toList [] names) : namesOf text = names := by
  obtain ⟨ts, q, hTokens, hNames⟩ := h .start
  rw [List.append_nil, Cursor.tokens_nil, List.append_nil] at hTokens
  rw [namesOf, show tokensOf text = (Cursor.mk .start text.toList).tokens from rfl, hTokens, hNames]

end HasNames

/-! ## Rows -/

namespace Script

/-- The names of a row. -/
def names (gs : Script) : List String :=
  gs.filterMap fun
    | .name n => some n
    | _ => none

/-- The words of a row that are written as words of the language are all reserved. -/
def IsReserved (gs : Script) : Prop := ∀ w, .keyword w ∈ gs → w.isReserved = true

end Script

theorem nameOf?_of_kind {t : Token} {kind : TokenKind} (hKind : t.kind = kind)
    (hIdentifier : ∀ name, kind ≠ .identifier name)
    (hWord : ∀ w, kind = .keyword w → w.isReserved = true) : nameOf? t = none := by
  unfold nameOf?
  split
  · next name h => exact absurd (hKind.symm.trans h) (hIdentifier name)
  · next w h => rw [hWord w (hKind.symm.trans h), if_pos rfl]
  · rfl

/-- The tokens of a row stand for its names. -/
theorem Spells.names_eq {gs : Script} {ts : List Token} (h : Spells gs ts)
    (hFits : ∀ g ∈ gs, g.Fits) (hReserved : Script.IsReserved gs) :
    ts.filterMap nameOf? = Script.names gs := by
  have hBehind : ∀ {g : Glyph} {gs : Script}, Script.IsReserved (g :: gs) → Script.IsReserved gs :=
    fun h w hw => h w (List.mem_cons_of_mem _ hw)
  induction h with
  | nil => rfl
  | blank _ ih => exact ih (fun g hg => hFits g (List.mem_cons_of_mem _ hg)) (hBehind hReserved)
  | @token g t gs ts hToken _ ih =>
    obtain ⟨hFirst, hRest⟩ := List.forall_mem_cons.mp hFits
    have hTail := ih hRest (hBehind hReserved)
    have hPlain : ∀ kind, g.kinds = [kind] → (∀ name, kind ≠ .identifier name) →
        (∀ w, kind = .keyword w → w.isReserved = true) → nameOf? t = none := by
      intro kind hKinds
      obtain rfl := List.singleton_inj.mp (hToken.kinds.symm.trans hKinds)
      exact nameOf?_of_kind rfl
    have hNone : nameOf? t = none → (t :: ts).filterMap nameOf? = Script.names gs := fun h => by
      rw [List.filterMap_cons_none h, hTail]
    cases g with
    | blank => exact nomatch hToken.kinds
    | name n =>
      have hKind := List.singleton_inj.mp hToken.kinds
      rw [List.filterMap_cons_some (nameOf?_of_isName hFirst hKind.symm (hToken.text n rfl)), hTail]
      rfl
    | keyword w =>
      refine hNone (hPlain _ rfl (by simp) fun w' hw => ?_)
      exact hReserved w' (by rw [TokenKind.keyword.inj hw]; exact List.mem_cons_self)
    | symbol | integer | string =>
      exact hNone (hPlain _ rfl (by simp [Glyph.integerKind]) (by simp [Glyph.integerKind]))
    | numeral n =>
      rcases n.kind_cases with ⟨m, -, hKind⟩ | hKind <;>
        exact hNone (hPlain _ rfl (by simp [hKind]) (by simp [hKind]))
    | mark number =>
      cases number with
      | none => exact hNone (hPlain _ rfl (by simp) (by simp))
      | some m => exact absurd (congrArg List.length hToken.kinds) (by simp [Glyph.kinds])
  | mark hMark hNumber _ _ ih =>
    rw [List.filterMap_cons_none (nameOf?_of_kind hMark (by simp) (by simp)),
      List.filterMap_cons_none (nameOf?_of_kind hNumber (by simp [Glyph.integerKind])
        (by simp [Glyph.integerKind]))]
    exact ih (fun g hg => hFits g (List.mem_cons_of_mem _ hg)) (hBehind hReserved)

/-- A row is read as its names. -/
theorem HasRow.hasNames {part rest : List Char} {gs : Script} (h : HasRow part rest gs)
    (hFits : ∀ g ∈ gs, g.Fits) (hReserved : Script.IsReserved gs) :
    HasNames part rest (Script.names gs) := by
  intro p
  obtain ⟨ts, q, hTokens, hSpells⟩ := h p
  exact ⟨ts, q, hTokens, hSpells.names_eq hFits hReserved⟩

/-- The name of a table is read as the name of its schema and its own. -/
theorem QualifiedName.namesOf_sql {q : QualifiedName} (h : IsQualified q) :
    namesOf q.sql = q.schema.toList ++ [q.name] := by
  have hLegal := legal_qualifiedName h Script.legal_nil Script.detached_nil
  rw [List.append_nil] at hLegal
  have hNames : Script.IsReserved q.row ∧ Script.names q.row = q.schema.toList ++ [q.name] := by
    obtain ⟨schema, name⟩ := q
    cases schema <;> exact ⟨by simp [Script.IsReserved, QualifiedName.row], rfl⟩
  have hRow : HasNames (Script.chars q.row) [] (Script.names q.row) :=
    (HasRow.legal hLegal (by simp)).hasNames hLegal.fits hNames.1
  rw [q.chars_row, hNames.2] at hRow
  exact hRow.namesOf_eq

/-! ## Predicates -/

namespace Predicate

/-- The physical name of the column that a caller means. -/
def columnName (t : Table) (name : String) : List String :=
  match t.resolve name with
  | .ok c => [c.name]
  | .error _ => []

mutual

/-- The physical names of the columns in the text of a predicate. -/
def columnNames (t : Table) : Predicate → List String
  | equal column _ _ | like column _ => columnName t column
  | oneOf column values => if values.isEmpty then [] else columnName t column
  | all parts => columnNamesAll t parts

/-- The names of several predicates. -/
def columnNamesAll (t : Table) : List Predicate → List String
  | [] => []
  | p :: rest => p.columnNames t ++ columnNamesAll t rest

end

end Predicate

namespace BoundSql

/-- The text is read with these names where it ends, and in front of a blank. -/
def HasNames (b : BoundSql) (names : List String) : Prop :=
  ∀ rest, (∀ d ∈ rest.head?, isOpener d = true) → SqlKit.HasNames b.sql.toList rest names

variable {b : BoundSql} {c : Column}

theorem hasNames_of_row {gs : Script} (h : b.HasRow gs) (hFits : ∀ g ∈ gs, g.Fits)
    (hReserved : Script.IsReserved gs) : b.HasNames (Script.names gs) := fun rest hRest =>
  (h rest hRest).hasNames hFits hReserved

/-- The conditions that name no column are `1=0` and `1=1`. -/
theorem hasNames_constant {n : Nat} (hn : n < 2) (hText : b.sql = "1=" ++ toString n) :
    b.HasNames [] := by
  refine hasNames_of_row (hasRow_constant hn hText) ?_ (by simp [Script.IsReserved])
  have hMax : Numeral.maxInteger = 2 ^ 63 - 1 := rfl
  simp [Glyph.Fits, hMax]
  omega

theorem hasNames_equality (hc : IsName c.name) (negated : Bool) (value : Value) :
    (equality c negated value).HasNames [c.name] := by
  cases hValue : value.isNull with
  | true =>
    cases negated <;> refine hasNames_of_row (hasRow_missing hc _ hValue) ?_ ?_
    all_goals simp [optionalWord, Glyph.Fits, hc, Script.IsReserved, Keyword.isReserved]
  | false =>
    cases negated <;> refine hasNames_of_row (hasRow_comparison hc _ hValue) ?_ ?_
    all_goals simp [Glyph.Fits, hc, Script.IsReserved]

theorem hasNames_likeness (hc : IsName c.name) (pattern : Value) :
    (likeness c pattern).HasNames [c.name] :=
  hasNames_of_row (hasRow_likeness hc pattern) (by simp [Glyph.Fits, hc])
    (by simp [Script.IsReserved, Keyword.isReserved])

theorem mem_commaRow {g : Glyph} {rows : List Script} (h : g ∈ commaRow rows) :
    g = .symbol .comma ∨ g = .blank ∨ ∃ row ∈ rows, g ∈ row := by
  cases rows with
  | nil => cases h
  | cons row rows =>
    rcases List.mem_append.mp h with h | h
    · exact Or.inr (Or.inr ⟨row, List.mem_cons_self, h⟩)
    · obtain ⟨row', hRow, hMem⟩ := List.mem_flatMap.mp h
      simp only [List.cons_append, List.nil_append, List.mem_cons] at hMem
      rcases hMem with h | h | h
      · exact Or.inl h
      · exact Or.inr (Or.inl h)
      · exact Or.inr (Or.inr ⟨row', List.mem_cons_of_mem _ hRow, h⟩)

theorem hasNames_membership (hc : IsName c.name) (values : List Value) :
    (membership c values).HasNames (if values.isEmpty then [] else [c.name]) := by
  by_cases hSome : values = []
  · subst hSome
    exact hasNames_constant (n := 0) (by decide) rfl
  · let marks : List Script := values.map fun _ => [.mark none]
    have hMarks : ∀ g ∈ commaRow marks, g = .symbol .comma ∨ g = .blank ∨ g = .mark none := by
      intro g hg
      rcases mem_commaRow hg with h | h | ⟨row, hRow, h⟩
      · exact Or.inl h
      · exact Or.inr (Or.inl h)
      · obtain ⟨value, -, rfl⟩ := List.mem_map.mp hRow
        exact Or.inr (Or.inr (List.mem_singleton.mp h))
    have hFits : ∀ g ∈ commaRow marks, g.Fits := by
      intro g hg
      rcases hMarks g hg with rfl | rfl | rfl <;> simp [Glyph.Fits]
    have hReserved : Script.IsReserved (commaRow marks) := by
      intro w hw
      rcases hMarks _ hw with h | h | h <;> cases h
    have hNone : Script.names (commaRow marks) = [] := by
      refine List.filterMap_eq_nil_iff.mpr fun g hg => ?_
      rcases hMarks g hg with rfl | rfl | rfl <;> rfl
    have hNames : Script.names (.name c.name :: .blank :: .keyword .IN :: .blank ::
        .symbol .leftParen :: (commaRow marks ++ [.symbol .rightParen])) = [c.name] := by
      have hAll : Script.names (commaRow marks ++ [.symbol .rightParen]) = [] := by
        rw [Script.names, List.filterMap_append, ← Script.names, hNone]
        rfl
      exact congrArg (c.name :: ·) hAll
    rw [if_neg (by simpa using hSome), ← hNames]
    refine hasNames_of_row (hasRow_membership hc hSome) ?_ fun w hw => ?_
    · simpa [Glyph.Fits, hc, or_imp, forall_and] using hFits
    · simp at hw
      rcases hw with rfl | hw
      · rfl
      · exact hReserved w hw

/-- Further conditions, each behind `AND`. -/
theorem hasNames_further {bs : List BoundSql} {names : List (List String)}
    (h : List.Forall₂ HasNames bs names) {rest : List Char}
    (hRest : ∀ d ∈ rest.head?, isOpener d = true) :
    SqlKit.HasNames (bs.flatMap fun b => " AND ".toList ++ b.sql.toList) rest names.flatten := by
  induction h with
  | nil => exact fun p => ⟨[], p, rfl, rfl⟩
  | @cons b ns bs names hFirst _ ih =>
    have hAnd : ∀ rest, SqlKit.HasNames " AND ".toList rest [] := fun rest =>
      (hasRow_and rest).hasNames (by simp [Glyph.Fits])
        (by simp [Script.IsReserved, Keyword.isReserved])
    exact ((hAnd _).append (hFirst _ (opener_further hRest))).append ih

theorem hasNames_conjunction {bs : List BoundSql} {names : List (List String)}
    (h : List.Forall₂ HasNames bs names) : (conjunction bs).HasNames names.flatten := by
  cases h with
  | nil => exact hasNames_constant (n := 1) (by decide) rfl
  | @cons b ns bs names hFirst hTail =>
    intro rest hRest
    rw [toList_conjunction]
    exact (hFirst _ (opener_further hRest)).append (hasNames_further hTail hRest)

end BoundSql

namespace Predicate

variable {t : Table}

/-- A column that was found for a caller. -/
theorem of_resolve {name : String} {b : BoundSql} {f : Column → BoundSql} (ht : t.Named)
    (h : (t.resolve name).map f = .ok b) :
    ∃ c, b = f c ∧ IsName c.name ∧ columnName t name = [c.name] := by
  obtain ⟨c, hFound, hSql, hc⟩ := ht.of_resolve h
  exact ⟨c, hSql, hc, by rw [columnName, hFound]⟩

mutual

theorem hasNames_bind (ht : t.Named) : ∀ (p : Predicate) (b : BoundSql), p.bind t = .ok b →
    b.HasNames (p.columnNames t)
  | equal column negated value, b, h => by
    obtain ⟨c, rfl, hc, hName⟩ := of_resolve ht h
    rw [columnNames, hName]
    exact BoundSql.hasNames_equality hc negated value
  | oneOf column values, b, h => by
    obtain ⟨c, rfl, hc, hName⟩ := of_resolve ht h
    rw [columnNames, hName]
    exact BoundSql.hasNames_membership hc values
  | like column pattern, b, h => by
    obtain ⟨c, rfl, hc, hName⟩ := of_resolve ht h
    rw [columnNames, hName]
    exact BoundSql.hasNames_likeness hc pattern
  | all parts, b, h => by
    rw [bind] at h
    cases hParts : bindAll t parts with
    | error e => simp [hParts, Except.map] at h
    | ok bs =>
      rw [hParts] at h
      obtain rfl := Except.ok.inj h
      obtain ⟨names, hNames, hAll⟩ := hasNames_bindAll ht parts bs hParts
      rw [columnNames, ← hAll]
      exact BoundSql.hasNames_conjunction hNames

theorem hasNames_bindAll (ht : t.Named) : ∀ (ps : List Predicate) (bs : List BoundSql),
    bindAll t ps = .ok bs →
      ∃ names, List.Forall₂ BoundSql.HasNames bs names ∧ names.flatten = columnNamesAll t ps
  | [], bs, h => by
    obtain rfl := Except.ok.inj h
    exact ⟨[], .nil, rfl⟩
  | p :: ps, bs, h => by
    obtain ⟨b, bs, hFirst, hRest, rfl⟩ := bindAll_cons h
    obtain ⟨names, hNames, hAll⟩ := hasNames_bindAll ht ps bs hRest
    refine ⟨_, .cons (hasNames_bind ht p b hFirst) hNames, ?_⟩
    rw [List.flatten_cons, hAll, columnNamesAll]

end

/-- The names in the SQL of a predicate. -/
theorem namesOf_bind {p : Predicate} {b : BoundSql} (ht : t.Named) (h : p.bind t = .ok b) :
    namesOf b.sql = p.columnNames t :=
  (hasNames_bind ht p b h [] (by simp)).namesOf_eq

end Predicate

/-! ## Texts without quoted names -/

/-- **Names survive where none was quoted.** The names that are read again from a text as what they
are, each as one token, are the words that are not reserved. All names of a query are of that sort
if none of them was quoted, and the text of the query is then read as its row, glyph by glyph,
unless two minus signs come together. So are the names of the tables that a text without quoted
names makes: what is read again from the qualified name of a table, and from the SQL of a predicate
for it, are the names that were put there. -/
theorem unquoted_names_survive (options : ParseOptions) (text : String) :
    (∀ n, Survives n ↔ IsName n) ∧
    (∀ s, .select s ∈ (parse options text).statements → s.UnquotedIn text →
      Script.chars s.row = s.sql.toList ∧ (∀ n, .name n ∈ s.row → Survives n) ∧
        (NoneDoubled s.nodes → Spells s.row (tokensOf s.sql))) ∧
    ((∀ t ∈ tokensOf text, t.isQuotedName = false) →
      ∀ t ∈ (Schema.ofStatements (parse options text).statements).tables,
        namesOf t.qualifiedName = t.schema.toList ++ [t.name] ∧
        (∀ c ∈ t.columns, Survives c.name) ∧
        ∀ (p : Predicate) (b : BoundSql), p.bind t = .ok b → namesOf b.sql = p.columnNames t) := by
  refine ⟨fun _ => survives_iff, fun s hs hNames => ⟨s.chars_row, ?_⟩, fun hNames t ht => ?_⟩
  · exact Select.names_survive (Select.sound_row hs hNames)
  · have hNamed : t.Named := Schema.named_ofStatements (named_of_mem hNames) t ht
    refine ⟨QualifiedName.namesOf_sql hNamed.name, fun c hc => (hNamed.columns c hc).survives, ?_⟩
    exact fun p b h => Predicate.namesOf_bind hNamed h

/-- A table under its second name, and a query over it. -/
def sampleNames : String :=
  "CREATE TABLE s.t (a INT, hash INT); ALTER TABLE t RENAME a TO b; SELECT -t.b AS x FROM s.t"

theorem unquoted_names_survive_sampleNames :
    (∃ s, .select s ∈ (parse .standard sampleNames).statements ∧ s.UnquotedIn sampleNames ∧
      NoneDoubled s.nodes ∧ Spells s.row (tokensOf s.sql)) ∧
    (∀ t ∈ tokensOf sampleNames, t.isQuotedName = false) ∧
    ∃ t ∈ (Schema.ofStatements (parse .standard sampleNames).statements).tables,
      namesOf t.qualifiedName = ["s", "t"] ∧ ∀ c ∈ t.columns, Survives c.name := by
  obtain ⟨-, hQueries, hTables⟩ := unquoted_names_survive .standard sampleNames
  have hUnquoted : ∀ t ∈ tokensOf sampleNames, t.isQuotedName = false := by decide +kernel
  obtain ⟨s, hs, hNames, hNodes⟩ : ∃ s, .select s ∈ (parse .standard sampleNames).statements ∧
      s.UnquotedIn sampleNames ∧ NoneDoubled s.nodes := exists_select (by decide +kernel)
  refine ⟨⟨s, hs, hNames, hNodes, (hQueries s hs hNames).2.2 hNodes⟩, hUnquoted, ?_⟩
  obtain ⟨t, ht, hName⟩ :
    ∃ t ∈ (Schema.ofStatements (parse .standard sampleNames).statements).tables,
      t.schema.toList ++ [t.name] = ["s", "t"] := by decide +kernel
  obtain ⟨hQualified, hColumns, -⟩ := hTables hUnquoted t ht
  exact ⟨t, ht, hQualified.trans hName, hColumns⟩

/-- Two words in one pair of quotes are written as two names. -/
theorem not_survives_quoted :
    ∃ s, .select s ∈ (parse .standard "SELECT \"a b\" FROM t").statements ∧
    .name "a b" ∈ s.row ∧ ¬ Survives "a b" ∧ namesOf s.sql = ["a", "b", "t"] := by
  have hName : ¬ Survives "a b" := fun h => by
    have hWord := h.isName.word
    exact absurd hWord (by decide +kernel)
  obtain ⟨s, hs, hRow, hNames⟩ : ∃ s,
      .select s ∈ (parse .standard "SELECT \"a b\" FROM t").statements ∧ .name "a b" ∈ s.row ∧
        namesOf s.sql = ["a", "b", "t"] := exists_select (by decide +kernel)
  exact ⟨s, hs, hRow, hName, hNames⟩

end SqlKit
