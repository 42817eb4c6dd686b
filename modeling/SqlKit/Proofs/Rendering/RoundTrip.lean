import SqlKit.Proofs.Batch.ErrorPlaces
import SqlKit.Proofs.Rendering.Bare
import SqlKit.Proofs.Rendering.Lexing
import SqlKit.Proofs.Rendering.Select

/-!
# Rendering is undone by parsing

A query that was read without an error is read from its own text again. The parts:

* `Segment.read_select`: what the reading of a segment was if it came to a query;
* `Segment.covers_select`: the span of this query covers the segment;
* `known`: the query is written in a row that is read back;
* `Introduced.follows`: the parameters are met in the same order without what was declared before;
* `parse_row`: the text of a row is one statement.
-/

namespace SqlKit

open Grammar

/-! ## Parameters -/

/-- Every parameter without a type is met behind a declaration of its name, or its name is among
those declared before. -/
def Introduced (names : List String) : List ParamMark → Prop
  | [] => True
  | .place _ :: ms => Introduced names ms
  | .declared name _ :: ms => Introduced (name.toLower :: names) ms
  | .used name _ :: ms => name.toLower ∈ names ∧ Introduced names ms

/-- Marks lead on from any scope that has the declared names, and these with the same types. -/
theorem Introduced.follows {names : List String} {ms : List ParamMark} (h : Introduced names ms)
    {b b' : Bindings} {p : Nat} {τ : Scope} (hFollows : Follows ⟨b, p⟩ ms τ)
    (hNames : ∀ name ∈ names, b'.lookup name = b.lookup name) : ∃ τ', Follows ⟨b', p⟩ ms τ' := by
  induction ms generalizing names b b' p with
  | nil => exact ⟨_, rfl⟩
  | cons m ms ih =>
    cases m with
    | place position =>
      obtain ⟨hPosition, hRest⟩ := hFollows
      obtain ⟨τ', hFollows'⟩ := ih h hRest hNames
      exact ⟨τ', hPosition, hFollows'⟩
    | declared name typeName =>
      refine ih h hFollows fun other hOther => ?_
      rw [List.lookup_cons, List.lookup_cons]
      split
      · rfl
      · next hNe =>
        rcases List.mem_cons.mp hOther with rfl | hOther
        · simp at hNe
        · exact hNames other hOther
    | used name typeName =>
      obtain ⟨hName, hRest⟩ := h
      obtain ⟨hLookup, hFollows⟩ := hFollows
      obtain ⟨τ', hFollows'⟩ := ih hRest hFollows hNames
      exact ⟨τ', (hNames _ hName).trans hLookup, hFollows'⟩

/-! ## The segment of a query -/

namespace Segment

variable {seg : Segment} {b : Bindings}

/-- Kinds of tokens that a statement of another sort than a query starts with. -/
def startsOther : TokenKind → Bool
  | .keyword .CREATE | .keyword .ALTER | .keyword .DROP | .keyword .INSERT | .keyword .REPLACE
  | .keyword .UPDATE | .keyword .DELETE => true
  | _ => false

theorem statementOfKind_select {rules : Rules} {s : State}
    (h : startsOther s.current.kind = false) :
    (statementOfKind rules).run s = (Statement.select <$> select rules).run s := by
  simp only [statementOfKind, Parse.kind, Parse.run_bind, Parse.run_look]
  split
  all_goals first | rfl | simp_all [startsOther]

theorem startsOther_of_select {rules : Rules} {s : State} {q : Select}
    (h : ((statementOfKind rules).run s).1 = .select q) : startsOther s.current.kind = false := by
  simp only [statementOfKind, Parse.kind, Parse.run_bind, Parse.run_look] at h
  split at h
  case h_8 => unfold startsOther; split <;> simp_all
  all_goals cases h

/-- A statement without an error has taken all tokens. -/
theorem After.statement {rules : Rules} {s : State}
    (hInside : ∀ t ∈ s.tokens, endsStatement t = false) : After (Grammar.statement rules) s
    fun x s' => (statementOfKind rules).run s = (x, s') ∧ s'.tokens = [] := by
  have hKind :
    After (statementOfKind rules) s fun x s' => (statementOfKind rules).run s = (x, s') :=
    fun _ => rfl
  have hRun : After (Grammar.statement rules) s
      fun x s' => (statementOfKind rules).run s = (x, s') := by
    refine hKind.bind fun x s' hRun _ => After.look ?_
    split
    · exact After.fail
    · exact .pure hRun
  exact fun hError => ⟨hRun hError, tokens_statement rules hInside hError⟩

/-- A segment that was read as a query without an error is all taken by the reader of queries. -/
theorem read_select {q : Select} (hWhole : seg.Whole)
    (hStatement : (seg.read b).1.statement = .select q)
    (hError : (seg.read b).1.error = none) :
    startsOther seg.first.kind = false ∧ ∃ s', (select (.forTokens seg.tokens.length)).run
      (seg.start b) = (q, s') ∧
      s' = ((statement (.forTokens seg.tokens.length)).run (seg.start b)).2 ∧
        s'.tokens = [] ∧ s'.error = none := by
  obtain ⟨hRun, hTokens⟩ := After.statement (s := seg.start b) hWhole hError
  have hFirst := startsOther_of_select ((congrArg Prod.fst hRun).trans hStatement)
  rw [statementOfKind_select hFirst, Parse.run_map] at hRun
  obtain ⟨hQuery, hState⟩ := Prod.mk.inj hRun
  have hSame := Statement.select.inj (hQuery.trans hStatement)
  exact ⟨hFirst, _, Prod.ext hSame hState, rfl, hTokens, hError⟩

/-- The tokens of a segment stand between the first and the last one. -/
theorem Ordered.between (h : seg.Ordered) {t : Token} (ht : t ∈ seg.tokens) :
    seg.first.span.first.offset ≤ t.span.first.offset ∧
      t.span.last.offset ≤ (seg.tokens.getLast (List.cons_ne_nil _ _)).span.last.offset := by
  have hOrder := (List.pairwise_append.mp h.pairwise).1
  constructor
  · rcases List.mem_cons.mp ht with rfl | hRest
    · exact le_rfl
    · have hBehind := (List.pairwise_cons.mp hOrder).1 t hRest
      exact (h.span seg.first List.mem_cons_self).trans hBehind
  · have hSplit := List.dropLast_append_getLast (List.cons_ne_nil seg.first seg.rest)
    have hLast := List.getLast_mem (List.cons_ne_nil seg.first seg.rest)
    rw [tokens, ← hSplit] at hOrder ht
    rcases List.mem_append.mp ht with ht | ht
    · exact ((List.pairwise_append.mp hOrder).2.2 t ht _ (List.mem_singleton_self _)).trans
        (h.span _ hLast)
    · exact (congrArg (fun u : Token => u.span.last.offset) (List.mem_singleton.mp ht)).le

/-- The span of a query covers the tokens of the segment that it was read from. -/
theorem covers_select {text : String} (hSegment : seg ∈ segments text) {q : Select}
    (hStatement : (seg.read b).1.statement = .select q) (hError : (seg.read b).1.error = none)
    {t : Token} (ht : t ∈ seg.tokens) : q.span.first.offset ≤ t.span.first.offset ∧
      t.span.last.offset ≤ q.span.last.offset := by
  obtain ⟨-, s', hRun, hState, hTokens, -⟩ :=
    read_select (segments_whole hSegment) hStatement hError
  have hOrdered := (segments_pairwise text).1 seg hSegment
  have hStart : seg.Traces (seg.start b) :=
    ⟨⟨[], rfl, fun t ht => nomatch ht⟩, rfl, fun e' he' => nomatch he'⟩
  have hTraces : seg.Traces s' := by
    rw [hState]
    refine (invariant_traces (fun t ht => ?_) (segments_isEnd hSegment)).run_statement _ hStart
    exact isEnd_tokensOf text t (segments_mem hSegment ht)
  obtain ⟨taken, hTaken, hPrevious⟩ := hTraces.taken
  rw [hTokens, List.append_nil] at hTaken
  have hLast : s'.previous = (seg.tokens.getLast (List.cons_ne_nil _ _)).span := by
    refine hPrevious _ ?_
    rw [← hTaken]
    exact List.getLast?_eq_some_getLast (List.cons_ne_nil _ _)
  have hSpan : q.span = ((Parse.spanFrom seg.first.span).run s').1 := by
    have hSelect := @span_of_select (seg.start b) (.forTokens seg.tokens.length)
    rwa [hRun] at hSelect
  have hFirst := hOrdered.between (List.getLast_mem (List.cons_ne_nil seg.first seg.rest))
  have hBetween := hOrdered.between ht
  have hSelf := hOrdered.span seg.first List.mem_cons_self
  rw [hSpan, Parse.spanFrom, Parse.run_look, hLast]
  have hNot : ¬ (seg.tokens.getLast (List.cons_ne_nil _ _)).span.first.offset <
      seg.first.span.first.offset := Nat.not_lt.mpr hFirst.1
  rw [if_neg hNot]
  simp only [Span.merge]
  split <;> split <;> omega

end Segment

/-! ## The text of a row -/

theorem Spells.eq_nil {ts : List Token} (h : Spells [] ts) : ts = [] := by
  cases h
  rfl

/-- No glyph that fits is read as a semicolon. -/
theorem Spells.ne_semicolon {gs : Script} {ts : List Token} (hs : Spells gs ts)
    (h : ∀ g ∈ gs, g.Fits) : ∀ t ∈ ts, isSemicolon t = false := by
  intro t ht
  have hKind : t.kind ∈ Script.kinds gs := by
    rw [hs.kinds_eq]
    exact List.mem_map_of_mem ht
  obtain ⟨g, hg, hKind⟩ := List.mem_flatMap.mp hKind
  have hFits := h g hg
  rw [Bool.eq_false_iff, Ne, isSemicolon_iff]
  intro hSemicolon
  rw [hSemicolon] at hKind
  cases g with
  | name text =>
    have hWord : TokenKind.symbol .semicolon = wordKind text := by simpa [Glyph.kinds] using hKind
    unfold wordKind at hWord
    split at hWord <;> cases hWord
  | symbol s =>
    simp only [Glyph.kinds, List.mem_singleton, TokenKind.symbol.injEq] at hKind
    exact hFits hKind.symm
  | mark number => cases number <;> simp [Glyph.kinds, Glyph.integerKind] at hKind
  | numeral n =>
    rcases n.kind_cases with ⟨m, -, hNumber⟩ | hNumber <;> simp [Glyph.kinds, hNumber] at hKind
  | blank | keyword | integer | string => simp [Glyph.kinds, Glyph.integerKind] at hKind

/-- Tokens without a semicolon are one segment. -/
theorem segmentsFrom_single {finish : Token} {before ts : List Token}
    (h : ∀ t ∈ ts, isSemicolon t = false) :
    segmentsFrom finish before ts = (Segment.ofTokens? (before ++ ts) finish).toList := by
  induction ts generalizing before with
  | nil => rw [segmentsFrom, List.append_nil]
  | cons t ts ih =>
    obtain ⟨hHead, hTail⟩ := List.forall_mem_cons.mp h
    rw [segmentsFrom, if_neg (by simp [hHead]), ih hTail, List.append_assoc, List.singleton_append]

theorem segments_single {text : String} {t : Token} {ts : List Token}
    (hTokens : tokensOf text = t :: ts) (h : ∀ u ∈ tokensOf text, isSemicolon u = false) :
    segments text = [⟨t, ts, .endOfInput (endOf text)⟩] := by
  rw [segments, segmentsFrom_single h, List.nil_append, hTokens]
  rfl

/-- A row that the tokens of a text were read from, and that is read as a statement, is the only
statement of the text, and there is no error. -/
theorem parse_spelled {gs : Script} {ms : List ParamMark} {Q : Statement → Prop} {τ : Scope}
    {text : String} (hSpells : Spells gs (tokensOf text)) (hFits : ∀ g ∈ gs, g.Fits)
    (hKinds : Script.kinds gs ≠ []) (hReads : Reads 1 statementOfKind gs ms 19 Q)
    (hFollows : Follows ⟨[], 0⟩ ms τ) :
    ∃ x, Q x ∧ parse .standard text = ⟨[x], [], []⟩ := by
  obtain ⟨t, rest, hTokens⟩ : ∃ t rest, tokensOf text = t :: rest := by
    refine List.exists_cons_of_ne_nil fun hNil => hKinds ?_
    rw [hSpells.kinds_eq, hNil]
    rfl
  have hSegments := segments_single hTokens (hSpells.ne_semicolon hFits)
  let seg : Segment := ⟨t, rest, .endOfInput (endOf text)⟩
  have hAt : At (seg.start []) (gs ++ []) := by
    rw [hTokens] at hSpells
    rw [List.append_nil]
    exact ⟨hSpells, rfl, rfl⟩
  obtain ⟨hResult, hEnd, -⟩ := @hReads (seg.tokens.length + 1) _ _ _ hAt le_rfl (by decide) hFollows
  have hRead : (seg.read []).1 =
      ⟨((statementOfKind (.upTo (seg.tokens.length + 1))).run (seg.start [])).1, none⟩ := by
    have hTerminator := ((statementOfKind (.upTo (seg.tokens.length + 1))).moves
      (seg.start [])).terminator_eq
    have hAtEnd : ((statementOfKind (.upTo (seg.tokens.length + 1))).run
        (seg.start [])).2.atEnd = true :=
      (State.atEnd_of_nil hEnd.tokens.eq_nil).trans (congrArg endsStatement hTerminator)
    rw [Segment.read, Rules.forTokens, run_statement, if_pos hAtEnd]
    exact congrArg _ hEnd.error
  refine ⟨_, hResult, ?_⟩
  have hReadings : readings .session text = [(seg.read []).1] := by
    rw [readings, hSegments]
    rfl
  rw [parse_eq, show ParseOptions.standard.scope = .session from rfl, hReadings, hRead]
  rfl

/-- **The text of a row is one statement.** A legal row that is read as a statement is the only
statement of its text, and there is no error. -/
theorem parse_row {gs : Script} {ms : List ParamMark} {Q : Statement → Prop} {τ : Scope}
    {text : String} (hText : Script.chars gs = text.toList) (hLegal : gs.Legal)
    (hKinds : Script.kinds gs ≠ []) (hReads : Reads 1 statementOfKind gs ms 19 Q)
    (hFollows : Follows ⟨[], 0⟩ ms τ) :
    ∃ x, Q x ∧ parse .standard text = ⟨[x], [], []⟩ := by
  have hSpells : Spells gs (tokensOf text) := by
    have hRow := hLegal.spells .start
    rwa [hText] at hRow
  exact parse_spelled hSpells hLegal.fits hKinds hReads hFollows

/-! ## Queries -/

/-- A query of a text whose own text shows all that it is: no name of it was quoted, its nodes are
plain, and the type of a parameter is known from the query itself. -/
structure Select.PlainIn (s : Select) (text : String) : Prop where
  names : ∀ t ∈ tokensOf text, s.span.first.offset ≤ t.span.first.offset →
    t.span.last.offset ≤ s.span.last.offset → t.isQuotedName = false
  nodes : ∀ n ∈ s.nodes, n.Plain
  parameters : Introduced [] (paramMarks s.nodes)

instance : DecidablePred Node.Plain := fun n => by
  unfold Node.Plain
  split <;> infer_instance

instance Introduced.decidable : ∀ names ms, Decidable (Introduced names ms)
  | _, [] => .isTrue trivial
  | names, .place _ :: ms => decidable names ms
  | names, .declared name _ :: ms => decidable (name.toLower :: names) ms
  | names, .used name _ :: ms =>
    have := decidable names ms
    inferInstanceAs (Decidable (name.toLower ∈ names ∧ Introduced names ms))

theorem Select.plainIn_iff {s : Select} {text : String} : s.PlainIn text ↔
    (∀ t ∈ tokensOf text, s.span.first.offset ≤ t.span.first.offset →
      t.span.last.offset ≤ s.span.last.offset → t.isQuotedName = false) ∧
    (∀ n ∈ s.nodes, n.Plain) ∧ Introduced [] (paramMarks s.nodes) :=
  ⟨fun h => ⟨h.names, h.nodes, h.parameters⟩, fun h => ⟨h.1, h.2.1, h.2.2⟩⟩

instance (s : Select) (text : String) : Decidable (s.PlainIn text) :=
  decidable_of_iff' _ Select.plainIn_iff

theorem mem_statements {options : ParseOptions} {text : String} {x : Statement}
    (h : x ∈ (parse options text).statements) :
    ∃ seg ∈ segments text, ∃ b, (seg.read b).1.statement = x ∧ (seg.read b).1.error = none := by
  rw [parse_eq] at h
  obtain ⟨r, hr, rfl⟩ := List.mem_map.mp h
  obtain ⟨hKept, hError⟩ := List.mem_filter.mp hr
  obtain ⟨seg, hSegment, b, rfl⟩ := mem_readSegments (List.mem_filter.mp hKept).1
  exact ⟨seg, hSegment, b, rfl, Option.isNone_iff_eq_none.mp hError⟩

/-- The statement of a row that starts like a query is what the reader of queries makes of it. -/
theorem Reads.select_statement {gs : Script} {s : Select} {k : Nat}
    {P : List TokenKind → Prop} (h : Shown k .select Grammar.select 19 P s gs)
    (hStart : ∀ ks, P ks → Segment.startsOther (first ks) = false) :
    Reads k statementOfKind gs (Print.select.marks s) 19
      fun x => ∃ s', x = .select s' ∧ Like .spans s s' := by
  intro depth st more τ hs hDepth hMore hMarks
  have hKind := hStart _ (h.leads more hMore)
  rw [← hs.current] at hKind
  rw [Segment.statementOfKind_select hKind]
  obtain ⟨hLike, hState⟩ := h.reads hs hDepth hMore hMarks
  exact ⟨⟨_, rfl, hLike⟩, hState⟩

/-- **Parsing undoes writing.** A query that was read without an error is read again from its own
text, as the only statement there and up to the places of its parts. -/
theorem parse_sql {options : ParseOptions} {text : String} {s : Select}
    (h : .select s ∈ (parse options text).statements) (hPlain : s.PlainIn text) :
    ∃ s', parse .standard s.sql = ⟨[.select s'], [], []⟩ ∧ Like .spans s s' := by
  obtain ⟨seg, hSegment, b, hStatement, hError⟩ := mem_statements h
  obtain ⟨hStart, s₁, hRun, -, -, hNone⟩ :=
    Segment.read_select (segments_whole hSegment) hStatement hError
  have hRoom : Room (seg.tokens.length + 1) 1 (seg.start b) := by
    refine ⟨le_rfl, fun t ht => ?_, segments_isEnd hSegment⟩
    have hText := segments_mem hSegment ht
    obtain ⟨hFirst, hLast⟩ := Segment.covers_select hSegment hStatement hError ht
    exact bare_tokensOf hText (hPlain.names t hText hFirst hLast)
  have hLegible := (known _).query _ hRoom
  rw [FaithfulAt, After,
    show Rules.upTo (seg.tokens.length + 1) = .forTokens seg.tokens.length from rfl,
    hRun] at hLegible
  simp only at hLegible
  obtain ⟨⟨gs, hShown⟩, hFollows⟩ := hLegible hNone hPlain.nodes
  obtain ⟨τ, hFollows'⟩ : ∃ τ, Follows ⟨[], 0⟩ (Print.select.marks s) τ :=
    hPlain.parameters.follows hFollows (by simp)
  have hText : Script.chars gs = s.sql.toList := hShown.row ▸ s.chars_row
  have hKinds : Script.kinds gs ≠ [] := by
    intro hNil
    have hFirst : first (Script.kinds (gs ++ [])) = seg.first.kind := hShown.leads [] le_rfl
    rw [List.append_nil, hNil] at hFirst
    have hInside := isEnd_tokensOf text _ (segments_mem hSegment List.mem_cons_self)
    exact absurd (isEnd_iff.mpr hFirst.symm) (by simp [hInside])
  obtain ⟨_, ⟨s', rfl, hLike⟩, hParse⟩ := parse_row hText hShown.legal hKinds
    (Reads.select_statement hShown fun ks hks => hks ▸ hStart) hFollows'
  exact ⟨s', hParse, hLike⟩

/-- Looks for a query among the statements of a text. -/
theorem exists_select {P : Select → Prop} [DecidablePred P] {options : ParseOptions} {text : String}
    (h : (parse options text).statements.any (fun
      | .select s => decide (P s)
      | _ => false) = true) :
    ∃ s, .select s ∈ (parse options text).statements ∧ P s := by
  obtain ⟨x, hx, hP⟩ := List.any_eq_true.mp h
  cases x with
  | select s => exact ⟨s, hx, of_decide_eq_true hP⟩
  | _ => cases hP

/-- A query over a common table, with parameters. -/
def sampleQuery : String :=
  "WITH c AS (SELECT + -1 y) SELECT y AS x FROM c WHERE y > @p:INT OR y IN (@P, ?2) LIMIT ?"

theorem sampleQuery_plain :
    ∃ s, .select s ∈ (parse .standard sampleQuery).statements ∧ s.PlainIn sampleQuery :=
  exists_select (by decide +kernel)

theorem parse_sql_sampleQuery : ∃ s, .select s ∈ (parse .standard sampleQuery).statements ∧
    s.PlainIn sampleQuery ∧ ∃ s', parse .standard s.sql = ⟨[.select s'], [], []⟩ ∧
    Like .spans s s' := by
  obtain ⟨s, hs, hPlain⟩ := sampleQuery_plain
  exact ⟨s, hs, hPlain, parse_sql hs hPlain⟩

end SqlKit
