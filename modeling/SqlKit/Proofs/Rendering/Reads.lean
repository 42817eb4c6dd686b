import SqlKit.Proofs.Grammar.Running
import SqlKit.Proofs.Rendering.Glyph
import SqlKit.Proofs.Rendering.Nodes

/-!
# Reading a row back

`Reads k read gs ms level Q` says that the reader `read` takes exactly the row `gs`, wherever the
row stands, without an error and with a result in `Q`. What follows the row is told by `closes`: a
token of a high level ends more than one of a low level, and `level` is the least that ends what
`read` reads. The reader meets the parameters of `ms`; it may come back to itself as often as there
are tokens left, or as there are with `k` more.

The rules of this file are those of the building blocks of readers, for a known row.
-/

namespace SqlKit.Grammar

open Parse

/-! ## Entries of chains -/

namespace Parse

section Entry

variable {α β : Type} {accept : Token → Option β} {item : β → Parse α} {s : State}

/-- The next entry of a chain, if there is one. -/
def entry (accept : Token → Option β) (item : β → Parse α) : Parse (Option α) := do
  match ← take? accept with
  | some b => some <$> item b
  | none => return none

theorem run_entry_none (h : ∀ t rest, s.tokens = t :: rest → accept t = none) :
    (entry accept item).run s = (none, s) := by
  have hNone : (take? accept).run s = (none, s) := by
    cases hTokens : s.tokens with
    | nil => exact run_take?_nil hTokens
    | cons t rest => exact run_take?_none hTokens (h t rest hTokens)
  simp only [entry, run_bind, hNone]
  rfl

theorem run_entry_some {t : Token} {rest : List Token} {b : β} (hTokens : s.tokens = t :: rest)
    (hAccept : accept t = some b) : (entry accept item).run s =
      (some ((item b).run (s.take t rest)).1, ((item b).run (s.take t rest)).2) := by
  simp only [entry, run_bind, run_take?_some hTokens hAccept]
  rfl

/-- A chain goes on behind each entry. -/
theorem chainFrom_of_some {a : α} (h : ((entry accept item).run s).1 = some a) :
    chainFrom accept item s =
      (a :: (chainFrom accept item ((entry accept item).run s).2).1,
        (chainFrom accept item ((entry accept item).run s).2).2) := by
  cases hTokens : s.tokens with
  | nil => rw [run_entry_none (by simp [hTokens])] at h; cases h
  | cons t rest =>
    cases hAccept : accept t with
    | none =>
      rw [run_entry_none (by simp [hTokens, hAccept])] at h
      cases h
    | some b =>
      rw [run_entry_some hTokens hAccept] at h ⊢
      obtain rfl := Option.some.inj h
      rw [chainFrom_some hTokens hAccept]

end Entry

end Parse

/-! ## What ends a reading -/

/-- How much a token ends. An operator ends the layers below its own; the words of a query come in
the order of its parts, and so do those of a column definition; parentheses, a new query and the end
of the text end everything. What may go on with a term ends nothing. -/
def closes : TokenKind → Nat
  | .symbol .star | .symbol .slash | .symbol .percent => 1
  | .symbol .plus | .symbol .minus => 2
  | .symbol .concat | .keyword .DEFAULT => 3
  | .symbol .equal | .symbol .notEqual | .symbol .less | .symbol .lessEqual | .symbol .greater
  | .symbol .greaterEqual | .keyword .IS | .keyword .NOT | .keyword .BETWEEN | .keyword .IN
  | .keyword .LIKE | .keyword .REGEXP | .keyword .ESCAPE | .keyword .NULL => 4
  | .keyword .AND | .symbol .andAnd | .keyword .AUTOINCREMENT | .keyword .IDENTITY => 5
  | .keyword .OR | .keyword .UNIQUE => 6
  | .keyword .AS | .keyword .ASC | .keyword .DESC | .keyword .WHEN | .keyword .THEN
  | .keyword .PRIMARY => 7
  | .keyword .NULLS | .keyword .ELSE | .keyword .CHECK => 8
  | .keyword .ON | .keyword .USING | .keyword .END => 9
  | .symbol .comma | .keyword .JOIN | .keyword .NATURAL | .keyword .INNER | .keyword .LEFT
  | .keyword .RIGHT | .keyword .FULL | .keyword .CROSS => 10
  | .keyword .FROM => 11
  | .keyword .WHERE => 12
  | .keyword .GROUP => 13
  | .keyword .HAVING => 14
  | .keyword .UNION | .keyword .INTERSECT | .keyword .EXCEPT => 15
  | .keyword .ORDER => 16
  | .keyword .LIMIT => 17
  | .keyword .OFFSET => 18
  | .symbol .rightParen | .keyword .SELECT | .keyword .VALUES | .endOfInput => 19
  | _ => 0

/-- What holds of the kinds of tokens from the start of a row on, if what follows the row ends
`level`. -/
def Leads (level : Nat) (P : List TokenKind → Prop) (gs : Script) : Prop :=
  ∀ more, level ≤ closes (Script.lead more) → P (Script.kinds (gs ++ more))

/-- The kind of the first token of some kinds. -/
def first (ks : List TokenKind) : TokenKind := ks.headD .endOfInput

/-- From its start on a row ends `level`, if what follows it ends `next`. -/
def Stops (level next : Nat) (gs : Script) : Prop :=
  Leads next (fun ks => level ≤ closes (first ks)) gs

theorem Leads.append {level next : Nat} {P : List TokenKind → Prop} {gs hs : Script}
    (h : Leads level P gs) (hStops : Stops level next hs) : Leads next P (gs ++ hs) := by
  intro more hMore
  rw [List.append_assoc]
  exact h _ (hStops more hMore)

theorem Leads.imp {level : Nat} {P Q : List TokenKind → Prop} {gs : Script} (h : Leads level P gs)
    (hPQ : ∀ ks, P ks → Q ks) : Leads level Q gs := fun more hMore => hPQ _ (h more hMore)

theorem Leads.mono {level next : Nat} {P : List TokenKind → Prop} {gs : Script}
    (h : Leads level P gs)
    (hLevel : level ≤ next) : Leads next P gs := fun more hMore => h more (hLevel.trans hMore)

theorem Leads.blank {level : Nat} {P : List TokenKind → Prop} {gs : Script} (h : Leads level P gs) :
    Leads level P (.blank :: gs) := h

theorem stops_nil {level next : Nat} (h : level ≤ next) : Stops level next [] :=
  fun _ hMore => h.trans hMore

theorem stops_cons {level next : Nat} {g : Glyph} {k : TokenKind} {gs : Script}
    (hKinds : g.kinds = [k])
    (h : level ≤ closes k) : Stops level next (g :: gs) := by
  intro more _
  simpa [hKinds, first] using h

theorem stops_blank {level next : Nat} {gs : Script} (h : Stops level next gs) :
    Stops level next (.blank :: gs) := h

theorem Stops.append {level middle next : Nat} {gs hs : Script} (h : Stops level middle gs)
    (h' : Stops middle next hs) : Stops level next (gs ++ hs) := Leads.append h h'

/-- What ends a level is no token that ends less. -/
theorem Stops.ne {level next : Nat} {kind : TokenKind} {gs : Script} (h : Stops level next gs)
    (hKind : closes kind < level) : Leads next (fun ks => first ks ≠ kind) gs :=
  h.imp fun ks hks hFirst => by
    rw [hFirst] at hks
    omega

/-- Nor is what follows the end of a row. -/
theorem leads_ne {level : Nat} {kind : TokenKind} (h : closes kind < level) :
    Leads level (fun ks => first ks ≠ kind) [] := (stops_nil le_rfl).ne h

/-! ## Rows in front of a reader -/

/-- A state in which a row is still to be read, without an error so far. -/
structure At (s : State) (gs : Script) : Prop where
  tokens : Spells gs s.tokens
  terminator : s.terminator.kind = .endOfInput
  error : s.error = none

theorem At.kinds {s : State} {gs : Script} (h : At s gs) :
    Script.kinds gs = s.tokens.map Token.kind := h.tokens.kinds_eq

theorem At.current {s : State} {gs : Script} (h : At s gs) :
    s.current.kind = first (Script.kinds gs) := by
  rw [h.kinds]
  cases hTokens : s.tokens with
  | nil => rw [State.current_nil hTokens, h.terminator]; rfl
  | cons t rest => rw [State.current_cons hTokens]; rfl

theorem At.blank {s : State} {gs : Script} (h : At s (.blank :: gs)) : At s gs :=
  ⟨h.tokens.of_blank, h.terminator, h.error⟩

/-- The first token of a row that starts with a glyph of one token. -/
theorem At.token {s : State} {g : Glyph} {k : TokenKind} {gs : Script} (h : At s (g :: gs))
    (hKinds : g.kinds = [k]) :
    ∃ t rest, s.tokens = t :: rest ∧ t.kind = k ∧ (∀ n, g = .name n → t.text = n) ∧
      At (s.take t rest) gs := by
  obtain ⟨t, rest, hTokens, hKind, hText, hRest⟩ := h.tokens.of_single hKinds
  exact ⟨t, rest, hTokens, hKind, hText, hRest, h.terminator, h.error⟩

/-- A reader takes exactly a row, without an error and with a result of some sort. -/
def Reads {α : Type} (k : Nat) (read : Rules → Parse α) (gs : Script) (ms : List ParamMark)
    (level : Nat)
    (Q : α → Prop) : Prop :=
  ∀ ⦃depth s more τ⦄, At s (gs ++ more) → s.tokens.length + k ≤ depth →
    level ≤ closes (Script.lead more) → Follows s.scope ms τ →
    Q ((read (.upTo depth)).run s).1 ∧ At ((read (.upTo depth)).run s).2 more ∧
      ((read (.upTo depth)).run s).2.scope = τ

namespace Reads

variable {α β : Type} {k level next : Nat} {gs hs : Script} {ms ns : List ParamMark} {Q : α → Prop}
  {R : β → Prop}

theorem pure {a : α} (h : Q a) : Reads k (fun _ => pure a) [] [] level Q :=
  fun _ _ _ _ hs _ _ hMarks => ⟨h, hs, hMarks⟩

theorem bind {m : Rules → Parse α} {f : Rules → α → Parse β} (h : Reads k m gs ms level Q)
    (hStops : Stops level next hs)
    (hf : ∀ a, Q a → Reads k (fun rules => f rules a) hs ns next R) :
    Reads k (fun rules => m rules >>= f rules) (gs ++ hs) (ms ++ ns) next R := by
  intro depth s more τ hs hDepth hMore hMarks
  obtain ⟨ρ, hFirst, hRest⟩ := follows_append.mp hMarks
  rw [List.append_assoc] at hs
  obtain ⟨hResult, hState, hScope⟩ := h hs hDepth (hStops more hMore) hFirst
  have hLength := (m (.upTo depth)).length_run_le s
  exact hf _ hResult hState (by omega) hMore (hScope ▸ hRest)

/-- The parameters are all in the first part. -/
theorem bindLast {m : Rules → Parse α} {f : Rules → α → Parse β} (h : Reads k m gs ms level Q)
    (hStops : Stops level next hs)
    (hf : ∀ a, Q a → Reads k (fun rules => f rules a) hs [] next R) :
    Reads k (fun rules => m rules >>= f rules) (gs ++ hs) ms next R := by
  have hBind := h.bind hStops hf
  rwa [List.append_nil] at hBind

/-- The parameters are all in the second part. -/
theorem bindFirst {m : Rules → Parse α} {f : Rules → α → Parse β} (h : Reads k m gs [] level Q)
    (hStops : Stops level next hs)
    (hf : ∀ a, Q a → Reads k (fun rules => f rules a) hs ns next R) :
    Reads k (fun rules => m rules >>= f rules) (gs ++ hs) ns next R := h.bind hStops hf

/-- Nothing is read in the second part. -/
theorem bindEnd {m : Rules → Parse α} {f : Rules → α → Parse β} (h : Reads k m gs ms level Q)
    (hf : ∀ a, Q a → Reads k (fun rules => f rules a) [] [] level R) :
    Reads k (fun rules => m rules >>= f rules) gs ms level R := by
  have hBind := h.bindLast (stops_nil (Nat.le_refl level)) hf
  rwa [List.append_nil] at hBind

theorem map {m : Rules → Parse α} {f : α → β} (h : Reads k m gs ms level Q)
    (hf : ∀ a, Q a → R (f a)) : Reads k (fun rules => f <$> m rules) gs ms level R := by
  intro depth s more τ hs hDepth hMore hMarks
  obtain ⟨hResult, hState⟩ := h hs hDepth hMore hMarks
  exact ⟨hf _ hResult, hState⟩

theorem blank {m : Rules → Parse α} (h : Reads k m gs ms level Q) :
    Reads k m (.blank :: gs) ms level Q := fun _ _ _ _ hs => h hs.blank

theorem imp {m : Rules → Parse α} {Q' : α → Prop} (h : Reads k m gs ms level Q)
    (hQ : ∀ a, Q a → Q' a) : Reads k m gs ms level Q' := by
  intro depth s more τ hs hDepth hMore hMarks
  obtain ⟨hResult, hState⟩ := h hs hDepth hMore hMarks
  exact ⟨hQ _ hResult, hState⟩

/-- More may follow, and fewer returns may be needed, than is asked for. -/
theorem mono {m : Rules → Parse α} {k' : Nat} (h : Reads k m gs ms level Q) (hk : k ≤ k')
    (hLevel : level ≤ next) : Reads k' m gs ms next Q :=
  fun _ _ _ _ hs hDepth hMore hMarks =>
    h hs (by omega) (hLevel.trans hMore) hMarks

/-- The same row and the same marks, put differently. -/
theorem cast {m : Rules → Parse α} (h : Reads k m gs ms level Q) (hRow : gs = hs)
    (hMarks : ms = ns) :
    Reads k m hs ns level Q := hRow ▸ hMarks ▸ h

/-! ### Looking -/

/-- What is seen of a state with a row is known from the row. -/
theorem look {f : State → β} {m : Rules → β → Parse α} (b : β)
    (hLook : ∀ s more, At s (gs ++ more) → level ≤ closes (Script.lead more) → f s = b)
    (h : Reads k (fun rules => m rules b) gs ms level Q) :
    Reads k (fun rules => Parse.look f >>= m rules) gs ms level Q := by
  intro depth s more τ hs hDepth hMore hMarks
  simp only [run_bind, run_look, hLook s more hs hMore]
  exact h hs hDepth hMore hMarks

/-- What is seen of the kind of the next token. -/
theorem lookKind {f : TokenKind → β} {m : Rules → β → Parse α} (b : β)
    (hLook : Leads level (fun ks => f (first ks) = b) gs)
    (h : Reads k (fun rules => m rules b) gs ms level Q) :
    Reads k (fun rules => Parse.look (fun s => f s.current.kind) >>= m rules) gs ms level Q := by
  refine look b (fun s more hs hMore => ?_) h
  rw [hs.current]
  exact hLook more hMore

/-! ### Taking -/

section Take

variable {accept : Token → Option β} {m : Rules → Option β → Parse α} {g : Glyph} {kind : TokenKind}

theorem take {b : β} (hKinds : g.kinds = [kind])
    (hAccept : ∀ t : Token, t.kind = kind → (∀ n, g = .name n → t.text = n) → accept t = some b)
    (h : Reads (k + 1) (fun rules => m rules (some b)) gs ms level Q) :
    Reads k (fun rules => take? accept >>= m rules) (g :: gs) ms level Q := by
  intro depth s more τ hs hDepth hMore hMarks
  obtain ⟨t, rest, hTokens, hKind, hText, hNext⟩ := hs.token hKinds
  simp only [run_bind, run_take?_some hTokens (hAccept t hKind hText)]
  rw [hTokens, List.length_cons] at hDepth
  exact h hNext (show rest.length + (k + 1) ≤ depth by omega) hMore hMarks

theorem takeNone
    (hAccept : Leads level (fun ks => ∀ t : Token, t.kind = first ks → accept t = none) gs)
    (h : Reads k (fun rules => m rules none) gs ms level Q) :
    Reads k (fun rules => take? accept >>= m rules) gs ms level Q := by
  intro depth s more τ hs hDepth hMore hMarks
  have hNone : (take? accept).run s = (none, s) := by
    cases hTokens : s.tokens with
    | nil => exact run_take?_nil hTokens
    | cons t rest =>
      have hKind := hs.current
      rw [State.current_cons hTokens] at hKind
      exact run_take?_none hTokens (hAccept more hMore t hKind)
  simp only [run_bind, hNone]
  exact h hs hDepth hMore hMarks

end Take

section Eat

variable {m : Rules → Bool → Parse α} {g : Glyph} {kind : TokenKind}

theorem eatKind_bind {m : Bool → Parse α} :
    (Parse.eatKind kind >>= m) =
      Parse.take? (fun t => if t.kind = kind then some () else none) >>= fun o => m o.isSome := by
  simp only [Parse.eatKind, bind_assoc, pure_bind]

/-- Takes a token that is there. -/
theorem eat (hKinds : g.kinds = [kind])
    (h : Reads (k + 1) (fun rules => m rules true) gs ms level Q) :
    Reads k (fun rules => Parse.eatKind kind >>= m rules) (g :: gs) ms level Q := by
  simp only [eatKind_bind]
  exact take (b := ()) hKinds (fun t hKind _ => if_pos hKind) h

/-- Takes nothing where another token is next. -/
theorem eatNone (hKind : Leads level (fun ks => first ks ≠ kind) gs)
    (h : Reads k (fun rules => m rules false) gs ms level Q) :
    Reads k (fun rules => Parse.eatKind kind >>= m rules) gs ms level Q := by
  simp only [eatKind_bind]
  exact takeNone (hKind.imp fun ks hks t ht => if_neg (ht ▸ hks)) h

/-- Goes on behind a token that is there. -/
theorem eatThen {a b : Rules → Parse α} (hKinds : g.kinds = [kind])
    (h : Reads (k + 1) a gs ms level Q) :
    Reads k (fun rules => Parse.eatKind kind >>= fun c => if c = true then a rules else b rules)
      (g :: gs) ms level Q :=
  eat (m := fun rules c => if c = true then a rules else b rules) hKinds h

/-- Goes the other way where another token is next. -/
theorem eatElse {a b : Rules → Parse α} (hKind : Leads level (fun ks => first ks ≠ kind) gs)
    (h : Reads k b gs ms level Q) :
    Reads k (fun rules => Parse.eatKind kind >>= fun c => if c = true then a rules else b rules)
      gs ms level Q :=
  eatNone (m := fun rules c => if c = true then a rules else b rules) hKind h

end Eat

/-! ### Asking -/

section Ask

variable {m : Rules → β → Parse α} {g : Glyph} {kind : TokenKind} {expected : Expected}

theorem ask {accept : Token → Option β} {standIn b : β} (hKinds : g.kinds = [kind])
    (hAccept : ∀ t : Token, t.kind = kind → (∀ n, g = .name n → t.text = n) → accept t = some b)
    (h : Reads (k + 1) (fun rules => m rules b) gs ms level Q) :
    Reads k (fun rules => Parse.ask expected standIn accept >>= m rules) (g :: gs) ms level Q := by
  simp only [Parse.ask, bind_assoc]
  exact take (b := b) hKinds hAccept (by simpa only [pure_bind] using h)

/-- Asks for a symbol that is there. -/
theorem expect {symbol : Symbol} {m : Rules → Unit → Parse α}
    (h : Reads (k + 1) (fun rules => m rules ()) gs ms level Q) :
    Reads k (fun rules => Parse.expect symbol >>= m rules) (.symbol symbol :: gs) ms level Q := by
  simp only [Parse.expect, Parse.askKind, bind_assoc, pure_bind]
  exact ask (b := true) rfl (fun t hKind _ => if_pos hKind) h

/-- Asks for a keyword that is there. -/
theorem expectKeyword {word : Keyword} {m : Rules → Unit → Parse α}
    (h : Reads (k + 1) (fun rules => m rules ()) gs ms level Q) :
    Reads k (fun rules => Parse.expectKeyword word >>= m rules)
      (.keyword word :: gs) ms level Q := by
  simp only [Parse.expectKeyword, Parse.askKind, bind_assoc, pure_bind]
  exact ask (b := true) rfl (fun t hKind _ => if_pos hKind) h

/-- Takes the token of a glyph, whatever it is. -/
theorem advance {m : Rules → Unit → Parse α} (hKinds : g.kinds = [kind])
    (h : Reads (k + 1) (fun rules => m rules ()) gs ms level Q) :
    Reads k (fun rules => Parse.advance >>= m rules) (g :: gs) ms level Q := by
  simp only [Parse.advance, bind_assoc, pure_bind]
  exact take (b := ()) hKinds (fun _ _ _ => rfl) h

end Ask

/-! ### Parameters -/

/-- Notes the type of a name. -/
theorem declare {name typeName : String} {m : Rules → Unit → Parse α}
    (h : Reads k (fun rules => m rules ()) gs ms level Q) :
    Reads k (fun rules => Parse.declare name.toLower typeName >>= m rules) gs
      (.declared name typeName :: ms) level Q :=
  fun _ _ _ _ hs hDepth hMore hMarks => h ⟨hs.tokens, hs.terminator, hs.error⟩ hDepth hMore hMarks

/-- Finds the type that a name has. -/
theorem declaredType? {name typeName : String} {m : Rules → Option String → Parse α}
    (h : Reads k (fun rules => m rules (some typeName)) gs ms level Q) :
    Reads k (fun rules => Parse.declaredType? name.toLower >>= m rules) gs
      (.used name typeName :: ms) level Q := by
  intro depth s more τ hs hDepth hMore hMarks
  have hLookup : s.bindings.lookup name.toLower = some typeName := hMarks.1
  simp only [Parse.declaredType?, run_bind, run_look, hLookup]
  exact h hs hDepth hMore hMarks.2

/-- The spans that something is read from may be any. -/
theorem spanFrom {span : Span} {m : Rules → Span → Parse α}
    (h : ∀ span, Reads k (fun rules => m rules span) gs ms level Q) :
    Reads k (fun rules => Parse.spanFrom span >>= m rules) gs ms level Q :=
  fun _ _ _ _ hs hDepth hMore hMarks => h _ hs hDepth hMore hMarks

theorem current {m : Rules → Token → Parse α}
    (h : ∀ t, Reads k (fun rules => m rules t) gs ms level Q) :
    Reads k (fun rules => Parse.current >>= m rules) gs ms level Q :=
  fun _ _ _ _ hs hDepth hMore hMarks => h _ hs hDepth hMore hMarks

/-! ### Repeating -/

section Chain

variable {accept : Token → Option β} {item : Rules → β → Parse α}

/-- Ends a chain where nothing more is accepted. -/
theorem chainNil (hStop : ∀ t : Token, level ≤ closes t.kind → accept t = none) {Q : List α → Prop}
    (h : Q []) : Reads k (fun rules => chain accept (item rules)) [] [] level Q := by
  intro depth s more τ hs hDepth hMore hMarks
  have hEnd : chainFrom accept (item (.upTo depth)) s = ([], s) := by
    cases hTokens : s.tokens with
    | nil => exact chainFrom_nil hTokens
    | cons t rest =>
      refine chainFrom_none hTokens (hStop t ?_)
      have hKind := hs.current
      rw [State.current_cons hTokens] at hKind
      rw [hKind]
      exact hMore
  simp only [chain, hEnd]
  exact ⟨h, hs, hMarks⟩

/-- One more entry in front of a chain. -/
theorem chainCons {R : List α → Prop}
    (h : Reads k (fun rules => entry accept (item rules)) gs ms level fun o => ∃ a, o = some a ∧
    Q a)
    (hStops : Stops level next hs)
    (hMore : Reads k (fun rules => chain accept (item rules)) hs ns next R) :
    Reads k (fun rules => chain accept (item rules)) (gs ++ hs) (ms ++ ns) next
      fun xs => ∃ a as, xs = a :: as ∧ Q a ∧ R as := by
  intro depth s more τ hs hDepth hNext hMarks
  obtain ⟨ρ, hFirst, hRest⟩ := follows_append.mp hMarks
  rw [List.append_assoc] at hs
  obtain ⟨⟨a, hResult, ha⟩, hState, hScope⟩ := h hs hDepth (hStops more hNext) hFirst
  have hLength := (entry accept (item (.upTo depth))).length_run_le s
  have hLeft := (Nat.add_le_add_right hLength k).trans hDepth
  obtain ⟨hMoreResult, hMoreState, hMoreScope⟩ := hMore hState hLeft hNext (hScope ▸ hRest)
  simp only [chain] at hMoreResult hMoreState hMoreScope ⊢
  rw [chainFrom_of_some hResult]
  exact ⟨⟨a, _, rfl, ha, hMoreResult⟩, hMoreState, hMoreScope⟩

end Chain

/-! ### Coming back -/

/-- A reader that the grammar comes back to, behind a token. -/
theorem again {m m' : Rules → Parse α} (h : Reads 0 m' gs ms level Q)
    (hAgain : ∀ depth, m (.upTo (depth + 1)) = m' (.upTo depth)) : Reads 1 m gs ms level Q := by
  intro depth s more τ hs hDepth hMore hMarks
  obtain ⟨depth, rfl⟩ : ∃ d, depth = d + 1 := ⟨depth - 1, by omega⟩
  rw [hAgain]
  exact h hs (by omega) hMore hMarks

end Reads

/-! ## Names -/

/-- A token of a name stands for this name. -/
theorem nameOf?_of_isName {t : Token} {n : String} (h : IsName n) (hKind : t.kind = wordKind n)
    (hText : t.text = n) : nameOf? t = some n := by
  unfold nameOf?
  rw [hKind, hText]
  have hFree := h.free
  unfold wordKind at hFree ⊢
  split at hFree
  · next w _ => simp [hFree w rfl]
  · rfl

namespace Reads

variable {α : Type} {k level : Nat} {gs : Script} {ms : List ParamMark} {Q : α → Prop}

/-- Asks for a name that is there. -/
theorem name {role : NameRole} {n : String} {m : Rules → String → Parse α} (hn : IsName n)
    (h : Reads (k + 1) (fun rules => m rules n) gs ms level Q) :
    Reads k (fun rules => Parse.name role >>= m rules) (.name n :: gs) ms level Q :=
  ask rfl (fun _ hKind hText => nameOf?_of_isName hn hKind (hText n rfl)) h

end Reads

end SqlKit.Grammar
