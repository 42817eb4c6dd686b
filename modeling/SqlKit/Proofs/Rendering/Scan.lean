import SqlKit.Proofs.Rendering.Expression

/-!
# The kinds of an expression, read and written

`writtenKinds` tells what becomes of the kinds of the tokens of an expression when the expression is
read and written again. All kinds stay where they are, but for two: `&&` becomes `AND`, and the
signs of a number become one minus or none. It goes through the kinds from the left, and `Place` is
all that it knows of those before: whether an operand has just ended, so that a sign stands between
two operands, or which signs of the next operand were met.

`Accounts s s' p q ks` says of two states of a reader that the kinds of the tokens between
them become `ks` in this way. The rules of this file are those of the building blocks of readers.
-/

namespace SqlKit

/-- Where a token of an expression stands: behind an operand, or in front of one whose first signs
are these. -/
inductive Place where
  | behind
  | before (signs : List Bool)

/-- Whether an operand has ended with a token of some kind. `ESCAPE` is a name where an operand may
start, and the word of a predicate behind one. -/
def endsOperand (behind : Bool) : TokenKind → Bool
  | .integer _ | .float _ | .string _ | .identifier _ => true
  | .symbol .question | .symbol .rightParen => true
  | .keyword .NULL | .keyword .TRUE | .keyword .FALSE | .keyword .END => true
  | .keyword .ESCAPE => !behind
  | .keyword word => !word.isReserved
  | _ => false

/-- The place behind a token that is no sign of an operand. -/
def Place.after (behind : Bool) (kind : TokenKind) : Place :=
  if endsOperand behind kind = true then .behind else .before []

/-- The kind that is written where a kind was read. -/
def writtenKind : TokenKind → TokenKind
  | .symbol .andAnd => .keyword .AND
  | kind => kind

/-- The kinds of signs. -/
def signKinds (signs : List Bool) : List TokenKind :=
  signs.map fun negative => .symbol (signSymbol negative)

/-- The kinds of a number that may be negative. -/
def numberKinds (value : Int64) : List TokenKind :=
  if value.toInt < 0 then [.symbol .minus, .integer (-value)] else [.integer value]

/-- What is written for one token, and the place behind it. -/
def Place.step : Place → TokenKind → List TokenKind × Place
  | .before signs, .symbol .minus => ([], .before (signs ++ [true]))
  | .before signs, .symbol .plus => ([], .before (signs ++ [false]))
  | .before signs, .integer value => (numberKinds (Grammar.foldSigns signs value), .behind)
  | .before signs, kind => (signKinds signs ++ [writtenKind kind], .after false kind)
  | .behind, kind => ([writtenKind kind], .after true kind)

/-- What is written for some tokens, and the place behind them. -/
def scan (p : Place) : List TokenKind → List TokenKind × Place
  | [] => ([], p)
  | k :: ks => ((p.step k).1 ++ (scan (p.step k).2 ks).1, (scan (p.step k).2 ks).2)

/-- The signs that still stand in front of an operand. -/
def Place.pending : Place → List TokenKind
  | .behind => []
  | .before signs => signKinds signs

/-- What is written for the tokens of an expression. -/
def writtenKinds (ks : List TokenKind) : List TokenKind :=
  (scan (.before []) ks).1 ++ (scan (.before []) ks).2.pending

example : writtenKinds [.symbol .minus, .integer 1, .symbol .plus, .symbol .minus, .symbol .plus,
    .integer 2, .symbol .andAnd, .symbol .minus, .keyword .ESCAPE] =
      [.symbol .minus, .integer 1, .symbol .plus, .symbol .minus, .integer 2, .keyword .AND,
        .symbol .minus, .keyword .ESCAPE] := by decide

theorem scan_append (p : Place) (ks ls : List TokenKind) :
    scan p (ks ++ ls) =
      ((scan p ks).1 ++ (scan (scan p ks).2 ls).1, (scan (scan p ks).2 ls).2) := by
  induction ks generalizing p with
  | nil => rfl
  | cons k ks ih => simp [scan, ih]

namespace Grammar

open Parse

/-! ## States of a reader -/

/-- A token that is no number is written behind the signs in front of it. -/
theorem step_unsigned (signs : List Bool) {kind : TokenKind} (h : isSigned kind = false) :
    (Place.before signs).step kind =
      (signKinds signs ++ [writtenKind kind], .after false kind) := by
  unfold Place.step
  split <;> simp_all [isSigned]

/-- The tokens between two states are written as `ks`, and lead from one place to another. -/
def Accounts (s s' : State) (p q : Place) (ks : List TokenKind) : Prop :=
  ∃ ts, s.tokens = ts ++ s'.tokens ∧ scan p (ts.map Token.kind) = (ks, q)

namespace Accounts

variable {s s₁ s' : State} {p q r : Place} {ks ls : List TokenKind} {t : Token} {rest : List Token}

theorem refl (s : State) (p : Place) : Accounts s s p p [] := ⟨[], rfl, rfl⟩

theorem trans (h : Accounts s s₁ p q ks) (h' : Accounts s₁ s' q r ls) :
    Accounts s s' p r (ks ++ ls) := by
  obtain ⟨ts, hTokens, hScan⟩ := h
  obtain ⟨us, hTokens', hScan'⟩ := h'
  refine ⟨ts ++ us, ?_, ?_⟩
  · rw [hTokens, hTokens', List.append_assoc]
  · rw [List.map_append, scan_append, hScan, hScan']

/-- A token in front. -/
theorem step (hTokens : s.tokens = t :: rest) (hStep : p.step t.kind = (ks, q))
    (h : Accounts (s.take t rest) s' q r ls) : Accounts s s' p r (ks ++ ls) := by
  refine trans ?_ h
  refine ⟨[t], hTokens, ?_⟩
  simp [scan, hStep]

/-- A token in front that is written as it was read. -/
theorem cons {k : TokenKind} (hTokens : s.tokens = t :: rest) (hKind : t.kind = k)
    (hStep : p.step k = ([k], q)) (h : Accounts (s.take t rest) s' q r ls) :
    Accounts s s' p r (k :: ls) := by
  rw [← hKind] at hStep ⊢
  exact step hTokens hStep h

/-- A token at the end that is written as it was read. -/
theorem concat {k : TokenKind} (h : Accounts s s₁ p q ks) (hTokens : s₁.tokens = t :: rest)
    (hKind : t.kind = k) (hStep : q.step k = ([k], r)) :
    Accounts s (s₁.take t rest) p r (ks ++ [k]) := h.trans (cons hTokens hKind hStep (refl _ _))

/-- The signs in front of what is no number. -/
theorem signed (h : Accounts s s' (.before []) .behind ks)
    (hKind : ∀ t rest, s.tokens = t :: rest → isSigned t.kind = false) (signs : List Bool) :
    Accounts s s' (.before signs) .behind (signKinds signs ++ ks) := by
  obtain ⟨ts, hTokens, hScan⟩ := h
  cases ts with
  | nil => cases hScan
  | cons t ts =>
    have hSigned := hKind t (ts ++ s'.tokens) hTokens
    refine ⟨t :: ts, hTokens, ?_⟩
    rw [List.map_cons, scan, step_unsigned _ hSigned] at hScan ⊢
    obtain ⟨hOut, hPlace⟩ := Prod.mk.inj hScan
    rw [← hOut, ← hPlace]
    simp [signKinds]

end Accounts

/-! ## Tokens of an expression -/

def isFloat : TokenKind → Bool
  | .float _ => true
  | _ => false

/-- Tokens of an expression without subqueries and binary numbers, in which no minus stands right
behind another one. -/
structure PlainTokens (ts : List Token) : Prop where
  query : ∀ t ∈ ts, isQueryStart t.kind = false
  float : ∀ t ∈ ts, isFloat t.kind = false
  minus : ts.IsChain fun t u => ¬ (t.kind = .symbol .minus ∧ u.kind = .symbol .minus)

/-- There are so few tokens left that a reader may come back to itself `n` times with `k` to spare,
and they are plain. -/
structure Fair (n k : Nat) (s : State) : Prop extends Room n k s where
  plain : PlainTokens s.tokens

variable {α β γ ε : Type} {n k : Nat} {s s' : State} {t : Token} {rest : List Token}

theorem PlainTokens.suffix {ts us : List Token} (h : PlainTokens ts) (hSuffix : us <:+ ts) :
    PlainTokens us :=
  ⟨fun t ht => h.query t (hSuffix.subset ht), fun t ht => h.float t (hSuffix.subset ht),
    h.minus.suffix hSuffix⟩

theorem Fair.moves (h : Fair n k s) (hMoves : Moves s s') : Fair n k s' :=
  ⟨h.toRoom.moves hMoves, h.plain.suffix hMoves.suffix⟩

theorem Fair.take (h : Fair n k s) (hTokens : s.tokens = t :: rest) :
    Fair n (k + 1) (s.take t rest) :=
  ⟨h.toRoom.take hTokens, h.plain.suffix (hTokens ▸ List.suffix_cons t rest)⟩

theorem Fair.mono {k' : Nat} (h : Fair n k s) (hk : k' ≤ k) : Fair n k' s :=
  ⟨h.toRoom.mono hk, h.plain⟩

/-- No query is next. -/
theorem Fair.no_query (h : Fair n k s) : isQueryStart s.current.kind = false := by
  cases hTokens : s.tokens with
  | cons t rest =>
    rw [State.current_cons hTokens]
    exact h.plain.query t (hTokens ▸ List.mem_cons_self)
  | nil =>
    rw [State.current_nil hTokens]
    rcases h.terminator with hEnd | hEnd <;> rw [hEnd] <;> rfl

/-! ## Readers that keep all tokens -/

/-- From a state, the result of a reader is plain and written with all tokens that were read for
it. -/
def AccountedAt (p : Print α) (m : Parse α) (start : Place) (s : State) : Prop :=
  After m s fun x s' => p.Okay x ∧ Accounts s s' start .behind (Script.kinds (p.row x))

/-- The same from all states with few enough tokens. -/
def Accounted (n k : Nat) (p : Print α) (read : Rules → Parse α) (start : Place) : Prop :=
  ∀ s, Fair n k s → AccountedAt p (read (.upTo n)) start s

section Combinators

variable {p : Print α} {q : Print γ} {e : Print ε} {m : Rules → Parse α} {m' : Rules → Parse γ}
  {start : Place}

theorem Accounted.mono {k' : Nat} (h : Accounted n k p m start) (hk : k ≤ k') :
    Accounted n k' p m start := fun s hs => h s (hs.mono hk)

theorem Accounted.pair (h : Accounted n k p m start) (h' : Accounted n k q m' .behind) :
    Accounted n k (p.pair q) (fun rules => both (m rules) (m' rules)) start := by
  intro s hs
  refine After.bind (h s hs) fun x s₁ hx hMoves => ?_
  refine After.bind (h' s₁ (hs.moves hMoves)) fun y s₂ hy _ => .pure ?_
  obtain ⟨hOkay, hAccounts⟩ := hx
  obtain ⟨hOkay', hAccounts'⟩ := hy
  refine ⟨fun n hn => (List.mem_append.mp hn).elim (hOkay n) (hOkay' n), ?_⟩
  rw [Print.pair, Script.kinds_append]
  exact hAccounts.trans hAccounts'

/-- A word behind an operand, with an operand behind it. -/
theorem Accounted.behindWord (word : Keyword) (h : Accounted n (k + 1) p m (.before []))
    (hWord : endsOperand true (.keyword word) = false) :
    Accounted n k (p.behind [.blank, .keyword word, .blank])
      (fun rules => expectKeyword word >>= fun _ => m rules) .behind := by
  intro s hs
  refine After.expectKeyword fun t rest hTokens hKind => ?_
  refine After.imp (h _ (hs.take hTokens)) fun x s' hx => ⟨hx.1, ?_⟩
  refine Accounts.cons hTokens hKind ?_ hx.2
  rw [Place.step, Place.after, hWord]
  rfl

/-- A word that may stand behind an operand, with an operand behind it. -/
theorem Accounted.after (word : Keyword) (h : Accounted n (k + 1) p m (.before []))
    (hWord : endsOperand true (.keyword word) = false) :
    Accounted n k (p.afterWord word) (fun rules => Parse.after word (m rules)) .behind := by
  intro s hs
  refine After.eatIte (fun t rest hTokens hKind => ?_) fun _ => ?_
  · refine After.bind (h _ (hs.take hTokens)) fun x s' hx _ => .pure ⟨hx.1, ?_⟩
    refine Accounts.cons hTokens hKind ?_ hx.2
    rw [Place.step, Place.after, hWord]
    rfl
  · exact .pure ⟨fun n hn => by (cases hn), Accounts.refl _ _⟩

/-- A chain, if each entry keeps the token in front of it. -/
theorem Accounted.chain {accept : Token → Option β} {item : Rules → β → Parse ε}
    (h : ∀ s t rest b, Fair n k s → s.tokens = t :: rest → accept t = some b →
      After (item (.upTo n) b) (s.take t rest) fun x s' =>
        e.Okay x ∧ Accounts s s' .behind .behind (Script.kinds (e.row x))) :
    Accounted n k e.all (fun rules => Parse.chain accept (item rules)) .behind := by
  intro s hs
  simp only [AccountedAt, After, Parse.chain]
  fun_induction chainFrom accept (item (.upTo n)) s with
  | case1 s => exact fun _ => ⟨fun n hn => by (cases hn), Accounts.refl _ _⟩
  | case2 s => exact fun _ => ⟨fun n hn => by (cases hn), Accounts.refl _ _⟩
  | case3 s t rest hTokens b hAccept after more ih =>
    intro hError
    have hMoves : Moves s after.2 :=
      (Move.take hTokens).moves.trans ((item (.upTo n) b).moves (s.take t rest))
    have hErrorFirst : after.2.error = none :=
      error_none_of_moves (moves_chainFrom accept (item (.upTo n)) after.2) hError
    obtain ⟨hOkay, hAccounts⟩ := h s t rest b hs hTokens hAccept hErrorFirst
    obtain ⟨hOkay', hAccounts'⟩ := ih (hs.moves hMoves) hError
    constructor
    · intro node hNode
      have hMem : node ∈ e.nodes after.1 ∨ node ∈ e.all.nodes more.1 := by
        simpa [Print.all] using hNode
      exact hMem.elim (hOkay node) (hOkay' node)
    · have hRow : Script.kinds (e.all.row (after.1 :: more.1)) =
          Script.kinds (e.row after.1) ++ Script.kinds (e.all.row more.1) := by
        simp [Print.all]
      show Accounts s more.2 _ _ (Script.kinds (e.all.row (after.1 :: more.1)))
      rw [hRow]
      exact hAccounts.trans hAccounts'

variable [Erasable α] [Erasable γ] [Erasable ε]

theorem Accounted.map {f : α → γ} (h : Accounted n k p m start) (hPrints : Prints p q f) :
    Accounted n k q (fun rules => f <$> m rules) start := by
  intro s hs
  refine After.map (After.imp (h s hs) fun x s' hx => ?_)
  obtain ⟨hOkay, hAccounts⟩ := hx
  rw [Print.Okay, hPrints.nodes, hPrints.row]
  exact ⟨hOkay, hAccounts⟩

/-- A chain of operators with an operand behind each. -/
theorem Operators.accounted {accept : Token → Option β} {level : Nat} {before : Script}
    {f : β → γ → ε} (o : Operators accept q e level before f)
    (hStep : ∀ t b, accept t = some b → Place.behind.step t.kind = ([o.kind b], .before []))
    (h : Accounted n (k + 1) q m' (.before [])) :
    Accounted n k e.all (fun rules => chain accept fun b => f b <$> m' rules) .behind := by
  refine Accounted.chain fun s t rest b hs hTokens hAccept => ?_
  refine After.map (After.imp (h _ (hs.take hTokens)) fun x s' hx => ?_)
  obtain ⟨hOkay, hAccounts⟩ := hx
  have hEntry : Script.kinds (e.row (f b x)) = o.kind b :: Script.kinds (q.row x) := by
    rw [o.row, Script.kinds_append, Script.kinds_cons, o.kinds]
    rcases o.layout with rfl | ⟨rfl, -⟩ <;> rfl
  rw [Print.Okay, o.nodes, hEntry]
  exact ⟨hOkay, Accounts.step hTokens (hStep t b hAccept) hAccounts⟩

/-- A layer: operands with operators between them. -/
theorem Accounted.layer {accept : Token → Option β} {level : Nat} {before : Script} {f : β → γ → ε}
    {first : γ → α} {make : α → ε → α} (h : Accounted n k q m' (.before []))
    (o : Operators accept q e level before f)
    (hStep : ∀ t b, accept t = some b → Place.behind.step t.kind = ([o.kind b], .before []))
    (hFolds : Folds q e p first make) :
    Accounted n k p (fun rules => do
      let x ← m' rules
      let xs ← Parse.chain accept fun b => f b <$> m' rules
      return xs.foldl make (first x)) (.before []) :=
  (h.pair (o.accounted hStep (h.mono (Nat.le_succ k)))).map hFolds.prints

/-- A list with commas. -/
theorem Accounted.separated (h : Accounted n k p m (.before [])) :
    Accounted n k p.commas (fun rules => Parse.separated (m rules)) (.before []) := by
  have hStep : ∀ (t : Token) (b : Unit),
      (if t.kind = .symbol .comma then some () else none) = some b →
        Place.behind.step t.kind = ([.symbol .comma], .before []) := by
    intro t b hAccept
    split at hAccept
    · next hKind => rw [hKind]; rfl
    · cases hAccept
  have hEntries := (commaOperators p (Nat.zero_le 10)).accounted hStep (h.mono (Nat.le_succ k))
  refine (h.pair hEntries).map (q := p.commas) (f := fun x => x.1 :: x.2)
    ⟨fun _ => ?_, fun _ => rfl, ?_⟩
  · exact congrArg (_ ++ ·) (List.flatMap_map _ _ _)
  · intro _ _ hLike
    obtain ⟨hFirst, hRest⟩ := Prod.mk.inj hLike
    exact Like.cons hFirst hRest

end Combinators

end Grammar

end SqlKit
