import SqlKit.Proofs.Rendering.After
import SqlKit.Proofs.Rendering.Layout

/-!
# Readers whose results are written as they are read

`Faithful n k p read level P` says of a reader: if it comes to a result without an error, and the
nodes of the result are plain, then the row that `p` writes for the result is a legal row which the
same reader reads back (`Shown`), and the parameters were met in the order in which they
are written. `P` tells how the row starts, with regard to the tokens that were read.

The readers of the grammar are put together from few forms: chains, chains that are folded into a
tree, lists with commas, and parts behind a word. There is one lemma for each of these forms.
-/

namespace SqlKit.Grammar

open Parse

/-! ## Writing -/

/-- How something is written, and the nodes in it. -/
structure Print (α : Type) where
  row : α → Script
  nodes : α → List Node

namespace Print

variable {α β : Type}

/-- Whether all nodes are plain. -/
def Okay (p : Print α) (x : α) : Prop := ∀ n ∈ p.nodes x, n.Plain

/-- The marks of the parameters. -/
def marks (p : Print α) (x : α) : List ParamMark := paramMarks (p.nodes x)

/-- Several in a row. -/
def all (p : Print α) : Print (List α) := ⟨List.flatMap p.row, List.flatMap p.nodes⟩

/-- One behind some glyphs. -/
def behind (before : Script) (p : Print α) : Print α := ⟨fun x => before ++ p.row x, p.nodes⟩

/-- Two, one behind the other. -/
def pair (p : Print α) (q : Print β) : Print (α × β) :=
  ⟨fun x => p.row x.1 ++ q.row x.2, fun x => p.nodes x.1 ++ q.nodes x.2⟩

/-- One or none. -/
def option (p : Print α) : Print (Option α) :=
  ⟨fun o => (o.map p.row).getD [], fun o => (o.map p.nodes).getD []⟩

/-- Several with a comma and a blank between them. -/
def commas (p : Print α) : Print (List α) where
  row xs := commaRow (xs.map p.row)
  nodes := List.flatMap p.nodes

theorem marks_pair {p : Print α} {q : Print β} {x : α} {y : β} :
    (p.pair q).marks (x, y) = p.marks x ++ q.marks y := paramMarks_append _ _

theorem okay_append {ns ms : List Node} (h : ∀ n ∈ ns ++ ms, n.Plain) :
    (∀ n ∈ ns, n.Plain) ∧ ∀ n ∈ ms, n.Plain :=
  ⟨fun n hn => h n (List.mem_append_left _ hn), fun n hn => h n (List.mem_append_right _ hn)⟩

end Print

/-- Something was read that can be written in a row, if its nodes are plain. -/
def Legible {α : Type} (p : Print α) (R : Script → Prop) (x : α) (s s' : State) : Prop :=
  p.Okay x → (∃ gs, R gs) ∧ Follows s.scope (p.marks x) s'.scope

theorem Legible.pair {α γ : Type} {p : Print α} {q : Print γ} {x : α} {y : γ} {s s₁ s₂ : State}
    {R R' R'' : Script → Prop} (h : Legible p R x s s₁) (h' : Legible q R' y s₁ s₂)
    (hRow : ∀ gs hs, R gs → R' hs → R'' (gs ++ hs)) : Legible (p.pair q) R'' (x, y) s s₂ := by
  intro hOkay
  obtain ⟨hOkayFirst, hOkayRest⟩ := Print.okay_append hOkay
  obtain ⟨⟨gs, hFirst⟩, hFollows⟩ := h hOkayFirst
  obtain ⟨⟨hs, hRest⟩, hFollows'⟩ := h' hOkayRest
  exact ⟨⟨gs ++ hs, hRow gs hs hFirst hRest⟩, Print.marks_pair ▸ hFollows.append hFollows'⟩

/-- What is made of a part that was read behind tokens that leave the parameters alone. -/
theorem Legible.made {α γ : Type} {p : Print α} {q : Print γ} {x : α} {f : α → γ}
    {s s₁ s₂ : State} {R R' : Script → Prop} (h : Legible p R x s₁ s₂) (hScope : s₁.scope = s.scope)
    (hNodes : q.nodes (f x) = p.nodes x) (hRow : ∀ gs, R gs → ∃ hs, R' hs) :
    Legible q R' (f x) s s₂ := by
  intro hOkay
  rw [Print.Okay, hNodes] at hOkay
  obtain ⟨⟨gs, hShown⟩, hFollows⟩ := h hOkay
  rw [Print.marks, hNodes, ← hScope]
  exact ⟨hRow gs hShown, hFollows⟩

variable {α β γ ε : Type} [Erasable α] [Erasable γ] [Erasable ε]

/-- A row is how something is written, and it is read back. -/
structure Shown (k : Nat) (p : Print α) (read : Rules → Parse α) (level : Nat)
    (P : List TokenKind → Prop) (x : α) (gs : Script) : Prop where
  row : p.row x = gs
  legal : Script.Legal gs
  leads : Leads level P gs
  reads : Reads k read gs (p.marks x) level (Like .spans x)

/-- A row that may stand behind any other and ends `level`, if what follows it ends `next`. -/
structure Tail (k : Nat) (p : Print α) (read : Rules → Parse α) (level next : Nat) (x : α)
    (gs : Script) : Prop
    extends Shown k p read next (fun ks => level ≤ closes (first ks)) x gs where
  detached : Script.Detached gs

/-- From a state, a reader comes to results that are written as they are read. -/
def FaithfulAt (n k : Nat) (p : Print α) (read : Rules → Parse α) (level : Nat)
    (P : List TokenKind → Prop) (s : State) : Prop :=
  After (read (.upTo n)) s fun x s' => Legible p (Shown k p read level P x) x s s'

/-- A reader whose results are written as they are read. -/
def Faithful (n k : Nat) (p : Print α) (read : Rules → Parse α) (level : Nat)
    (P : State → List TokenKind → Prop) : Prop :=
  ∀ s, Room n k s → FaithfulAt n k p read level (P s) s

/-- The same of a part that may be missing. -/
def FaithfulTail (n k : Nat) (p : Print α) (read : Rules → Parse α) (level next : Nat) : Prop :=
  ∀ s, Room n k s → After (read (.upTo n)) s fun x s' =>
    Legible p (Tail k p read level next x) x s s'

/-- The same of the entries of a chain. -/
def FaithfulEntry (n k : Nat) (p : Print α) (accept : Token → Option β)
    (item : Rules → β → Parse α) (level : Nat) : Prop :=
  ∀ s, Room n k s → After (entry accept (item (.upTo n))) s fun o s' => ∀ x, o = some x →
    Legible p.option
      (Tail k p.option (fun rules => entry accept (item rules)) level level (some x)) (some x) s s'

theorem Shown.mono {k k' level next : Nat} {p : Print α} {read : Rules → Parse α}
    {P : List TokenKind → Prop} {x : α} {gs : Script} (h : Shown k p read level P x gs)
    (hk : k ≤ k')
    (hLevel : level ≤ next) : Shown k' p read next P x gs :=
  ⟨h.row, h.legal, h.leads.mono hLevel, h.reads.mono hk hLevel⟩

theorem Shown.imp {k level : Nat} {p : Print α} {read : Rules → Parse α}
    {P Q : List TokenKind → Prop} {x : α} {gs : Script} (h : Shown k p read level P x gs)
    (hPQ : ∀ ks, P ks → Q ks) : Shown k p read level Q x gs :=
  ⟨h.row, h.legal, h.leads.imp hPQ, h.reads⟩

theorem Faithful.mono {n k k' level next : Nat} {p : Print α} {read : Rules → Parse α}
    {P : State → List TokenKind → Prop} (h : Faithful n k p read level P) (hk : k ≤ k')
    (hLevel : level ≤ next) : Faithful n k' p read next P := by
  intro s hs hError hOkay
  obtain ⟨⟨gs, hShown⟩, hMarks⟩ := h s (hs.mono hk) hError hOkay
  exact ⟨⟨gs, hShown.mono hk hLevel⟩, hMarks⟩

theorem like_some {e : Erasure} {x : α} {o : Option α} (h : Like e (some x) o) :
    ∃ y, o = some y ∧ Like e x y := by
  cases o with
  | none => cases h
  | some y => exact ⟨y, rfl, Option.some.inj h⟩

/-! ## Chains -/

section Chain

variable {n k level next : Nat} {p : Print ε} {accept : Token → Option β}
  {item : Rules → β → Parse ε}

theorem tail_nil (hLevel : level ≤ next)
    (hStop : ∀ t : Token, next ≤ closes t.kind → accept t = none) :
    Tail k p.all (fun rules => chain accept (item rules)) level next [] [] where
  row := rfl
  legal := Script.legal_nil
  leads := stops_nil hLevel
  reads := Reads.chainNil hStop rfl
  detached := Script.detached_nil

theorem tail_cons {x : ε} {xs : List ε} {gs hs : Script}
    (h : Tail k p.option (fun rules => entry accept (item rules)) level level (some x) gs)
    (h' : Tail k p.all (fun rules => chain accept (item rules)) level next xs hs) :
    Tail k p.all (fun rules => chain accept (item rules)) level next (x :: xs) (gs ++ hs) where
  row := by
    have hFirst : p.row x = gs := h.row
    have hRest : xs.flatMap p.row = hs := h'.row
    rw [← hFirst, ← hRest]
    rfl
  legal := h.legal.append h'.legal h'.detached
  leads := h.leads.append h'.leads
  reads := by
    have hReads := Reads.chainCons (h.reads.imp fun _ => like_some) h'.leads h'.reads
    have hMarks : p.all.marks (x :: xs) = p.option.marks (some x) ++ p.all.marks xs := by
      simp [Print.marks, Print.all, Print.option]
    rw [hMarks]
    refine hReads.imp ?_
    rintro _ ⟨a, as, rfl, ha, has⟩
    exact Like.cons ha has
  detached := h.detached.append h'.detached

/-- A chain whose entries are written as they are read. -/
theorem FaithfulEntry.chain (h : FaithfulEntry n k p accept item level) (hLevel : level ≤ next)
    (hStop : ∀ t : Token, next ≤ closes t.kind → accept t = none) :
    FaithfulTail n k p.all (fun rules => chain accept (item rules)) level next := by
  intro s hs
  simp only [After, Parse.chain]
  fun_induction chainFrom accept (item (.upTo n)) s with
  | case1 s => exact fun _ _ => ⟨⟨[], tail_nil hLevel hStop⟩, .refl _⟩
  | case2 s => exact fun _ _ => ⟨⟨[], tail_nil hLevel hStop⟩, .refl _⟩
  | case3 s t rest hTokens b hAccept after more ih =>
    intro hError hOkay
    obtain ⟨hOkayFirst, hOkayRest⟩ := Print.okay_append (show ∀ n ∈ p.nodes _ ++ _, n.Plain by
      simpa only [Print.Okay, Print.all, List.flatMap_cons] using hOkay)
    have hMoves : Moves s after.2 :=
      (Move.take hTokens).moves.trans ((item (.upTo n) b).moves (s.take t rest))
    have hErrorFirst : after.2.error = none :=
      error_none_of_moves (moves_chainFrom accept (item (.upTo n)) after.2) hError
    have hRun : (entry accept (item (.upTo n))).run s = (some after.1, after.2) :=
      run_entry_some hTokens hAccept
    have hFirst := h s hs
    simp only [After, hRun] at hFirst
    obtain ⟨⟨gs, hShown⟩, hMarks⟩ := hFirst hErrorFirst _ rfl hOkayFirst
    obtain ⟨⟨hs', hShown'⟩, hMarks'⟩ := ih (hs.moves hMoves) hError hOkayRest
    refine ⟨⟨gs ++ hs', tail_cons hShown hShown'⟩, ?_⟩
    have hAll : p.all.marks (after.1 :: more.1) =
        p.option.marks (some after.1) ++ p.all.marks more.1 := by
      simp [Print.marks, Print.all, Print.option]
    rw [hAll]
    exact hMarks.append hMarks'

end Chain

/-! ## Entries behind an operator -/

section Operator

variable {n k level : Nat} {q : Print γ} {e : Print ε} {accept : Token → Option β}
  {m : Rules → Parse γ} {P : State → List TokenKind → Prop}

/-- The operators of a chain: the glyph of each, and what is made of the entry behind it. An entry
is written as its operator and a blank, with `before` in front of them. -/
structure Operators (accept : Token → Option β) (q : Print γ) (e : Print ε) (level : Nat)
    (before : Script) (f : β → γ → ε) where
  glyph : β → Glyph
  kind : β → TokenKind
  kinds : ∀ b, (glyph b).kinds = [kind b]
  fits : ∀ b, (glyph b).Fits
  accepts : ∀ (b : β) (t : Token), t.kind = kind b → accept t = some b
  ends : ∀ b, level ≤ closes (kind b)
  layout : before = [.blank] ∨ before = [] ∧ ∀ b, (glyph b).isOpen = true
  row : ∀ b x, e.row (f b x) = before ++ glyph b :: .blank :: q.row x
  nodes : ∀ b x, e.nodes (f b x) = q.nodes x
  like : ∀ b x y, Like .spans x y → Like .spans (f b x) (f b y)

theorem Operators.tail {before : Script} {f : β → γ → ε} (o : Operators accept q e level before f)
    {b : β} {x : γ} {gs : Script} {P : List TokenKind → Prop} (h : Shown (k + 1) q m level P x gs) :
    Tail k e.option (fun rules => entry accept fun b => f b <$> m rules) level level (some (f b x))
      (before ++ o.glyph b :: .blank :: gs) := by
  have hGlyph : Script.Legal (o.glyph b :: .blank :: gs) :=
    (Script.legal_cons_blank _ _).mpr ⟨o.fits b, h.legal⟩
  have hReads : Reads k (fun rules => entry accept fun b => f b <$> m rules)
      (o.glyph b :: .blank :: gs) (e.option.marks (some (f b x))) level
      (Like .spans (some (f b x))) := by
    have hMarks : e.option.marks (some (f b x)) = q.marks x := congrArg paramMarks (o.nodes b x)
    rw [hMarks]
    have hItem : Reads (k + 1) (fun rules => f b <$> m rules) (.blank :: gs) (q.marks x) level
        (Like .spans (f b x)) := (h.reads.map fun y hy => o.like b x y hy).blank
    exact Reads.take (o.kinds b) (fun t hKind _ => o.accepts b t hKind)
      (hItem.map fun y hy => Like.some hy)
  have hRow : e.option.row (some (f b x)) = before ++ o.glyph b :: .blank :: gs := by
    have hEntry : e.row (f b x) = _ := o.row b x
    simp only [Print.option, Option.map_some, Option.getD_some, hEntry, h.row]
  have hStops : Stops level level (o.glyph b :: .blank :: gs) := stops_cons (o.kinds b) (o.ends b)
  rcases o.layout with rfl | ⟨rfl, hOpen⟩
  · exact ⟨⟨hRow, (Script.legal_blank _).mpr hGlyph, hStops, hReads.blank⟩,
      Script.detached_cons rfl⟩
  · exact ⟨⟨hRow, hGlyph, hStops, hReads⟩, Script.detached_cons (hOpen b)⟩

/-- Entries behind one operator, if what stands behind it is read back. -/
theorem Operators.tails {next : Nat} {before : Script} {f : β → γ → ε}
    (o : Operators accept q e level before f) (b : β) {P : List TokenKind → Prop} {xs : List γ}
    (h : ∀ x ∈ xs, Shown (k + 1) q m level P x (q.row x)) (hLevel : level ≤ next)
    (hStop : ∀ t : Token, next ≤ closes t.kind → accept t = none) :
    Tail k e.all (fun rules => chain accept fun b => f b <$> m rules) level next (xs.map (f b))
      (xs.flatMap fun x => before ++ o.glyph b :: .blank :: q.row x) := by
  induction xs with
  | nil => exact tail_nil hLevel hStop
  | cons x xs ih =>
    obtain ⟨hFirst, hRest⟩ := List.forall_mem_cons.mp h
    exact tail_cons (o.tail hFirst) (ih hRest)

/-- The entries of a chain of operators, if what stands behind an operator is written as it is
read. -/
theorem Operators.faithful {before : Script} {f : β → γ → ε}
    (o : Operators accept q e level before f) (h : Faithful n (k + 1) q m level P) :
    FaithfulEntry n k e accept (fun rules b => f b <$> m rules) level := by
  intro s hs
  refine After.take (fun t rest b hTokens hAccept => ?_) fun _ => .pure fun x hx => nomatch hx
  refine After.map (After.map (After.imp (h _ (hs.take hTokens)) fun x s' hLegible => ?_))
  rintro _ ⟨rfl⟩ hOkay
  have hNodes : e.option.nodes (some (f b x)) = q.nodes x := o.nodes b x
  rw [Print.Okay, hNodes] at hOkay
  obtain ⟨⟨gs, hShown⟩, hMarks⟩ := hLegible hOkay
  refine ⟨⟨_, o.tail hShown⟩, ?_⟩
  rw [Print.marks, hNodes]
  exact hMarks

end Operator

/-! ## One part behind another -/

section Pairs

variable {n k level middle next : Nat} {p : Print α} {q : Print γ} {m : Rules → Parse α}
  {m' : Rules → Parse γ} {s s₁ s₂ : State} {x : α} {y : γ} {gs hs : Script}

/-- Reads one part, and another behind it. -/
def Parse.both (m : Parse α) (m' : Parse γ) : Parse (α × γ) := do
  let x ← m
  return (x, ← m')

theorem Shown.pair {P : List TokenKind → Prop} (h : Shown k p m level P x gs)
    (h' : Tail k q m' level next y hs) :
    Shown k (p.pair q) (fun rules => both (m rules) (m' rules)) next P (x, y) (gs ++ hs) where
  row := by rw [← h.row, ← h'.row]; rfl
  legal := h.legal.append h'.legal h'.detached
  leads := h.leads.append h'.leads
  reads := by
    rw [Print.marks_pair]
    refine h.reads.bind h'.leads fun a ha => h'.reads.bindEnd fun b hb => Reads.pure ?_
    exact congrArg₂ Prod.mk ha hb

/-- A part and a tail are written as they are read, if they are one by one. -/
theorem Faithful.pair {P : State → List TokenKind → Prop} (h : Faithful n k p m level P)
    (h' : FaithfulTail n k q m' level next) :
    Faithful n k (p.pair q) (fun rules => both (m rules) (m' rules)) next P := by
  intro s hs
  refine After.bind (h s hs) fun x s₁ hx hMoves => ?_
  exact (h' s₁ (hs.moves hMoves)).bind fun y s₂ hy _ => .pure (hx.pair hy fun _ _ => Shown.pair)

/-- What is made of something is written as this. -/
structure Prints (p : Print α) (q : Print γ) (f : α → γ) : Prop where
  row : ∀ x, q.row (f x) = p.row x
  nodes : ∀ x, q.nodes (f x) = p.nodes x
  like : ∀ x y, Like .spans x y → Like .spans (f x) (f y)

variable {f : α → γ}

theorem Prints.shown {P : List TokenKind → Prop} (h : Prints p q f)
    (hShown : Shown k p m level P x gs) :
    Shown k q (fun rules => f <$> m rules) level P (f x) gs where
  row := (h.row x).trans hShown.row
  legal := hShown.legal
  leads := hShown.leads
  reads := by
    rw [show q.marks (f x) = p.marks x from congrArg paramMarks (h.nodes x)]
    exact hShown.reads.map fun y hy => h.like x y hy

theorem Prints.legible {R R' : Script → Prop} (h : Prints p q f) (hx : Legible p R x s s₁)
    (hRow : ∀ gs, R gs → R' gs) : Legible q R' (f x) s s₁ := by
  intro hOkay
  rw [Print.Okay, h.nodes] at hOkay
  obtain ⟨⟨gs, hShown⟩, hFollows⟩ := hx hOkay
  rw [Print.marks, h.nodes]
  exact ⟨⟨gs, hRow gs hShown⟩, hFollows⟩

theorem Faithful.map {P : State → List TokenKind → Prop} (h : Faithful n k p m level P)
    (hPrints : Prints p q f) : Faithful n k q (fun rules => f <$> m rules) level P :=
  fun s hs => After.map (After.imp (h s hs) fun _ _ hx =>
    hPrints.legible hx fun _ => hPrints.shown)

end Pairs

/-! ## A first part and a chain -/

section Sequence

variable {n k level next : Nat} {q : Print γ} {e : Print ε} {p : Print α}

/-- What is put together from the left is written part by part. -/
structure Folds (q : Print γ) (e : Print ε) (p : Print α) (start : γ → α) (make : α → ε → α) :
    Prop where
  startRow : ∀ x, p.row (start x) = q.row x
  startNodes : ∀ x, p.nodes (start x) = q.nodes x
  makeRow : ∀ a x, p.row (make a x) = p.row a ++ e.row x
  makeNodes : ∀ a x, p.nodes (make a x) = p.nodes a ++ e.nodes x
  startLike : ∀ x y, Like .spans x y → Like .spans (start x) (start y)
  makeLike : ∀ a b x y, Like .spans a b → Like .spans x y → Like .spans (make a x) (make b y)

theorem Folds.like_foldl {start : γ → α} {make : α → ε → α} (h : Folds q e p start make)
    {xs ys : List ε} (hxs : Like .spans xs ys)
    {a b : α} (hab : Like .spans a b) : Like .spans (xs.foldl make a) (ys.foldl make b) := by
  induction xs generalizing ys a b with
  | nil =>
    cases ys with
    | nil => exact hab
    | cons y ys => cases hxs
  | cons x xs ih =>
    cases ys with
    | nil => cases hxs
    | cons y ys =>
      obtain ⟨hx, hxs⟩ := List.cons.inj hxs
      exact ih hxs (h.makeLike a b x y hab hx)

theorem Folds.prints {start : γ → α} {make : α → ε → α} (h : Folds q e p start make) :
    Prints (q.pair e.all) p fun x => x.2.foldl make (start x.1) where
  row := by
    rintro ⟨x, xs⟩
    have hFold : ∀ a, p.row (xs.foldl make a) = p.row a ++ xs.flatMap e.row := by
      induction xs with
      | nil => simp
      | cons x xs ih => simp [ih, h.makeRow]
    rw [hFold, h.startRow]
    rfl
  nodes := by
    rintro ⟨x, xs⟩
    have hFold : ∀ a, p.nodes (xs.foldl make a) = p.nodes a ++ xs.flatMap e.nodes := by
      induction xs with
      | nil => simp
      | cons x xs ih => simp [ih, h.makeNodes]
    rw [hFold, h.startNodes]
    rfl
  like := by
    rintro ⟨x, xs⟩ ⟨y, ys⟩ hLike
    obtain ⟨hxy, hxs⟩ := Prod.mk.inj hLike
    exact h.like_foldl hxs (h.startLike x y hxy)

/-- A layer: parts with operators between them, put together from the left, are written as they are
read, if the parts are. -/
theorem Faithful.layer {accept : Token → Option β} {before : Script} {f : β → γ → ε} {start : γ → α}
    {make : α → ε → α} {m : Rules → Parse γ} {P : State → List TokenKind → Prop}
    (h : Faithful n k q m level P) (o : Operators accept q e level before f)
    (hFolds : Folds q e p start make) (hLevel : level ≤ next)
    (hStop : ∀ t : Token, next ≤ closes t.kind → accept t = none) :
    Faithful n k p (fun rules => do
      let x ← m rules
      let xs ← chain accept fun b => f b <$> m rules
      return xs.foldl make (start x)) next P :=
  have hEntry := o.faithful (h.mono (Nat.le_succ k) (Nat.le_refl level))
  (h.pair (hEntry.chain hLevel hStop)).map hFolds.prints

end Sequence

/-! ## Lists -/

section Lists

variable {n k level : Nat} {p : Print α} {m : Rules → Parse α}
  {P : State → List TokenKind → Prop}

/-- A token of some kind, and no other. -/
theorem accept_none {kind : TokenKind} {level : Nat} (h : closes kind < level) (t : Token)
    (ht : level ≤ closes t.kind) : (if t.kind = kind then some () else none) = none := by
  refine if_neg fun hKind => ?_
  rw [hKind] at ht
  omega

/-- A comma in front of an item of a list. -/
def commaOperators (p : Print α) (hLevel : level ≤ 10) :
    Operators (fun t => if t.kind = .symbol .comma then some () else none) p
      (p.behind [.symbol .comma, .blank]) level [] fun _ x => x where
  glyph _ := .symbol .comma
  kind _ := .symbol .comma
  kinds _ := rfl
  fits _ := by simp [Glyph.Fits]
  accepts _ _ h := if_pos h
  ends _ := hLevel
  layout := Or.inr ⟨rfl, fun _ => rfl⟩
  row _ _ := rfl
  nodes _ _ := rfl
  like _ _ _ h := h

/-- An item and those behind commas are a list with commas. -/
theorem prints_commas (p : Print α) : Prints (p.pair (p.behind [.symbol .comma, .blank]).all)
    p.commas fun x => x.1 :: x.2 where
  row _ := congrArg (_ ++ ·) (List.flatMap_map _ _ _)
  nodes _ := rfl
  like _ _ h := by
    obtain ⟨hFirst, hRest⟩ := Prod.mk.inj h
    exact Like.cons hFirst hRest

/-- A list with commas is read back, if its items are. -/
theorem Shown.commas {Q : List TokenKind → Prop} {x : α} {xs : List α}
    (h : Shown k p m level Q x (p.row x))
    (h' : ∀ y ∈ xs, Shown (k + 1) p m level Q y (p.row y)) (hLevel : level ≤ 10) :
    Shown k p.commas (fun rules => Parse.separated (m rules)) 11 Q (x :: xs)
      (p.commas.row (x :: xs)) := by
  have hRest := (commaOperators p hLevel).tails () h' (by omega : level ≤ 11)
    (accept_none (by decide))
  rw [List.map_id'] at hRest
  have hShown := (prints_commas p).shown (h.pair hRest)
  rwa [← hShown.row] at hShown

/-- A list with commas is written as it is read, if its items are. -/
theorem Faithful.separated (h : Faithful n k p m level P) (hLevel : level ≤ 10) :
    Faithful n k p.commas (fun rules => Parse.separated (m rules)) 11 P :=
  have hEntry := (commaOperators p hLevel).faithful (h.mono (Nat.le_succ k) (Nat.le_refl level))
  (h.pair (hEntry.chain (by omega) (accept_none (by decide)))).map (prints_commas p)

end Lists

/-! ## Tokens in front -/

section Leading

variable {n k level : Nat} {accept : Token → Option β} {glyph : β → Glyph} {kind : β → TokenKind}
  {gap gs : Script} {bs : List β} {s : State}

/-- Tokens of which any number may stand in front of something, and their glyphs. -/
structure Leaders (accept : Token → Option β) (glyph : β → Glyph) (kind : β → TokenKind) :
    Prop where
  kinds : ∀ b, (glyph b).kinds = [kind b]
  accepts : ∀ b (t : Token), t.kind = kind b → accept t = some b
  accepted : ∀ b (t : Token), accept t = some b → t.kind = kind b
  inside : ∀ b, kind b ≠ .symbol .semicolon ∧ kind b ≠ .endOfInput

/-- Some such tokens in a row, with a gap behind each. -/
def leadRow (glyph : β → Glyph) (gap : Script) (bs : List β) : Script :=
  bs.flatMap fun b => glyph b :: gap

theorem run_leading (h : Leaders accept glyph kind) (hGap : gap = [] ∨ gap = [.blank])
    (hs : At s (leadRow glyph gap bs ++ gs)) (hEnd : ∀ b, first (Script.kinds gs) ≠ kind b) :
    ((chain accept Pure.pure).run s).1 = bs ∧ At ((chain accept Pure.pure).run s).2 gs ∧
      ((chain accept Pure.pure).run s).2.scope = s.scope := by
  simp only [chain]
  induction bs generalizing s with
  | nil =>
    have hNil : chainFrom accept Pure.pure s = ([], s) := by
      cases hTokens : s.tokens with
      | nil => exact chainFrom_nil hTokens
      | cons t rest =>
        refine chainFrom_none hTokens (Option.eq_none_iff_forall_ne_some.mpr fun b hAccept => ?_)
        have hCurrent : s.current.kind = first (Script.kinds gs) := At.current hs
        rw [State.current_cons hTokens] at hCurrent
        exact hEnd b (hCurrent.symm.trans (h.accepted b t hAccept))
    rw [hNil]
    exact ⟨rfl, hs, rfl⟩
  | cons b bs ih =>
    obtain ⟨t, rest, hTokens, hKind, -, hNext⟩ := At.token hs (h.kinds b)
    have hRest : At (s.take t rest) (leadRow glyph gap bs ++ gs) := by
      rcases hGap with rfl | rfl
      · exact hNext
      · exact hNext.blank
    obtain ⟨hSigns, hState, hScope⟩ := ih hRest
    rw [chainFrom_some hTokens (h.accepts b t hKind)]
    exact ⟨congrArg _ hSigns, hState, hScope⟩

/-- Tokens in front are read back in front of anything else. -/
theorem Reads.leading {γ : Type} {hs : Script} {ns : List ParamMark} {Q : γ → Prop}
    {m : Rules → List β → Parse γ} (h : Leaders accept glyph kind)
    (hGap : gap = [] ∨ gap = [.blank])
    (hEnd : Leads level (fun ks => ∀ b, first ks ≠ kind b) hs)
    (hRest : Reads k (fun rules => m rules bs) hs ns level Q) :
    Reads k (fun rules => chain accept Pure.pure >>= m rules) (leadRow glyph gap bs ++ hs) ns level
      Q := by
  intro depth s more τ hs hDepth hMore hMarks
  rw [List.append_assoc] at hs
  obtain ⟨hSigns, hState, hScope⟩ := run_leading h hGap hs (hEnd more hMore)
  have hLength := (chain accept Pure.pure).length_run_le s
  rw [run_bind, hSigns]
  exact hRest hState (by omega) hMore (hScope ▸ hMarks)

/-- The tokens that were taken in front of something, and what is behind them. -/
theorem After.leading (h : Leaders accept glyph kind) (hs : Room n k s) :
    After (Parse.chain accept Pure.pure) s fun bs s' => s'.scope = s.scope ∧
      (∀ b, s'.current.kind ≠ kind b) ∧
      ((bs = [] ∧ s' = s) ∨ ∃ b rest, bs = b :: rest ∧ s.current.kind = kind b) := by
  intro hError
  clear hError
  simp only [Parse.chain]
  fun_induction chainFrom accept Pure.pure s with
  | case1 s hTokens =>
    refine ⟨rfl, fun b => ?_, Or.inl ⟨rfl, rfl⟩⟩
    exact hs.current_ne (by simp [hTokens]) (h.inside b).1 (h.inside b).2
  | case2 s t rest hTokens hNone =>
    refine ⟨rfl, fun b hKind => ?_, Or.inl ⟨rfl, rfl⟩⟩
    rw [State.current_cons hTokens] at hKind
    cases hNone.symm.trans (h.accepts b t hKind)
  | case3 s t rest hTokens b hAccept after more ih =>
    obtain ⟨hScope, hEnd, -⟩ := ih ((hs.take hTokens).mono (Nat.le_succ k))
    refine ⟨hScope, hEnd, Or.inr ⟨b, _, rfl, ?_⟩⟩
    rw [State.current_cons hTokens, h.accepted b t hAccept]

end Leading

/-! ## Parts behind a word -/

section Words

variable {n k level next : Nat} {p : Print α} {m : Rules → Parse α}
  {P : State → List TokenKind → Prop} {word : Keyword}

/-- A part behind a word, with blanks around the word. -/
def Print.afterWord (word : Keyword) (p : Print α) : Print (Option α) :=
  (p.behind [.blank, .keyword word, .blank]).option

theorem tail_none (hLevel : level ≤ next) (hEnds : closes (.keyword word) < next) :
    Tail k (p.afterWord word) (fun rules => after word (m rules)) level next none [] where
  row := rfl
  legal := Script.legal_nil
  leads := stops_nil hLevel
  reads := by
    exact Reads.eatElse (leads_ne hEnds) (Reads.pure rfl)
  detached := Script.detached_nil

theorem tail_some {x : α} {gs : Script} {Q : List TokenKind → Prop}
    (h : Shown (k + 1) p m next Q x gs) (hWord : level ≤ closes (.keyword word)) :
    Tail k (p.afterWord word) (fun rules => after word (m rules)) level next (some x)
      (.blank :: .keyword word :: .blank :: gs) where
  row := by
    simp only [Print.afterWord, Print.option, Print.behind, Option.map_some, Option.getD_some,
      h.row]
    rfl
  legal := by simpa using h.legal
  leads := stops_blank (stops_cons rfl hWord)
  reads := by
    refine Reads.blank (Reads.eatThen rfl ?_)
    exact h.reads.blank.bindEnd fun y hy => Reads.pure (Like.some hy)
  detached := Script.detached_cons rfl

/-- A part behind a word is written as it is read, if it is so alone. -/
theorem Faithful.after (h : Faithful n (k + 1) p m next P) (hWord : level ≤ closes (.keyword word))
    (hEnds : closes (.keyword word) < next) :
    FaithfulTail n k (p.afterWord word) (fun rules => Parse.after word (m rules)) level next := by
  intro s hs
  refine After.eatIte (fun t rest hTokens _ => ?_) fun _ => .pure fun _ => ?_
  · refine After.bind (h _ (hs.take hTokens)) fun x s' hx _ => .pure fun hOkay => ?_
    obtain ⟨⟨gs, hShown⟩, hMarks⟩ := hx hOkay
    exact ⟨⟨_, tail_some hShown hWord⟩, hMarks⟩
  · exact ⟨⟨[], tail_none (by omega) hEnds⟩, .refl _⟩

/-- A part behind a word that is asked for. -/
theorem Shown.behindWord {x : α} {gs : Script} {Q : List TokenKind → Prop}
    (h : Shown (k + 1) p m next Q x gs) (hWord : level ≤ closes (.keyword word)) :
    Tail k (p.behind [.blank, .keyword word, .blank])
      (fun rules => expectKeyword word >>= fun _ => m rules) level next x
      (.blank :: .keyword word :: .blank :: gs) where
  row := by rw [← h.row]; rfl
  legal := by simpa using h.legal
  leads := stops_blank (stops_cons rfl hWord)
  reads := Reads.blank (Reads.expectKeyword h.reads.blank)
  detached := Script.detached_cons rfl

/-- A part behind a word that is asked for is written as it is read, if it is so alone. -/
theorem Faithful.behindWord (h : Faithful n (k + 1) p m next P)
    (hWord : level ≤ closes (.keyword word)) :
    FaithfulTail n k (p.behind [.blank, .keyword word, .blank])
      (fun rules => expectKeyword word >>= fun _ => m rules) level next := by
  intro s hs
  refine After.expectKeyword fun t rest hTokens _ => ?_
  refine After.imp (h _ (hs.take hTokens)) fun x s' hx hOkay => ?_
  obtain ⟨⟨gs, hShown⟩, hMarks⟩ := hx hOkay
  exact ⟨⟨_, hShown.behindWord hWord⟩, hMarks⟩

end Words

/-! ## Parts in parentheses -/

section Parentheses

variable {n k level : Nat} {p : Print α} {m : Rules → Parse α}
  {P : State → List TokenKind → Prop}

/-- One in front of a closing parenthesis. -/
def Print.closed (p : Print α) : Print α := ⟨fun x => p.row x ++ [.symbol .rightParen], p.nodes⟩

/-- One in parentheses. -/
def Print.enclosed (p : Print α) : Print α :=
  ⟨fun x => .symbol .leftParen :: (p.row x ++ [.symbol .rightParen]), p.nodes⟩

/-- Reads something and a closing parenthesis. -/
def Parse.closed (m : Parse α) : Parse α := do
  let x ← m
  expect .rightParen
  return x

/-- Reads something in parentheses. -/
def Parse.enclosed (m : Parse α) : Parse α := do
  expect .leftParen
  closed m

theorem Shown.closed {Q : List TokenKind → Prop} {x : α} {gs : Script}
    (h : Shown k p m level Q x gs) (hLevel : level ≤ 19) :
    Shown k p.closed (fun rules => Parse.closed (m rules)) 0 Q x (gs ++ [.symbol .rightParen]) where
  row := by rw [← h.row]; rfl
  legal := by simp [h.legal]
  leads := h.leads.append (stops_cons rfl hLevel)
  reads := h.reads.bindLast (stops_cons rfl hLevel) fun _ hy => Reads.expect (Reads.pure hy)

/-- A part in front of a closing parenthesis is written as it is read, if it is so alone. -/
theorem Faithful.closed (h : Faithful n k p m level P) (hLevel : level ≤ 19) :
    Faithful n k p.closed (fun rules => Parse.closed (m rules)) 0 P := by
  intro s hs
  refine After.bind (h s hs) fun x s₁ hx _ => After.expect fun t rest _ _ => .pure fun hOkay => ?_
  obtain ⟨⟨gs, hShown⟩, hFollows⟩ := hx hOkay
  exact ⟨⟨_, hShown.closed hLevel⟩, hFollows⟩

theorem Shown.enclosed {Q : List TokenKind → Prop} {x : α} {gs : Script}
    (h : Shown (k + 1) p m level Q x gs) (hLevel : level ≤ 19) :
    Shown k p.enclosed (fun rules => Parse.enclosed (m rules)) 0
      (fun ks => first ks = .symbol .leftParen) x
      (.symbol .leftParen :: (gs ++ [.symbol .rightParen])) where
  row := by rw [← h.row]; rfl
  legal := (Script.legal_leftParen _).mpr (h.closed hLevel).legal
  leads _ _ := rfl
  reads := Reads.expect (h.closed hLevel).reads

/-- A part in parentheses is written as it is read, if it is so alone. -/
theorem Faithful.enclosed (h : Faithful n (k + 1) p m level P) (hLevel : level ≤ 19) :
    Faithful n k p.enclosed (fun rules => Parse.enclosed (m rules)) 0
      fun _ ks => first ks = .symbol .leftParen := by
  intro s hs
  refine After.expect fun t rest hTokens _ => ?_
  refine After.bind (h _ (hs.take hTokens)) fun x s₁ hx _ => ?_
  refine After.expect fun u rest' _ _ => .pure fun hOkay => ?_
  obtain ⟨⟨gs, hShown⟩, hFollows⟩ := hx hOkay
  exact ⟨⟨_, hShown.enclosed hLevel⟩, hFollows⟩

end Parentheses

end SqlKit.Grammar
