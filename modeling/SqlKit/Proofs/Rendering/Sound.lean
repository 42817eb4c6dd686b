import SqlKit.Proofs.Rendering.Layout
import SqlKit.Proofs.Rendering.Lexing
import SqlKit.Proofs.Rendering.Nodes

/-!
# Rows that are legal but for double minus signs

A minus sign in front of another one is the only way in which the text of a tree can run together:
two of them start a comment. A row is `Sound` when it is legal with plus signs in place of the minus
signs, which never run into anything, and `Apart` when no two of its minus signs are neighbours; a
row that is both is legal (`Script.Sound.legal_iff`).

Where minus signs are neighbours can be told from the tree (`Select.apart_row`).
-/

namespace SqlKit

/-- The glyph, with a plus sign for a minus sign. -/
def Glyph.plussed : Glyph → Glyph
  | .symbol .minus => .symbol .plus
  | g => g

theorem Glyph.plussed_of_ne {g : Glyph} (h : g ≠ .symbol .minus) : g.plussed = g := by
  unfold plussed
  split
  · exact absurd rfl h
  · rfl

@[simp] theorem Glyph.fits_plussed (g : Glyph) : g.plussed.Fits ↔ g.Fits := by
  unfold plussed
  split
  · simp [Fits]
  · rfl

@[simp] theorem Glyph.isOpen_plussed (g : Glyph) : g.plussed.isOpen = g.isOpen := by
  unfold plussed
  split <;> rfl

namespace Script

/-- With plus signs in place of the minus signs the row is legal. -/
def Sound (gs : Script) : Prop := Legal (gs.map Glyph.plussed)

/-- No two neighbours are both minus signs. -/
def Apart (gs : Script) : Prop :=
  gs.IsChain fun g h => ¬ (g = .symbol .minus ∧ h = .symbol .minus)

theorem Sound.fits {gs : Script} (h : Sound gs) : ∀ g ∈ gs, g.Fits := fun g hg =>
  g.fits_plussed.mp (Legal.fits h _ (List.mem_map_of_mem hg))

/-- A glyph that may stand in front of another one with plus signs for minus signs may do so,
unless both are minus signs. -/
theorem meets_of_plussed {g h : Glyph} (hMeets : g.plussed.meets h.plussed = true) :
    g.meets h = true ↔ ¬ (g = .symbol .minus ∧ h = .symbol .minus) := by
  by_cases hg : g = .symbol .minus
  · subst hg
    by_cases hh : h = .symbol .minus
    · subst hh
      decide
    · have hAllows : Glyph.meets (.symbol .minus) h = true := by
        simp [Glyph.meets, Glyph.allows, hh]
      simp [hAllows, hh]
  · refine iff_of_true ?_ (fun h => hg h.1)
    rw [Glyph.plussed_of_ne hg] at hMeets
    by_cases hh : h = .symbol .minus
    · subst hh
      cases g with
      | symbol s => cases s <;> first | exact absurd rfl hg | rfl | cases hMeets
      | blank => rfl
      | name | keyword | integer | numeral | string | mark => cases hMeets
    · rwa [Glyph.plussed_of_ne hh] at hMeets

/-- Two relations that are the same for neighbours are the same all along a row. -/
theorem isChain_congr {α : Type} {P R S : α → α → Prop} (h : ∀ a b, P a b → (R a b ↔ S a b))
    {l : List α} (hP : l.IsChain P) : l.IsChain R ↔ l.IsChain S := by
  induction l with
  | nil => simp
  | cons a l ih =>
    obtain ⟨hHead, hTail⟩ := List.isChain_cons.mp hP
    rw [List.isChain_cons, List.isChain_cons, ih hTail]
    exact and_congr_left' (forall₂_congr fun b hb => h a b (hHead b hb))

/-- A sound row is legal when its minus signs are apart. -/
theorem Sound.legal_iff {gs : Script} (h : Sound gs) : Legal gs ↔ Apart gs := by
  have hFits := h.fits
  have hChain : (gs.map Glyph.plussed).IsChain fun g h => g.meets h = true := Legal.chain h
  rw [List.isChain_map] at hChain
  have hPairs := isChain_congr (fun _ _ => meets_of_plussed) hChain
  exact ⟨fun hLegal => hPairs.mp hLegal.chain, fun hApart => ⟨hFits, hPairs.mpr hApart⟩⟩

/-- A legal row is sound. -/
theorem Legal.sound {gs : Script} (h : Legal gs) : Sound gs := by
  refine ⟨fun g hg => ?_, ?_⟩
  · obtain ⟨g, hMem, rfl⟩ := List.mem_map.mp hg
    exact g.fits_plussed.mpr (h.fits g hMem)
  · rw [List.isChain_map]
    refine h.chain.imp fun g k hMeets => ?_
    by_cases hg : g = .symbol .minus
    · subst hg
      simp [Glyph.meets, Glyph.plussed, Glyph.allows]
    by_cases hk : k = .symbol .minus
    · subst hk
      cases g with
      | symbol s => cases s <;> first | exact absurd rfl hg | rfl | cases hMeets
      | blank => rfl
      | name | keyword | integer | numeral | string | mark => cases hMeets
    · rwa [Glyph.plussed_of_ne hg, Glyph.plussed_of_ne hk]

theorem Detached.plussed {gs : Script} (h : Detached gs) : Detached (gs.map Glyph.plussed) := by
  cases gs with
  | nil => exact detached_nil
  | cons g gs => exact detached_cons (g.isOpen_plussed.trans (h g rfl))

/-! ## Layout of sound rows -/

section Sound

variable (g : Glyph) (gs hs : Script)

@[simp] theorem sound_nil : Sound [] := legal_nil

@[simp] theorem sound_singleton : Sound [g] ↔ g.Fits := by simp [Sound]

@[simp] theorem sound_blank : Sound (.blank :: gs) ↔ Sound gs := by simp [Sound, Glyph.plussed]

@[simp] theorem sound_leftParen : Sound (.symbol .leftParen :: gs) ↔ Sound gs := by
  simp [Sound, Glyph.plussed]

@[simp] theorem sound_rightParen : Sound (.symbol .rightParen :: gs) ↔ Sound gs := by
  simp [Sound, Glyph.plussed]

@[simp] theorem sound_comma : Sound (.symbol .comma :: gs) ↔ Sound gs := by
  simp [Sound, Glyph.plussed]

/-- A sign in front never runs into what it stands in front of. -/
@[simp] theorem sound_sign (negative : Bool) :
    Sound (.symbol (signSymbol negative) :: gs) ↔ Sound gs := by
  have hPlus : Glyph.plussed (.symbol (signSymbol negative)) = .symbol .plus := by
    cases negative <;> rfl
  rw [Sound, List.map_cons, hPlus, legal_cons]
  simp [Glyph.meets, Glyph.allows, Sound]

@[simp] theorem sound_cons_blank : Sound (g :: .blank :: gs) ↔ g.Fits ∧ Sound gs := by
  simp [Sound, show Glyph.plussed .blank = .blank from rfl]

@[simp] theorem sound_cons_leftParen :
    Sound (g :: .symbol .leftParen :: gs) ↔ g.Fits ∧ Sound gs := by
  simp [Sound, show Glyph.plussed (.symbol .leftParen) = .symbol .leftParen from rfl]

@[simp] theorem sound_cons_rightParen :
    Sound (g :: .symbol .rightParen :: gs) ↔ g.Fits ∧ Sound gs := by
  simp [Sound, show Glyph.plussed (.symbol .rightParen) = .symbol .rightParen from rfl,
    legal_cons_detached (detached_cons (show (Glyph.symbol .rightParen).isOpen = true from rfl))]

theorem sound_append {gs hs : Script} (hOpen : Detached hs) :
    Sound (gs ++ hs) ↔ Sound gs ∧ Sound hs := by
  rw [Sound, List.map_append, legal_append hOpen.plussed]
  rfl

theorem sound_cons_detached {g : Glyph} {gs : Script} (hOpen : Detached gs) :
    Sound (g :: gs) ↔ g.Fits ∧ Sound gs := by
  rw [← List.singleton_append, sound_append hOpen, sound_singleton]

@[simp] theorem sound_append_blank : Sound (gs ++ .blank :: hs) ↔ Sound gs ∧ Sound hs := by
  rw [sound_append (detached_cons rfl), sound_blank]

@[simp] theorem sound_append_leftParen :
    Sound (gs ++ .symbol .leftParen :: hs) ↔ Sound gs ∧ Sound hs := by
  rw [sound_append (detached_cons rfl), sound_leftParen]

@[simp] theorem sound_append_rightParen :
    Sound (gs ++ .symbol .rightParen :: hs) ↔ Sound gs ∧ Sound hs := by
  rw [sound_append (detached_cons rfl), sound_rightParen]

@[simp] theorem sound_append_comma :
    Sound (gs ++ .symbol .comma :: hs) ↔ Sound gs ∧ Sound hs := by
  rw [sound_append (detached_cons rfl), sound_comma]

@[simp] theorem sound_optionalWord (present : Bool) (word : Keyword) :
    Sound (optionalWord present word ++ gs) ↔ Sound gs := by
  cases present <;> simp [optionalWord]

theorem detached_separated (rows : List Script) :
    Detached (rows.flatMap ([.symbol .comma, .blank] ++ ·)) := by
  cases rows with
  | nil => exact detached_nil
  | cons row rows => exact detached_cons rfl

theorem sound_separated (rows : List Script) :
    Sound (rows.flatMap ([.symbol .comma, .blank] ++ ·)) ↔ ∀ row ∈ rows, Sound row := by
  induction rows with
  | nil => simp
  | cons row rows ih =>
    rw [List.flatMap_cons, sound_append (detached_separated rows), ih]
    simp

@[simp] theorem sound_commaRow (rows : List Script) :
    Sound (commaRow rows) ↔ ∀ row ∈ rows, Sound row := by
  cases rows with
  | nil => simp [commaRow]
  | cons row rows =>
    rw [commaRow, sound_append (detached_separated rows), sound_separated]
    simp

end Sound

/-! ## Layout of rows with minus signs apart -/

section Apart

variable (g : Glyph) (gs hs : Script)

@[simp] theorem apart_nil : Apart [] := .nil

@[simp] theorem apart_cons {g : Glyph} {gs : Script} (h : g ≠ .symbol .minus) :
    Apart (g :: gs) ↔ Apart gs := by
  rw [Apart, List.isChain_cons]
  exact and_iff_right fun _ _ hBoth => h hBoth.1

theorem apart_minus : Apart (.symbol .minus :: gs) ↔
    gs.head? ≠ some (.symbol .minus) ∧ Apart gs := by
  rw [Apart, List.isChain_cons]
  refine and_congr_left' ⟨fun h hHead => h _ hHead ⟨rfl, rfl⟩, ?_⟩
  rintro h k hk ⟨-, rfl⟩
  exact h hk

theorem apart_append {gs hs : Script} (hOpen : Detached hs) :
    Apart (gs ++ hs) ↔ Apart gs ∧ Apart hs := by
  rw [Apart, List.isChain_append]
  refine ⟨fun h => ⟨h.1, h.2.1⟩, fun h => ⟨h.1, h.2, ?_⟩⟩
  rintro g - k hk ⟨-, rfl⟩
  exact nomatch hOpen _ hk

@[simp] theorem apart_cons_blank : Apart (g :: .blank :: gs) ↔ Apart gs := by
  have hBlank : Apart (.blank :: gs) ↔ Apart gs := apart_cons (by simp)
  rw [← List.singleton_append, apart_append (detached_cons rfl), hBlank]
  exact and_iff_right (List.isChain_singleton g)

@[simp] theorem apart_append_blank : Apart (gs ++ .blank :: hs) ↔ Apart gs ∧ Apart hs := by
  rw [apart_append (detached_cons rfl), apart_cons (by simp)]

@[simp] theorem apart_append_leftParen :
    Apart (gs ++ .symbol .leftParen :: hs) ↔ Apart gs ∧ Apart hs := by
  rw [apart_append (detached_cons rfl), apart_cons (by simp)]

@[simp] theorem apart_append_rightParen :
    Apart (gs ++ .symbol .rightParen :: hs) ↔ Apart gs ∧ Apart hs := by
  rw [apart_append (detached_cons rfl), apart_cons (by simp)]

@[simp] theorem apart_append_comma :
    Apart (gs ++ .symbol .comma :: hs) ↔ Apart gs ∧ Apart hs := by
  rw [apart_append (detached_cons rfl), apart_cons (by simp)]

@[simp] theorem apart_optionalWord (present : Bool) (word : Keyword) :
    Apart (optionalWord present word ++ gs) ↔ Apart gs := by
  cases present <;> simp [optionalWord]

/-- A row without minus signs. -/
theorem apart_of_not_mem {gs : Script} (h : .symbol .minus ∉ gs) : Apart gs := by
  induction gs with
  | nil => exact apart_nil
  | cons g gs ih =>
    rw [List.mem_cons, not_or] at h
    exact (apart_cons (Ne.symm h.1)).mpr (ih h.2)

theorem apart_separated (rows : List Script) :
    Apart (rows.flatMap ([.symbol .comma, .blank] ++ ·)) ↔ ∀ row ∈ rows, Apart row := by
  induction rows with
  | nil => simp
  | cons row rows ih =>
    rw [List.flatMap_cons, apart_append (detached_separated rows), ih]
    simp

@[simp] theorem apart_commaRow (rows : List Script) :
    Apart (commaRow rows) ↔ ∀ row ∈ rows, Apart row := by
  cases rows with
  | nil => simp [commaRow]
  | cons row rows =>
    rw [commaRow, apart_append (detached_separated rows), apart_separated]
    simp

end Apart

end Script

/-! ## Double minus signs in trees -/

/-- Terms that are written with a minus sign in front. -/
def Term.IsNegative : Term → Prop
  | .signed negative _ => negative = true
  | .literal (.integer value) => value.toInt < 0
  | .literal (.float (.finite negative _ _)) | .literal (.float (.infinite negative)) =>
    negative = true
  | _ => False

/-- A minus sign in front of a term that is written with a minus sign in front. -/
def Node.Doubled : Node → Prop
  | .term (.signed true inner) => inner.IsNegative
  | _ => False

theorem Literal.head?_row (value : Literal) :
    value.row.head? = some (.symbol .minus) ↔ (Term.literal value).IsNegative := by
  cases value with
  | integer value =>
    simp only [row, integerRow, Term.IsNegative]
    split <;> simp_all
  | float x =>
    cases x with
    | finite negative => cases negative <;> simp [row, Binary64.row, Term.IsNegative]
    | infinite negative => cases negative <;> simp [row, Binary64.row, Term.IsNegative]
    | notANumber => simp [row, Binary64.row, Term.IsNegative]
  | boolean value => cases value <;> simp [row, Term.IsNegative]
  | _ => simp [row, Term.IsNegative]

theorem Term.head?_row (x : Term) : x.row.head? = some (.symbol .minus) ↔ x.IsNegative := by
  cases x with
  | literal value => exact value.head?_row
  | signed negative inner => cases negative <;> simp [Term.row, IsNegative, signSymbol]
  | parameter p =>
    simp only [Term.row, NamedParameter.row, IsNegative, iff_false]
    split <;> simp
  | _ => simp [Term.row, IsNegative, Path.row, Placeholder.row]

open Script

theorem apart_dotted (names : List String) : Apart (dotted names) := by
  refine apart_of_not_mem fun h => ?_
  obtain ⟨n, -, hn⟩ := List.mem_flatMap.mp h
  simp at hn

theorem apart_wordRow {between : Glyph} (h : between ≠ .symbol .minus) (words : List String) :
    Apart (wordRow between words) := by
  cases words with
  | nil => exact apart_nil
  | cons word words =>
    refine apart_of_not_mem fun hMem => ?_
    rcases List.mem_cons.mp hMem with hMem | hMem
    · cases hMem
    · obtain ⟨w, -, hw⟩ := List.mem_flatMap.mp hMem
      simp [h.symm] at hw

theorem Literal.apart_row (value : Literal) : Apart value.row := by
  cases value with
  | integer value =>
    simp only [row, integerRow]
    split <;> simp [apart_minus]
  | float x =>
    cases x with
    | finite negative => cases negative <;> simp [row, Binary64.row, apart_minus]
    | infinite negative => cases negative <;> simp [row, Binary64.row, apart_minus]
    | notANumber => simp [row, Binary64.row]
  | boolean value => cases value <;> simp [row]
  | _ => simp [row]

theorem NamedParameter.apart_row (p : NamedParameter) : Apart p.row := by
  have hType : Apart (dottedRow p.typeName) := apart_wordRow (by simp) _
  unfold row
  split <;> simp [hType]

theorem ColumnType.apart_row (t : ColumnType) : Apart t.row := by
  obtain ⟨name, length, scale⟩ := t
  have hName : Apart (typeNameRow name) := apart_wordRow (by simp) _
  cases length <;> cases scale <;> simp [row, argumentsRow, hName]

theorem QualifiedName.apart_row (q : QualifiedName) : Apart q.row := by
  obtain ⟨schema, name⟩ := q
  cases schema <;> simp [row]

/-- A join operator is detached and has no minus signs. -/
theorem JoinOperator.apart_row (o : JoinOperator) : Detached o.row ∧ Apart o.row := by
  obtain ⟨natural, kind, outer⟩ := o
  unfold row
  split
  · exact ⟨detached_cons rfl, by simp⟩
  · exact ⟨detached_cons rfl, by cases kind <;> simp [JoinKind.row]⟩

theorem apart_asNameRow (name : Option String) : Apart (asNameRow name) := by
  cases name <;> simp [asNameRow]

/-! ### Optional parts -/

theorem detached_rowAfter (before : Script) (o : Option Expr) :
    Detached (Expr.rowAfter (.blank :: before) o) := by
  cases o with
  | none => exact detached_nil
  | some e => exact detached_cons rfl

theorem detached_branches (branches : List Branch) : Detached (Branch.rowAll branches) := by
  rcases branches with _ | ⟨⟨condition, result⟩, branches⟩
  · exact detached_nil
  · exact detached_cons rfl

theorem detached_rowAfterFrom (o : Option JoinClause) : Detached (JoinClause.rowAfterFrom o) := by
  cases o with
  | none => exact detached_nil
  | some clause => exact detached_cons rfl

theorem detached_asNameRow (name : Option String) : Detached (asNameRow name) := by
  cases name with
  | none => exact detached_nil
  | some n => exact detached_cons rfl

theorem JoinConstraint.detached_row (c : JoinConstraint) : Detached c.row := by
  rcases c with _ | condition | columns
  · exact detached_nil
  · exact detached_cons rfl
  · exact detached_cons rfl

theorem Limit.detached_row (l : Limit) : Detached l.row := by
  cases l with
  | none => exact detached_nil
  | first count => exact detached_cons rfl
  | window count offset => exact detached_cons rfl

/-- The glyphs of a list behind two words. -/
theorem detached_listed {α : Type} (xs : List α) (before row : Script) :
    Detached (if xs.isEmpty then [] else (.blank :: before) ++ row) := by
  cases xs with
  | nil => exact detached_nil
  | cons x xs => exact detached_cons rfl

/-! ### Whole trees -/

/-- No node is a minus sign in front of another one. -/
def NoneDoubled (ns : List Node) : Prop := ∀ n ∈ ns, ¬ n.Doubled

@[simp] theorem noneDoubled_nil : NoneDoubled [] := by simp [NoneDoubled]

@[simp] theorem noneDoubled_append (ns ms : List Node) :
    NoneDoubled (ns ++ ms) ↔ NoneDoubled ns ∧ NoneDoubled ms := List.forall_mem_append

@[simp] theorem noneDoubled_cons (n : Node) (ns : List Node) :
    NoneDoubled (n :: ns) ↔ ¬ n.Doubled ∧ NoneDoubled ns := List.forall_mem_cons

mutual

theorem Expr.apart_row : ∀ e : Expr, Apart e.row ↔ NoneDoubled e.nodes
  | .single conjunction => by simp [Expr.row, Expr.nodes, conjunction.apart_row]
  | .or left right => by simp [Expr.row, Expr.nodes, left.apart_row, right.apart_row]

theorem Conjunction.apart_row : ∀ c : Conjunction, Apart c.row ↔ NoneDoubled c.nodes
  | .single condition => by simp [Conjunction.row, Conjunction.nodes, condition.apart_row]
  | .and left right => by
    simp [Conjunction.row, Conjunction.nodes, left.apart_row, right.apart_row]

theorem Condition.apart_row : ∀ c : Condition, Apart c.row ↔ NoneDoubled c.nodes
  | .operand operand => by simp [Condition.row, Condition.nodes, operand.apart_row]
  | .comparison left _ right => by
    simp [Condition.row, Condition.nodes, left.apart_row, right.apart_row]
  | .isNull left negated => by simp [Condition.row, Condition.nodes, left.apart_row]
  | .same left negated right => by
    simp [Condition.row, Condition.nodes, left.apart_row, right.apart_row]
  | .between left negated low high => by
    simp [Condition.row, Condition.nodes, left.apart_row, low.apart_row, high.apart_row]
  | .oneOf left negated values => by
    simp [Condition.row, Condition.nodes, left.apart_row, Expr.apart_rowAll values]
  | .oneOfQuery left negated query => by
    simp [Condition.row, Condition.nodes, left.apart_row, query.apart_row]
  | .like left negated pattern => by
    simp [Condition.row, Condition.nodes, left.apart_row, pattern.apart_row]
  | .likeEscape left negated pattern escape => by
    simp [Condition.row, Condition.nodes, left.apart_row, pattern.apart_row, escape.apart_row]
  | .regexp left negated pattern => by
    simp [Condition.row, Condition.nodes, left.apart_row, pattern.apart_row]
  | .existence query => by simp [Condition.row, Condition.nodes, query.apart_row]
  | .negation inner => by simp [Condition.row, Condition.nodes, inner.apart_row]

theorem Operand.apart_row : ∀ o : Operand, Apart o.row ↔ NoneDoubled o.nodes
  | .single sum => by simp [Operand.row, Operand.nodes, sum.apart_row]
  | .concat left right => by simp [Operand.row, Operand.nodes, left.apart_row, right.apart_row]

theorem Sum.apart_row : ∀ s : Sum, Apart s.row ↔ NoneDoubled s.nodes
  | .single product => by simp [Sum.row, Sum.nodes, product.apart_row]
  | .add left _ right => by simp [Sum.row, Sum.nodes, left.apart_row, right.apart_row]

theorem Product.apart_row : ∀ p : Product, Apart p.row ↔ NoneDoubled p.nodes
  | .single term => by simp [Product.row, Product.nodes, term.apart_row]
  | .mul left _ right => by simp [Product.row, Product.nodes, left.apart_row, right.apart_row]

theorem Term.apart_row : ∀ t : Term, Apart t.row ↔ NoneDoubled t.nodes
  | .path path => by simp [Term.row, Term.nodes, Path.row, apart_dotted, Node.Doubled]
  | .literal value => by simp [Term.row, Term.nodes, value.apart_row, Node.Doubled]
  | .parameter parameter => by simp [Term.row, Term.nodes, parameter.apart_row, Node.Doubled]
  | .placeholder placeholder => by simp [Term.row, Term.nodes, Placeholder.row, Node.Doubled]
  | .paren inner => by simp [Term.row, Term.nodes, inner.apart_row, Node.Doubled]
  | .subquery query => by simp [Term.row, Term.nodes, query.apart_row, Node.Doubled]
  | .case operand branches otherwise => by
    have hEnd : Detached (Expr.rowAfter [.blank, .keyword .ELSE, .blank] otherwise ++
        [.blank, .keyword .END]) := (detached_rowAfter _ _).append (detached_cons rfl)
    have hRest := (detached_branches branches).append hEnd
    rw [Term.row, apart_cons (by simp), apart_append hRest, apart_append hEnd, apart_append_blank,
      Expr.apart_rowAfter (by simp) operand, Branch.apart_rowAll branches,
      Expr.apart_rowAfter (by simp) otherwise]
    simp [Term.nodes, Node.Doubled]
  | .cast inner target => by
    simp [Term.row, Term.nodes, inner.apart_row, target.apart_row, Node.Doubled]
  | .call function distinct arguments => by
    simp [Term.row, Term.nodes, Expr.apart_rowAll arguments, Node.Doubled]
  | .callStar function => by simp [Term.row, Term.nodes, Node.Doubled]
  | .signed negative inner => by
    have hInner := inner.apart_row
    have hHead := inner.head?_row
    cases negative <;>
      simp [Term.row, Term.nodes, signSymbol, apart_minus, Node.Doubled, hInner, hHead]

theorem Expr.apart_rowAll : ∀ es : List Expr,
    (∀ row ∈ Expr.rowAll es, Apart row) ↔ NoneDoubled (Expr.nodesAll es)
  | [] => by simp [Expr.rowAll, Expr.nodesAll]
  | e :: es => by simp [Expr.rowAll, Expr.nodesAll, e.apart_row, Expr.apart_rowAll es]

theorem Expr.apart_rowAfter {before : Script} (h : ∀ gs, Apart (before ++ gs) ↔ Apart gs) :
    ∀ o : Option Expr, Apart (Expr.rowAfter before o) ↔ NoneDoubled (Expr.nodesOption o)
  | none => by simp [Expr.rowAfter, Expr.nodesOption]
  | some e => by simp [Expr.rowAfter, Expr.nodesOption, h, e.apart_row]

theorem Branch.apart_rowAll : ∀ bs : List Branch,
    Apart (Branch.rowAll bs) ↔ NoneDoubled (Branch.nodesAll bs)
  | [] => by simp [Branch.rowAll, Branch.nodesAll]
  | ⟨condition, result⟩ :: branches => by
    rw [Branch.rowAll, apart_append (detached_branches branches), Branch.apart_rowAll branches]
    simp [Branch.nodesAll, condition.apart_row, result.apart_row, and_assoc]

theorem Select.apart_row : ∀ q : Select, Apart q.row ↔ NoneDoubled q.nodes
  | ⟨recursive, tables, bodies, orderBy, limit, _⟩ => by
    have hTables := CommonTable.apart_rowAll tables
    have hOrder := OrderTerm.apart_rowAll orderBy
    have hBodies := bodies.apart_row
    have hLimit := limit.apart_row
    cases tables <;> cases orderBy <;>
      simp_all [Select.row, Select.nodes, apart_append limit.detached_row, OrderTerm.nodesAll,
        CommonTable.nodesAll]

theorem CommonTable.apart_rowAll : ∀ ts : List CommonTable,
    (∀ row ∈ CommonTable.rowAll ts, Apart row) ↔ NoneDoubled (CommonTable.nodesAll ts)
  | [] => by simp [CommonTable.rowAll, CommonTable.nodesAll]
  | ⟨name, columns, query⟩ :: tables => by
    have hRest := CommonTable.apart_rowAll tables
    cases columns <;>
      simp [CommonTable.rowAll, CommonTable.nodesAll, query.apart_row, hRest]

theorem Bodies.apart_row : ∀ b : Bodies, Apart b.row ↔ NoneDoubled b.nodes
  | .single body => by simp [Bodies.row, Bodies.nodes, body.apart_row]
  | .compound left operator right => by
    have hOperator : Apart operator.row := by cases operator <;> simp [SetOperator.row]
    simp [Bodies.row, Bodies.nodes, left.apart_row, right.apart_row, hOperator]

theorem Body.apart_row : ∀ b : Body, Apart b.row ↔ NoneDoubled b.nodes
  | .select distinct columns source condition groupBy having => by
    have hHaving := detached_rowAfter [.keyword .HAVING, .blank] having
    have hGroups := (detached_listed groupBy [.keyword .GROUP, .blank, .keyword .BY, .blank]
      (commaRow (Expr.rowAll groupBy))).append hHaving
    have hCondition := (detached_rowAfter [.keyword .WHERE, .blank] condition).append hGroups
    have hSource := (detached_rowAfterFrom source).append hCondition
    have hAll :
      Apart (if groupBy.isEmpty then [] else [.blank, .keyword .GROUP, .blank, .keyword .BY,
        .blank] ++ commaRow (Expr.rowAll groupBy)) ↔ NoneDoubled (Expr.nodesAll groupBy) := by
      have hValues := Expr.apart_rowAll groupBy
      cases groupBy <;> simp_all [Expr.nodesAll]
    rw [Body.row, List.cons_append, List.cons_append, List.nil_append, apart_cons_blank,
      apart_optionalWord, apart_append hSource, apart_append hCondition, apart_append hGroups,
      apart_append hHaving, apart_commaRow, ResultColumn.apart_rowAll columns,
      JoinClause.apart_rowAfterFrom source, Expr.apart_rowAfter (by simp) condition, hAll,
      Expr.apart_rowAfter (by simp) having]
    simp [Body.nodes]
  | .values rows => by
    simp [Body.row, Body.nodes, Expr.apart_rowRows rows]

theorem Expr.apart_rowRows : ∀ rows : List (List Expr),
    (∀ row ∈ Expr.rowRows rows, Apart row) ↔ NoneDoubled (Expr.nodesRows rows)
  | [] => by simp [Expr.rowRows, Expr.nodesRows]
  | row :: rows => by
    simp [Expr.rowRows, Expr.nodesRows, Expr.apart_rowAll row, Expr.apart_rowRows rows]

theorem ResultColumn.apart_row : ∀ c : ResultColumn, Apart c.row ↔ NoneDoubled c.nodes
  | .star => by simp [ResultColumn.row, ResultColumn.nodes]
  | .tableStar table => by simp [ResultColumn.row, ResultColumn.nodes]
  | .expr expr asName => by
    rw [ResultColumn.row, apart_append (detached_asNameRow asName), expr.apart_row]
    simp [ResultColumn.nodes, apart_asNameRow]

theorem ResultColumn.apart_rowAll : ∀ cs : List ResultColumn,
    (∀ row ∈ ResultColumn.rowAll cs, Apart row) ↔ NoneDoubled (ResultColumn.nodesAll cs)
  | [] => by simp [ResultColumn.rowAll, ResultColumn.nodesAll]
  | column :: columns => by
    simp [ResultColumn.rowAll, ResultColumn.nodesAll, column.apart_row,
      ResultColumn.apart_rowAll columns]

theorem JoinClause.apart_rowAfterFrom : ∀ o : Option JoinClause,
    Apart (JoinClause.rowAfterFrom o) ↔ NoneDoubled (JoinClause.nodesOption o)
  | none => by simp [JoinClause.rowAfterFrom, JoinClause.nodesOption]
  | some clause => by simp [JoinClause.rowAfterFrom, JoinClause.nodesOption, clause.apart_row]

theorem JoinClause.apart_row : ∀ c : JoinClause, Apart c.row ↔ NoneDoubled c.nodes
  | .single source => by simp [JoinClause.row, JoinClause.nodes, source.apart_row]
  | .join left operator right constraint => by
    have hRight : Apart (.blank :: (right.row ++ constraint.row)) ↔
        NoneDoubled right.nodes ∧ NoneDoubled constraint.nodes := by
      rw [apart_cons (by simp), apart_append constraint.detached_row, right.apart_row,
        constraint.apart_row]
    have hOperator : Detached operator.row ∧ Apart operator.row := operator.apart_row
    rw [JoinClause.row, apart_append (hOperator.1.append (detached_cons rfl)),
      apart_append (detached_cons rfl), hRight, left.apart_row]
    simp [JoinClause.nodes, hOperator.2]

theorem JoinConstraint.apart_row : ∀ c : JoinConstraint, Apart c.row ↔ NoneDoubled c.nodes
  | .none => by simp [JoinConstraint.row, JoinConstraint.nodes]
  | .on condition => by simp [JoinConstraint.row, JoinConstraint.nodes, condition.apart_row]
  | .using columns => by simp [JoinConstraint.row, JoinConstraint.nodes]

theorem Source.apart_row : ∀ s : Source, Apart s.row ↔ NoneDoubled s.nodes
  | .table name asName => by
    rw [Source.row, apart_append (detached_asNameRow asName)]
    simp [Source.nodes, name.apart_row, apart_asNameRow]
  | .subquery query asName => by
    simp [Source.row, Source.nodes, query.apart_row, apart_asNameRow]
  | .nested clause => by simp [Source.row, Source.nodes, clause.apart_row]

theorem OrderTerm.apart_rowAll : ∀ ts : List OrderTerm,
    (∀ row ∈ OrderTerm.rowAll ts, Apart row) ↔ NoneDoubled (OrderTerm.nodesAll ts)
  | [] => by simp [OrderTerm.rowAll, OrderTerm.nodesAll]
  | ⟨key, direction, nulls⟩ :: terms => by
    have hRest := OrderTerm.apart_rowAll terms
    have hKey := key.apart_row
    cases nulls with
    | none => simp [OrderTerm.rowAll, OrderTerm.nodesAll, hKey, hRest]
    | some placement =>
      cases placement <;>
        simp [OrderTerm.rowAll, OrderTerm.nodesAll, hKey, hRest, NullPlacement.row]

theorem Limit.apart_row : ∀ l : Limit, Apart l.row ↔ NoneDoubled l.nodes
  | .none => by simp [Limit.row, Limit.nodes, Node.Doubled]
  | .first count => by simp [Limit.row, Limit.nodes, count.apart_row, Node.Doubled]
  | .window count offset => by
    simp [Limit.row, Limit.nodes, count.apart_row, offset.apart_row, Node.Doubled]

end

end SqlKit
