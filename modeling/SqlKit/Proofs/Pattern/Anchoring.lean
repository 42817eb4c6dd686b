import Mathlib.Data.List.TakeDrop
import SqlKit.Pattern.Reader
import SqlKit.Proofs.Pattern.Matching
import SqlKit.Validation.Format

/-!
# Anchored expressions

A pattern for the whole of a text is not built but written: its text is put between `^(?:` and `)$`
and read anew. What was read of a text stays as it was when more stands behind it, as long as that
does not begin with a `?`: backslashes join the same characters (`marksOf_append`), every piece ends
where it ended (`Kept`), and the groups around do not matter to what is assembled inside them
(`Assembly.foldlM_under`). So **the anchored text of a pattern is read as that pattern between the
two ends of the text** (`Pattern.read_anchored`), and matches a text exactly if the pattern matches
the whole of it (`Pattern.engine_anchored_iff`).

The pattern has to be one by itself. In a text like `a)|(b` the parentheses pair with those put
around it.
-/

namespace SqlKit

/-! ## Marks -/

theorem marksOf_append {cs ds : List Char} {marks : List Mark} (h : marksOf cs = some marks) :
    marksOf (cs ++ ds) = (marksOf ds).map (marks ++ ·) := by
  induction cs using marksOf.induct generalizing marks with
  | case1 =>
    cases h
    simp
  | case2 => cases h
  | case3 c rest ih =>
    simp only [marksOf, Option.map_eq_some_iff] at h
    obtain ⟨behind, hBehind, rfl⟩ := h
    simp [marksOf, ih hBehind, Function.comp_def]
  | case4 c rest hLone hPair ih =>
    have hPlain (es : List Char) (hes : c = '\\' → False) :
        marksOf (c :: es) = (marksOf es).map (.plain c :: ·) := by
      rw [marksOf]
      · exact fun h _ => hes h
      · exact fun _ _ h => absurd h hes
    have hChar : c = '\\' → False := by
      rintro rfl
      cases rest with
      | nil => exact hLone rfl rfl
      | cons d rest => exact hPair d rest rfl rfl
    rw [hPlain rest hChar, Option.map_eq_some_iff] at h
    obtain ⟨behind, hBehind, rfl⟩ := h
    rw [List.cons_append, hPlain _ hChar, ih hBehind]
    simp [Function.comp_def]

/-! ## Pieces -/

section Pieces

variable {behind : List Mark}

/-- A reading of some marks takes no more than there are, and is the same if more stand behind. -/
def Kept {α : Type} (behind : List Mark) (read : List Mark → Option (Extent α))
    (marks : List Mark) :
    Prop :=
  ∀ e, read marks = some e → e.marks ≤ marks.length ∧ read (marks ++ behind) = some e

theorem Kept.map {α β : Type} {read : List Mark → Option (Extent α)} {marks : List Mark} {n : Nat}
    {e : Extent β} (h : Kept behind read marks) (f : Extent α → Extent β)
    (hf : ∀ e, (f e).marks = e.marks + n) (he : (read marks).map f = some e) :
    e.marks ≤ marks.length + n ∧ (read (marks ++ behind)).map f = some e := by
  obtain ⟨e', he', rfl⟩ := Option.map_eq_some_iff.mp he
  obtain ⟨hLength, hRead⟩ := h e' he'
  rw [hf, hRead]
  exact ⟨Nat.add_le_add_right hLength n, rfl⟩

/-- One more part in front of a set that is read from the marks behind it. -/
theorem bind_cons_eq_some_iff {α : Type} {rest : Option (Extent (List α))} {part : Option α}
    {n : Nat} {e : Extent (List α)} :
    (do return (← rest).cons (← part) n) = some e ↔
      ∃ e' ∈ rest, ∃ a ∈ part, e = e'.cons a n := by
  cases rest <;> cases part <;> simp [eq_comm]

theorem setParts_closing (rest : List Mark) : setParts (.plain ']' :: rest) = some ⟨[], 1⟩ := by
  rcases rest with _ | ⟨b, _ | ⟨c, rest⟩⟩ <;> simp [setParts]

/-- A mark in a set that neither closes it nor begins an operation or a range. -/
theorem setParts_single {a b : Mark} (rest : List Mark) (hOpen : a ≠ .plain ']')
    (hSet : ¬a.isSetOperation b = true)
    (hRange : b = .plain '-' → ∀ c ∈ rest.head?, c = .plain ']' ∨ c = .plain '-') :
    setParts (a :: b :: rest) = do return (← setParts (b :: rest)).cons (← a.meaning) 1 := by
  cases rest with
  | nil => simp [setParts, hOpen, hSet]
  | cons c rest =>
    have hNoRange : ¬(b = .plain '-' ∧ c ≠ .plain ']' ∧ c ≠ .plain '-') := fun ⟨hb, hc, hc'⟩ =>
      (hRange hb c rfl).elim hc hc'
    rw [setParts, if_neg hOpen, if_neg hSet, if_neg hNoRange]

/-- A set that is one more part in front of the set in the marks behind it. -/
theorem Kept.cons_setParts {marks rest : List Mark} {part : Option CharPart} {n : Nat}
    (h : Kept behind setParts rest) (hn : marks.length = rest.length + n)
    (hCons : setParts marks = do return (← setParts rest).cons (← part) n)
    (hCons' : ∀ e, setParts rest = some e →
      setParts (marks ++ behind) = do return (← setParts (rest ++ behind)).cons (← part) n) :
    Kept behind setParts marks := by
  intro e he
  rw [hCons, bind_cons_eq_some_iff] at he
  obtain ⟨parts, hParts, a, ha, rfl⟩ := he
  obtain ⟨hLength, hRead⟩ := h parts hParts
  refine ⟨hn ▸ Nat.add_le_add_right hLength n, ?_⟩
  rw [hCons' parts hParts, bind_cons_eq_some_iff]
  exact ⟨parts, hRead, a, ha, rfl⟩

theorem kept_setParts (marks : List Mark) : Kept behind setParts marks := by
  have hLast {b : Mark} {e : Extent (List CharPart)} (h : setParts [b] = some e) :
      b = .plain ']' := by
    by_contra hOther
    simp [setParts, hOther] at h
  induction marks using setParts.induct with
  | case1 => exact fun e h => nomatch h
  | case3 a hClosing => exact fun e h => absurd (hLast h) hClosing
  | case2 | case4 | case7 =>
    intro e h
    obtain rfl : ⟨[], 1⟩ = e := by simpa [setParts_closing] using h
    exact ⟨by simp, setParts_closing _⟩
  | case5 a b hOpen hSet | case8 a b c rest hOpen hSet =>
    intro e h
    simp [setParts, hOpen, hSet] at h
  | case6 a b hOpen hSet ih =>
    refine ih.cons_setParts rfl (setParts_single [] hOpen hSet (by simp)) fun e h => ?_
    obtain rfl := hLast h
    exact setParts_single _ hOpen hSet (by simp [Mark.plain])
  | case9 a b c rest hOpen hSet hRange ih =>
    have hCons (more : List Mark) : setParts (a :: b :: c :: more) =
        do return (← setParts more).cons (← a.rangeTo c) 3 := by
      rw [setParts, if_neg hOpen, if_neg hSet, if_pos hRange]
    exact ih.cons_setParts rfl (hCons rest) fun _ _ => hCons _
  | case10 a b c rest hOpen hSet hRange ih =>
    have hCons (more : List Mark) : setParts (a :: b :: c :: more) =
        do return (← setParts (b :: c :: more)).cons (← a.meaning) 1 := by
      rw [setParts, if_neg hOpen, if_neg hSet, if_neg hRange]
    exact ih.cons_setParts rfl (hCons rest) fun _ _ => hCons _

theorem kept_afterDashes (marks : List Mark) : Kept behind leadingParts.afterDashes marks := by
  induction marks using leadingParts.afterDashes.induct with
  | case1 => exact fun e h => nomatch h
  | case2 rest ih =>
    intro e h
    rw [leadingParts.afterDashes, if_pos rfl] at h
    rw [List.cons_append, leadingParts.afterDashes, if_pos rfl]
    exact ih.map _ (fun _ => rfl) h
  | case3 m rest hDash =>
    intro e h
    rw [leadingParts.afterDashes, if_neg hDash] at h
    rw [List.cons_append, leadingParts.afterDashes, if_neg hDash]
    exact kept_setParts (m :: rest) e h

theorem kept_leadingParts (marks : List Mark) : Kept behind leadingParts marks := by
  intro e h
  cases marks with
  | nil => cases h
  | cons m rest =>
    simp only [List.cons_append, leadingParts] at h ⊢
    by_cases hDash : m = .plain '-'
    · rw [if_pos hDash] at h ⊢
      exact (kept_afterDashes rest).map _ (fun _ => rfl) h
    by_cases hClosing : m = .plain ']'
    · rw [if_neg hDash, if_pos hClosing] at h ⊢
      exact (kept_setParts rest).map _ (fun _ => rfl) h
    · rw [if_neg hDash, if_neg hClosing] at h ⊢
      exact kept_setParts (m :: rest) e h

theorem setOf_cons (m : Mark) (rest : List Mark) :
    setOf (m :: rest) =
      if m = .plain '^' then (leadingParts rest).map fun e => ⟨⟨true, e.value⟩, e.marks + 1⟩
      else (leadingParts (m :: rest)).map fun e => ⟨⟨false, e.value⟩, e.marks⟩ := by
  by_cases hCaret : m = .plain '^' <;> simp [setOf, hCaret]

theorem kept_setOf (marks : List Mark) : Kept behind setOf marks := by
  intro e h
  cases marks with
  | nil => cases h
  | cons m rest =>
    rw [List.cons_append]
    rw [setOf_cons] at h ⊢
    by_cases hCaret : m = .plain '^'
    · rw [if_pos hCaret] at h ⊢
      exact (kept_leadingParts rest).map _ (fun _ => rfl) h
    · rw [if_neg hCaret] at h ⊢
      exact (kept_leadingParts (m :: rest)).map (n := 0) _ (fun _ => rfl) h

/-- What stands behind the marks does not make a repetition at their end lazy. -/
theorem repetitionPiece_append (hBehind : behind.head? ≠ some (.plain '?')) (least : Nat)
    (most : Option Nat) (n : Nat) (rest : List Mark) :
    (repetitionPiece least most n rest).marks ≤ n + rest.length ∧
      repetitionPiece least most n (rest ++ behind) = repetitionPiece least most n rest := by
  cases rest with
  | nil => simp [repetitionPiece, hBehind]
  | cons m rest =>
    refine ⟨?_, rfl⟩
    by_cases hLazy : m = .plain '?'
    · simp only [repetitionPiece, List.head?_cons, hLazy, if_true, List.length_cons]
      omega
    · simp [repetitionPiece, hLazy]

/-- A span that ends in front of some mark is the same if more marks stand behind. -/
theorem span_append_of_cons {α : Type} {p : α → Bool} {before rest as : List α} {a : α}
    (behind : List α) (h : as.span p = (before, a :: rest)) :
    (as ++ behind).span p = (before, a :: (rest ++ behind)) ∧ as = before ++ a :: rest := by
  rw [List.span_eq_takeWhile_dropWhile, Prod.mk.injEq] at h
  obtain ⟨hBefore, hBehind⟩ := h
  have hParts : as = before ++ a :: rest := by
    rw [← hBefore, ← hBehind, List.takeWhile_append_dropWhile]
  have hShort : before.length ≠ as.length := by simp [hParts]
  rw [List.span_eq_takeWhile_dropWhile, List.takeWhile_append, List.dropWhile_append, hBefore,
    hBehind, if_neg hShort]
  exact ⟨rfl, hParts⟩

theorem kept_countedRepetition (hBehind : behind.head? ≠ some (.plain '?')) (marks : List Mark) :
    Kept behind countedRepetition marks := by
  intro e h
  unfold countedRepetition at h ⊢
  split at h
  next => cases h
  next bounds m rest hSpan =>
    obtain ⟨hSpan', rfl⟩ := span_append_of_cons behind hSpan
    rw [hSpan']
    split at h
    next => cases h
    next hEscaped =>
      obtain ⟨⟨least, most⟩, hBounds, hPiece⟩ := Option.bind_eq_some_iff.mp h
      obtain rfl : repetitionPiece least most (bounds.length + 1) rest = e := by simpa using hPiece
      obtain ⟨hLength, hKept⟩ := repetitionPiece_append hBehind least most (bounds.length + 1) rest
      refine ⟨by simpa [Nat.add_assoc, Nat.add_comm 1] using hLength, ?_⟩
      simp [hEscaped, hBounds, hKept]

theorem groupOpening_of_question (rest : List Mark) : groupOpening (.plain '?' :: rest) =
    if rest.head? = some (.plain ':') then some ⟨.opening false, 2⟩ else none := by
  rcases rest with _ | ⟨m, rest⟩
  · rfl
  by_cases hColon : m = .plain ':'
  · subst hColon
    rfl
  · rw [List.head?_cons, if_neg (by simpa using hColon), Mark.plain, groupOpening]
    rintro _ ⟨rfl⟩
    exact hColon rfl

theorem groupOpening_of_other {marks : List Mark} (h : marks.head? ≠ some (.plain '?')) :
    groupOpening marks = some ⟨.opening true, 0⟩ := by
  rw [groupOpening]
  · rintro _ rfl
    exact h rfl
  · rintro _ rfl
    exact h rfl

theorem kept_groupOpening (hBehind : behind.head? ≠ some (.plain '?')) (marks : List Mark) :
    Kept behind groupOpening marks := by
  intro e h
  cases marks with
  | nil =>
    cases h
    exact ⟨Nat.zero_le _, groupOpening_of_other hBehind⟩
  | cons m rest =>
    by_cases hQuestion : m = .plain '?'
    · subst m
      rw [List.cons_append]
      rw [groupOpening_of_question] at h ⊢
      cases rest with
      | nil => cases h
      | cons n rest =>
        refine ⟨?_, h⟩
        split at h
        next =>
          cases h
          simp
        next => cases h
    · have hOther (more : List Mark) : (m :: more).head? ≠ some (.plain '?') := by simpa
      rw [groupOpening_of_other (hOther rest)] at h
      cases h
      exact ⟨Nat.zero_le _, groupOpening_of_other (hOther (rest ++ behind))⟩

theorem kept_pieceOf (hBehind : behind.head? ≠ some (.plain '?')) (m : Mark) (rest : List Mark) :
    Kept behind (pieceOf m) rest := by
  intro e h
  have hFixed {x : Option (Extent Piece)} (hx : x = some e) (hMarks : e.marks = 0) :
      e.marks ≤ rest.length ∧ x = some e := ⟨hMarks ▸ Nat.zero_le _, hx⟩
  have hRepeats (least : Nat) (most : Option Nat)
      (hx : some (repetitionPiece least most 0 rest) = some e) :
      e.marks ≤ rest.length ∧ some (repetitionPiece least most 0 (rest ++ behind)) = some e := by
    obtain ⟨hLength, hKept⟩ := repetitionPiece_append hBehind least most 0 rest
    cases hx
    exact ⟨by simpa using hLength, congrArg some hKept⟩
  unfold pieceOf at h ⊢
  by_cases hEscaped : m.escaped = true
  · rw [if_pos hEscaped] at h ⊢
    obtain ⟨part, -, hPart⟩ := Option.bind_eq_some_iff.mp h
    cases hPart
    exact hFixed h rfl
  rw [if_neg hEscaped] at h ⊢
  generalize m.char = c at h ⊢
  split at h
  next => exact kept_groupOpening hBehind rest e h
  next => cases h; exact hFixed rfl rfl
  next => cases h; exact hFixed rfl rfl
  next => exact hRepeats _ _ h
  next => exact hRepeats _ _ h
  next => exact hRepeats _ _ h
  next => exact kept_countedRepetition hBehind rest e h
  next => exact (kept_setOf rest).map (n := 0) _ (fun _ => rfl) h
  next => cases h; exact hFixed rfl rfl
  next => cases h; exact hFixed rfl rfl
  next => cases h; exact hFixed rfl rfl
  next =>
    cases h
    exact hFixed (by simp_all) rfl

theorem piecesBehind_append (hBehind : behind.head? ≠ some (.plain '?')) {n : Nat}
    {marks : List Mark} {pieces : List Piece} (hn : n ≤ marks.length)
    (h : piecesBehind n marks = some pieces) :
    piecesBehind n (marks ++ behind) = (piecesOf behind).map (pieces ++ ·) := by
  induction n, marks using piecesBehind.induct generalizing pieces with
  | case1 n =>
    obtain rfl : n = 0 := Nat.le_zero.mp hn
    cases h
    simp [piecesOf]
  | case2 n m rest ih => exact ih (Nat.le_of_succ_le_succ hn) h
  | case3 m rest ih =>
    simp only [piecesBehind, bind, Option.bind_eq_some_iff] at h
    obtain ⟨e, hPiece, pieces', hRest, hPieces⟩ := h
    obtain rfl : e.value :: pieces' = pieces := by simpa using hPieces
    obtain ⟨hLength, hKept⟩ := kept_pieceOf hBehind m rest e hPiece
    simp only [List.cons_append, piecesBehind, hKept, bind, Option.bind_some, ih e hLength hRest]
    cases piecesOf behind <;> rfl

end Pieces

/-! ## Assembly -/

namespace Assembly

/-- An assembly with more open groups around it. -/
def under (outer : List Group) (a : Assembly) : Assembly := ⟨a.group, a.outer ++ outer⟩

theorem add_under {a b : Assembly} {piece : Piece} (outer : List Group) (h : a.add piece = some b) :
    (a.under outer).add piece = some (b.under outer) := by
  obtain ⟨group, around⟩ := a
  cases piece with
  | opening keeps | bar | atom pattern =>
    cases h
    rfl
  | closing =>
    cases around with
    | nil => cases h
    | cons g around =>
      cases h
      rfl
  | repetition least most lazy =>
    simp only [add, under] at h ⊢
    cases hItems : group.items with
    | nil => simp [hItems] at h
    | cons item items =>
      simp only [hItems, Option.some.injEq] at h ⊢
      subst h
      rfl

/-- What is assembled does not depend on the groups around it. -/
theorem foldlM_under {pieces : List Piece} {a b : Assembly} (outer : List Group)
    (h : pieces.foldlM add a = some b) :
    pieces.foldlM add (a.under outer) = some (b.under outer) := by
  induction pieces generalizing a with
  | nil =>
    cases h
    rfl
  | cons piece pieces ih =>
    obtain ⟨c, hFirst, hRest⟩ := Option.bind_eq_some_iff.mp h
    rw [List.foldlM_cons, add_under outer hFirst]
    exact ih hRest

end Assembly

/-! ## Patterns -/

namespace Pattern

/-- A text is a pattern if its marks are pieces, the pieces a pattern, and that within the
limits. -/
theorem read_eq_some_iff {text : String} {p : Pattern} :
    read text = some p ↔ ∃ marks, marksOf text.toList = some marks ∧
      ∃ pieces, piecesOf marks = some pieces ∧
        ∃ a, pieces.foldlM Assembly.add .start = some a ∧
          a.finish = some p ∧ p.isWithinLimits = true := by
  simp only [read, bind, Option.bind_eq_some_iff, Option.ite_none_right_eq_some, Option.some.injEq]
  constructor
  · rintro ⟨marks, hMarks, pieces, hPieces, a, hAssembly, q, hFinish, hLimits, rfl⟩
    exact ⟨marks, hMarks, pieces, hPieces, a, hAssembly, hFinish, hLimits⟩
  · rintro ⟨marks, hMarks, pieces, hPieces, a, hAssembly, hFinish, hLimits⟩
    exact ⟨marks, hMarks, pieces, hPieces, a, hAssembly, p, hFinish, hLimits, rfl⟩

/-- Marks with those in front of and behind them that anchor a text. -/
def anchoredMarks (marks : List Mark) : List Mark :=
  [.plain '^', .plain '(', .plain '?', .plain ':'] ++ (marks ++ [.plain ')', .plain '$'])

theorem marksOf_anchored {text : String} {marks : List Mark}
    (h : marksOf text.toList = some marks) :
    marksOf (Format.anchored text).toList = some (anchoredMarks marks) := by
  have hText : (Format.anchored text).toList =
      ['^', '(', '?', ':'] ++ (text.toList ++ [')', '$']) := by
    simp [Format.anchored]
  have hBefore : marksOf ['^', '(', '?', ':'] =
      some [.plain '^', .plain '(', .plain '?', .plain ':'] := rfl
  rw [hText, marksOf_append hBefore, marksOf_append h]
  rfl

theorem piecesOf_anchored {marks : List Mark} {pieces : List Piece}
    (h : piecesOf marks = some pieces) :
    piecesOf (anchoredMarks marks) =
      some ([.atom .atStart, .opening false] ++ (pieces ++ [.closing, .atom .atEnd])) := by
  have hBefore (more : List Mark) :
      piecesOf ([.plain '^', .plain '(', .plain '?', .plain ':'] ++ more) =
        (piecesOf more).map ([.atom .atStart, .opening false] ++ ·) := by
    simp only [piecesOf, List.cons_append, List.nil_append, piecesBehind, pieceOf, Mark.plain,
      Bool.false_eq_true, if_false, groupOpening, Option.bind_eq_bind, Option.bind_some]
    cases piecesBehind 0 more <;> rfl
  have hBehind : piecesOf [.plain ')', .plain '$'] = some [.closing, .atom .atEnd] := rfl
  have hInside : piecesBehind 0 (marks ++ [.plain ')', .plain '$']) = _ :=
    piecesBehind_append (by decide) (Nat.zero_le _) h
  rw [anchoredMarks, hBefore, piecesOf, hInside, hBehind]
  rfl

/-- **The anchored text of a pattern is that pattern between the two ends of the text**, unless it
is refused for its size. -/
theorem read_anchored {text : String} {p q : Pattern} (hp : read text = some p)
    (hq : read (Format.anchored text) = some q) :
    ∃ keeps, q = .sequence .atStart (.sequence (.group keeps p) .atEnd) := by
  obtain ⟨marks, hMarks, pieces, hPieces, a, hAssembly, hFinish, -⟩ := read_eq_some_iff.mp hp
  obtain ⟨marks', hMarks', pieces', hPieces', b, hAssembly', hFinish', -⟩ := read_eq_some_iff.mp hq
  obtain rfl : _ = marks' := Option.some.inj ((marksOf_anchored hMarks).symm.trans hMarks')
  obtain rfl : _ = pieces' := Option.some.inj ((piecesOf_anchored hPieces).symm.trans hPieces')
  obtain ⟨group, outer⟩ := a
  obtain ⟨rfl, rfl⟩ : outer = [] ∧ group.pattern = p := by simpa [Assembly.finish] using hFinish
  have hInside := Assembly.foldlM_under [(Group.start false).push .atStart] hAssembly
  have hBefore : [Piece.atom .atStart, .opening false].foldlM Assembly.add .start =
      some (Assembly.start.under [(Group.start false).push .atStart]) := rfl
  simp only [List.foldlM_append, hBefore, hInside, bind, Option.bind_some] at hAssembly'
  cases hAssembly'
  cases hFinish'
  exact ⟨_, rfl⟩

/-- **The anchored expression of a pattern matches a text exactly if the pattern matches the whole
of it.** -/
theorem engine_anchored_iff {text : String} {p : Pattern} {test : String → Bool}
    (hp : read text = some p) (h : engine (Format.anchored text) = some test) (subject : String) :
    test subject = true ↔ p.Matches subject.toList.toArray 0 subject.length := by
  obtain ⟨q, hq, rfl⟩ := Option.map_eq_some_iff.mp h
  obtain ⟨keeps, rfl⟩ := read_anchored hp hq
  exact occursIn_ends_iff p keeps subject

end Pattern

end SqlKit
