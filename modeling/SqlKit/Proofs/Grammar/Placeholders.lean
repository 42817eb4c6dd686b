import SqlKit.Proofs.Grammar.Parameters
import SqlKit.Proofs.Simulation.Basic

/-!
# Placeholders are numbered as they are read

`Account.placeholders` is the account of the placeholders of a statement: they are the question
marks among its tokens, each with the number that touches it, and their positions count up. In the
tree they stand in the same order, but for limits: the two expressions of a limit with a comma are
held in the other order than they were read in, so that the order is kept if and only if no limit
has placeholders that count down (`InOrder`).
-/

namespace SqlKit

/-- The placeholder that a node is, if it is one. -/
def Node.placeholder? : Node → Option Placeholder
  | .term (.placeholder p) => some p
  | _ => none

/-- The placeholders among some nodes. -/
def placeholdersOf (ns : List Node) : List Placeholder := ns.filterMap Node.placeholder?

@[simp] theorem placeholdersOf_nil : placeholdersOf [] = [] := rfl

@[simp] theorem placeholdersOf_append (ns ms : List Node) :
    placeholdersOf (ns ++ ms) = placeholdersOf ns ++ placeholdersOf ms := List.filterMap_append

@[simp] theorem placeholdersOf_cons (n : Node) (ns : List Node) :
    placeholdersOf (n :: ns) = n.placeholder?.toList ++ placeholdersOf ns := by
  cases h : n.placeholder? with
  | none => exact List.filterMap_cons_none h
  | some p => exact List.filterMap_cons_some h

/-- The positions of placeholders count up. -/
def Ascending (ps : List Placeholder) : Prop := ps.Pairwise fun p q => p.position < q.position

/-- In every limit with two expressions the placeholders of both count up. -/
def InOrder (ns : List Node) : Prop :=
  ∀ count offset, .limit (.window count offset) ∈ ns →
    Ascending (placeholdersOf (count.nodes ++ offset.nodes))

@[simp] theorem inOrder_nil : InOrder [] := fun _ _ h => nomatch h

@[simp] theorem inOrder_append (ns ms : List Node) :
    InOrder (ns ++ ms) ↔ InOrder ns ∧ InOrder ms := by
  simp only [InOrder, List.mem_append]
  exact ⟨fun h => ⟨fun c o hn => h c o (.inl hn), fun c o hm => h c o (.inr hm)⟩,
    fun h c o hMem => hMem.elim (h.1 c o) (h.2 c o)⟩

theorem inOrder_window (count offset : Expr) :
    InOrder (Limit.nodes (.window count offset)) ↔
      Ascending (placeholdersOf (count.nodes ++ offset.nodes)) ∧ InOrder count.nodes ∧
        InOrder offset.nodes := by
  rw [Limit.nodes, ← List.singleton_append, inOrder_append, inOrder_append]
  refine and_congr_left' ⟨fun h => h count offset (List.mem_singleton_self _), ?_⟩
  intro h c o hMem
  obtain ⟨rfl, rfl⟩ := Limit.window.inj (Node.limit.inj (List.mem_singleton.mp hMem))
  exact h

namespace Grammar

/-- The numbers of the placeholders among some tokens: of each question mark the number that touches
it, if there is one. -/
def placeholderNumbers : List Token → List (Option Nat)
  | [] => []
  | t :: rest =>
    if t.kind = .symbol .question then numberBehind? t rest :: placeholderNumbers rest
    else placeholderNumbers rest

theorem placeholderNumbers_append_of_inert {ts rest : List Token} (h : ∀ t ∈ ts, Inert t) :
    placeholderNumbers (ts ++ rest) = placeholderNumbers rest := by
  induction ts with
  | nil => rfl
  | cons t ts ih =>
    obtain ⟨hHead, hTail⟩ := List.forall_mem_cons.mp h
    rw [List.cons_append, placeholderNumbers, if_neg hHead.2, ih hTail]

/-- Placeholders that are numbered one after another, behind as many. -/
structure Numbered (count : Nat) (ps : List Placeholder) : Prop where
  positions : ps.map (·.position) = List.range' (count + 1) ps.length

theorem Numbered.append {count : Nat} {ps qs : List Placeholder} (h : Numbered count ps)
    (h' : Numbered (count + ps.length) qs) : Numbered count (ps ++ qs) := by
  refine ⟨?_⟩
  rw [List.map_append, h.positions, h'.positions, List.length_append, Nat.add_right_comm]
  exact List.range'_append_1 ..

theorem Numbered.ascending {count : Nat} {ps : List Placeholder} (h : Numbered count ps) :
    Ascending ps := by
  have hSorted := List.pairwise_lt_range' (s := count + 1) (n := ps.length)
  rw [← h.positions, List.pairwise_map] at hSorted
  exact hSorted

/-- Placeholders in another order are in the same one if they count up. -/
theorem Numbered.eq_iff {count : Nat} {ps qs : List Placeholder} (h : Numbered count ps)
    (hPerm : qs.Perm ps) : qs = ps ↔ Ascending qs := by
  refine ⟨fun hEq => hEq ▸ h.ascending, fun hAscending => ?_⟩
  exact hPerm.eq_of_pairwise (fun p q _ _ hLess hMore => absurd hLess (Nat.lt_asymm hMore))
    hAscending h.ascending

/-- Between two states these placeholders were counted, and no others stand there. -/
structure Counted (s : State) (ps : List Placeholder) (s' : State) : Prop where
  numbers : placeholderNumbers s.tokens = ps.map (·.number) ++ placeholderNumbers s'.tokens
  numbered : Numbered s.placeholders ps
  placeholders : s'.placeholders = s.placeholders + ps.length

theorem Counted.trans {s s' s'' : State} {ps qs : List Placeholder} (h : Counted s ps s')
    (h' : Counted s' qs s'') : Counted s (ps ++ qs) s'' where
  numbers := by rw [h.numbers, h'.numbers, List.map_append, List.append_assoc]
  numbered := h.numbered.append (h.placeholders ▸ h'.numbered)
  placeholders := by rw [h'.placeholders, h.placeholders, List.length_append, Nat.add_assoc]

/-- The nodes hold these placeholders, and in the same order as far as their limits allow. -/
structure Holds (ns : List Node) (ps : List Placeholder) : Prop where
  perm : (placeholdersOf ns).Perm ps
  order : placeholdersOf ns = ps ↔ InOrder ns

theorem Holds.append {ns ms : List Node} {ps qs : List Placeholder} (h : Holds ns ps)
    (h' : Holds ms qs) : Holds (ns ++ ms) (ps ++ qs) := by
  refine ⟨?_, ?_⟩
  · rw [placeholdersOf_append]
    exact h.perm.append h'.perm
  · rw [placeholdersOf_append, inOrder_append, ← h.order, ← h'.order]
    exact ⟨fun hEq => List.append_inj hEq h.perm.length_eq, fun hBoth => by rw [hBoth.1, hBoth.2]⟩

/-- A limit whose expressions hold placeholders that were read in the one order or the other. -/
theorem Holds.window {count offset : Expr} {ps qs rs : List Placeholder} {a b c : Nat}
    (h : Holds count.nodes ps) (hNumbered : Numbered a ps) (h' : Holds offset.nodes qs)
    (hNumbered' : Numbered b qs) (hPerm : (ps ++ qs).Perm rs) (hAll : Numbered c rs) :
    Holds (Limit.nodes (.window count offset)) rs := by
  have hNodes : placeholdersOf (Limit.nodes (.window count offset)) =
      placeholdersOf (count.nodes ++ offset.nodes) := rfl
  have hBoth : (placeholdersOf (count.nodes ++ offset.nodes)).Perm rs := by
    rw [placeholdersOf_append]
    exact (h.perm.append h'.perm).trans hPerm
  refine ⟨hNodes ▸ hBoth, ?_⟩
  rw [hNodes, inOrder_window, hAll.eq_iff hBoth]
  refine ⟨fun hAscending => ⟨hAscending, ?_, ?_⟩, And.left⟩
  · rw [← h.order, hNumbered.eq_iff h.perm]
    rw [Ascending, placeholdersOf_append] at hAscending
    exact (List.pairwise_append.mp hAscending).1
  · rw [← h'.order, hNumbered'.eq_iff h'.perm]
    rw [Ascending, placeholdersOf_append] at hAscending
    exact (List.pairwise_append.mp hAscending).2.1

theorem placeholdersOf_noted (ns : List Node) : placeholdersOf (noted ns) = placeholdersOf ns := by
  rw [placeholdersOf, noted, List.filterMap_filter, placeholdersOf]
  refine List.filterMap_congr fun n _ => ?_
  rcases n with x | l
  · cases x <;> rfl
  · cases l <;> rfl

theorem inOrder_noted (ns : List Node) : InOrder (noted ns) ↔ InOrder ns := by
  refine forall₂_congr fun count offset => ?_
  rw [noted, List.mem_filter]
  exact imp_congr_left (and_iff_left rfl)

theorem Holds.congr {ns ms : List Node} {ps : List Placeholder} (h : Holds ns ps)
    (hNoted : noted ms = noted ns) : Holds ms ps := by
  have hPlaceholders : placeholdersOf ms = placeholdersOf ns := by
    rw [← placeholdersOf_noted, hNoted, placeholdersOf_noted]
  have hOrder : InOrder ms ↔ InOrder ns := by rw [← inOrder_noted, hNoted, inOrder_noted]
  exact ⟨hPlaceholders ▸ h.perm, by rw [hPlaceholders, hOrder]; exact h.order⟩

/-- The placeholders, each with its number and its position. -/
def Account.placeholders : Account where
  Explains s ns s' := s'.terminator = s.terminator ∧ (s.terminator.kind ≠ .symbol .question →
    ∃ ps, Holds ns ps ∧ Counted s ps s')
  skip h := by
    obtain ⟨skipped, hTokens, hInert⟩ := h.tokens
    refine ⟨h.terminator, fun _ => ⟨[], ⟨.refl _, by simp⟩, ?_, ⟨rfl⟩, h.placeholders⟩⟩
    rw [hTokens, placeholderNumbers_append_of_inert hInert]
    rfl
  trans := by
    rintro s s' s'' ns ms ⟨hTerminator, h⟩ ⟨hTerminator', h'⟩
    refine ⟨hTerminator'.trans hTerminator, fun hEnd => ?_⟩
    obtain ⟨ps, hHolds, hCounted⟩ := h hEnd
    obtain ⟨qs, hHolds', hCounted'⟩ := h' (hTerminator ▸ hEnd)
    exact ⟨ps ++ qs, hHolds.append hHolds', hCounted.trans hCounted'⟩
  congr := by
    rintro s s' ns ms hNoted ⟨hTerminator, h⟩
    refine ⟨hTerminator, fun hEnd => ?_⟩
    obtain ⟨ps, hHolds, hCounted⟩ := h hEnd
    exact ⟨ps, hHolds.congr hNoted, hCounted⟩
  placeholder := by
    rintro s s' p h
    refine ⟨h.terminator, fun hEnd => ?_⟩
    obtain ⟨t, rest, hTokens, hKind, hNumber, skipped, hSkipped, hInert⟩ := h.tokens hEnd
    have hHolds : Holds [.term (.placeholder p)] [p] := by
      refine ⟨.refl _, iff_of_true rfl fun count offset hMem => ?_⟩
      cases List.mem_singleton.mp hMem
    refine ⟨[p], hHolds, ?_, ⟨?_⟩, h.placeholders⟩
    · rw [hTokens, placeholderNumbers, if_pos hKind, ← hNumber, hSkipped,
        placeholderNumbers_append_of_inert hInert]
      rfl
    · simp [h.position]
  parameter := by
    rintro s s' p ⟨⟨t, u, rest, name, hTokens, hKind, hName, -, -, skipped, hSkipped, hInert⟩, -,
      hTerminator, hPlaceholders⟩
    refine ⟨hTerminator, fun _ => ⟨[], ⟨.refl _, iff_of_true rfl fun count offset hMem => ?_⟩, ?_,
      ⟨rfl⟩, hPlaceholders⟩⟩
    · cases List.mem_singleton.mp hMem
    · rw [hTokens, placeholderNumbers, if_neg (by simp [hKind]), placeholderNumbers,
        if_neg (inert_of_nameOf? hName).2, hSkipped, placeholderNumbers_append_of_inert hInert]
      rfl
  window := by
    rintro s s' s'' count offset ⟨hTerminator, h⟩ ⟨hTerminator', h'⟩
    refine ⟨hTerminator'.trans hTerminator, fun hEnd => ?_⟩
    obtain ⟨ps, hHolds, hCounted⟩ := h hEnd
    obtain ⟨qs, hHolds', hCounted'⟩ := h' (hTerminator ▸ hEnd)
    have hBoth := hCounted.trans hCounted'
    exact ⟨ps ++ qs, hHolds.window hCounted.numbered hHolds' hCounted'.numbered (.refl _)
      hBoth.numbered, hBoth⟩
  comma := by
    rintro s s' s'' count offset - ⟨hTerminator, h⟩ ⟨hTerminator', h'⟩
    refine ⟨hTerminator'.trans hTerminator, fun hEnd => ?_⟩
    obtain ⟨ps, hHolds, hCounted⟩ := h hEnd
    obtain ⟨qs, hHolds', hCounted'⟩ := h' (hTerminator ▸ hEnd)
    have hBoth := hCounted.trans hCounted'
    exact ⟨ps ++ qs, hHolds'.window hCounted'.numbered hHolds hCounted.numbered
      List.perm_append_comm hBoth.numbered, hBoth⟩

theorem ne_question_of_isEnd {kind : TokenKind} (h : kind.IsEnd) : kind ≠ .symbol .question := by
  intro hKind
  rcases h with h | h <;> cases h.symm.trans hKind

/-- The placeholders of a statement that is read without an error are the question marks among its
tokens, with positions that count up. -/
theorem after_statement_placeholders {rules : Rules} (h : rules.Collects .placeholders) {s : State}
    (hEnd : s.terminator.kind.IsEnd) (hInside : ∀ t ∈ s.tokens, endsStatement t = false) :
    After (statement rules) s fun x _ =>
      ∃ ps, Holds x.nodes ps ∧ Numbered s.placeholders ps ∧
        ps.map (·.number) = placeholderNumbers s.tokens := by
  refine After.imp (after_statement .placeholders h hInside) ?_
  rintro x s' ⟨⟨-, hExplains⟩, hTokens⟩
  obtain ⟨ps, hHolds, hCounted⟩ := hExplains (ne_question_of_isEnd hEnd)
  refine ⟨ps, hHolds, hCounted.numbered, ?_⟩
  rw [hCounted.numbers, hTokens]
  exact (List.append_nil _).symm

end Grammar

end SqlKit
