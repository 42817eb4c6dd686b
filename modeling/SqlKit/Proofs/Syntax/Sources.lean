import Mathlib.Data.List.Basic
import Mathlib.Logic.Function.Iterate
import SqlKit.Syntax.View

/-!
# The sources of a clause

`JoinClause.sources` goes through a clause and the clauses in parentheses with a stack. Each pass
takes a clause from the stack, adds the sources that this clause joins itself, and puts the clauses
that it joins on the stack (`JoinClause.pass`). What has been found and what the clauses on the
stack still hold are together the same sources before and after a pass (`JoinClause.perm_pass`), and
there are as many passes as clauses (`JoinClause.iterate_pass`), so that each source is found
exactly once.

Sources are not found from left to right. A clause is known by its place, the list of the positions
that lead to it from outside, and `JoinClause.places` has the places in the order in which the
clauses are taken up: a clause before those inside it, and what is further right before what is
further left.
-/

namespace SqlKit

/-! ## Passes -/

namespace JoinClause

/-- The tables and queries that a clause joins itself, from left to right. -/
def ownSources (c : JoinClause) : List Source := c.joined.filter (·.clause?.isNone)

/-- A pass takes a clause from the stack, adds its own sources to those that were found, and puts
the clauses that it joins on the stack. -/
def pass : List JoinClause × List Source → List JoinClause × List Source
  | ([], found) => ([], found)
  | (clause :: stack, found) =>
    (clause.nestedClauses.reverse ++ stack, found ++ clause.ownSources)

theorem pending_cons (clause : JoinClause) (stack : List JoinClause) :
    pending (clause :: stack) = pending (clause.nestedClauses.reverse ++ stack) + 1 := by
  rw [pending, ← pending_nestedClauses, pending_append, pending_reverse]
  omega

/-- With as many passes as there are clauses the stack is used up. -/
theorem iterate_pass (stack : List JoinClause) (found : List Source) :
    pass^[pending stack] (stack, found) = ([], found ++ sourcesFrom stack) := by
  fun_induction sourcesFrom stack generalizing found with
  | case1 => rw [pending, Function.iterate_zero_apply, List.append_nil]
  | case2 clause stack ih =>
    rw [pending_cons, Function.iterate_succ_apply, pass, ih, List.append_assoc]
    rfl

/-! ### What is found and what is still held -/

theorem perm_leaves (c : JoinClause) :
    (c.ownSources ++ c.nestedClauses.flatMap leaves).Perm c.leaves := by
  fun_induction joined c with
  | case1 s =>
    cases s <;> simp [ownSources, nestedClauses, joined, Source.clause?, leaves, Source.leaves]
  | case2 left operator right constraint ih =>
    have hRight : [right].filter (·.clause?.isNone) ++ right.clause?.toList.flatMap leaves =
        right.leaves := by
      cases right <;> simp [Source.clause?, Source.leaves]
    have hOwn : (join left operator right constraint).ownSources =
        left.ownSources ++ [right].filter (·.clause?.isNone) := List.filter_append ..
    have hNested : (join left operator right constraint).nestedClauses =
        left.nestedClauses ++ right.clause?.toList := by
      cases right <;> simp [nestedClauses, joined, Source.clause?]
    rw [hOwn, hNested, List.flatMap_append, leaves, ← hRight]
    refine List.Perm.trans ?_ (ih.append_right _)
    simp only [List.append_assoc]
    refine List.Perm.append_left _ ?_
    simp only [← List.append_assoc]
    exact List.Perm.append_right _ List.perm_append_comm

/-- What was found and what the clauses on the stack hold stays the same in a pass. -/
theorem perm_pass (x : List JoinClause × List Source) :
    ((pass x).2 ++ (pass x).1.flatMap leaves).Perm (x.2 ++ x.1.flatMap leaves) := by
  match x with
  | ([], found) => exact List.Perm.refl _
  | (clause :: stack, found) =>
    rw [pass, List.flatMap_append, List.flatMap_cons, List.append_assoc,
      ← List.append_assoc clause.ownSources]
    refine List.Perm.append_left _ (List.Perm.append_right _ ?_)
    exact (List.Perm.append_left _ ((List.reverse_perm _).flatMap_right leaves)).trans
      clause.perm_leaves

theorem perm_iterate_pass (n : Nat) (x : List JoinClause × List Source) :
    ((pass^[n] x).2 ++ (pass^[n] x).1.flatMap leaves).Perm (x.2 ++ x.1.flatMap leaves) := by
  induction n with
  | zero => exact List.Perm.refl _
  | succ n ih =>
    rw [Function.iterate_succ_apply']
    exact (perm_pass _).trans ih

theorem sources_perm (c : JoinClause) : c.sources.Perm c.leaves := by
  have h := perm_iterate_pass (pending [c]) ([c], [])
  rw [iterate_pass] at h
  simpa [sources] using h

end JoinClause

/-! ## Places -/

mutual

/-- The places of the clauses inside a clause, in the order in which they are taken up: those in the
last source come first, and each before those inside it. -/
def JoinClause.innerPlaces : JoinClause → List (List Nat)
  | .single source => source.placesAt 0
  | .join left _ right _ => right.placesAt left.joined.length ++ left.innerPlaces

/-- The places of the clause that a source is and of those inside it, where the source stands at a
position of a clause. -/
def Source.placesAt (position : Nat) : Source → List (List Nat)
  | .nested clause => ([] :: clause.innerPlaces).map (position :: ·)
  | .table _ _ | .subquery _ _ => []

end

namespace JoinClause

/-- The places of a clause and of those inside it, in the order in which they are taken up. -/
def places (c : JoinClause) : List (List Nat) := [] :: c.innerPlaces

/-- The clause at a place. -/
def at? : JoinClause → List Nat → Option JoinClause
  | c, [] => some c
  | c, position :: place => (c.joined[position]?.bind Source.clause?).bind fun d => d.at? place

/-- The sources that the clause at a place joins itself. -/
def ownSourcesAt (c : JoinClause) (place : List Nat) : List Source :=
  (c.at? place).elim [] ownSources

theorem innerPlaces_eq (c : JoinClause) :
    c.innerPlaces = c.joined.zipIdx.reverse.flatMap fun x => x.1.placesAt x.2 := by
  fun_induction joined c with
  | case1 s => simp [innerPlaces]
  | case2 left operator right constraint ih => simp [innerPlaces, ih, List.zipIdx_append]

/-- What holds of a clause if it holds of the clauses that it joins, holds of every clause. -/
theorem nested_induction {motive : JoinClause → Prop}
    (h : ∀ c, (∀ d ∈ c.nestedClauses, motive d) → motive c) (c : JoinClause) : motive c := by
  induction hCount : c.clauseCount using Nat.strongRecOn generalizing c with
  | ind count ih =>
    refine h c fun d hd => ih d.clauseCount ?_ d rfl
    obtain ⟨before, behind, hNested⟩ := List.append_of_mem hd
    have hPending := pending_nestedClauses c
    rw [hNested, pending_append, pending] at hPending
    omega

theorem mem_nestedClauses_of_position {c d : JoinClause} {position : Nat}
    (h : c.joined[position]?.bind Source.clause? = some d) : d ∈ c.nestedClauses := by
  obtain ⟨s, hs, hClause⟩ := Option.bind_eq_some_iff.mp h
  exact List.mem_filterMap.mpr ⟨s, List.mem_of_getElem? hs, hClause⟩

end JoinClause

theorem Source.placesAt_eq (s : Source) (position : Nat) :
    s.placesAt position = s.clause?.toList.flatMap fun d => d.places.map (position :: ·) := by
  cases s <;> simp [Source.placesAt, Source.clause?, JoinClause.places]

namespace JoinClause

theorem mem_innerPlaces {c : JoinClause} {place : List Nat} : place ∈ c.innerPlaces ↔
    ∃ position rest d, place = position :: rest ∧ c.joined[position]?.bind Source.clause? = some d ∧
      rest ∈ d.places := by
  rw [innerPlaces_eq, List.mem_flatMap]
  constructor
  · rintro ⟨⟨s, position⟩, hs, hPlace⟩
    rw [Source.placesAt_eq, List.mem_flatMap] at hPlace
    obtain ⟨d, hd, hPlace⟩ := hPlace
    obtain ⟨rest, hRest, rfl⟩ := List.mem_map.mp hPlace
    refine ⟨position, rest, d, rfl, ?_, hRest⟩
    rw [List.mem_reverse, List.mk_mem_zipIdx_iff_getElem?] at hs
    rw [hs]
    exact Option.mem_toList.mp hd
  · rintro ⟨position, rest, d, rfl, hd, hRest⟩
    obtain ⟨s, hs, hClause⟩ := Option.bind_eq_some_iff.mp hd
    refine ⟨(s, position), ?_, ?_⟩
    · rwa [List.mem_reverse, List.mk_mem_zipIdx_iff_getElem?]
    · rw [Source.placesAt_eq, hClause]
      simpa using hRest

/-- The places are those at which there is a clause. -/
theorem mem_places_iff (c : JoinClause) (place : List Nat) :
    place ∈ c.places ↔ (c.at? place).isSome = true := by
  induction c using nested_induction generalizing place with
  | h c ih =>
    cases place with
    | nil => simp [places, at?]
    | cons position rest =>
      have hInner : position :: rest ∈ c.places ↔ position :: rest ∈ c.innerPlaces := by
        simp [places]
      rw [hInner, mem_innerPlaces, at?]
      cases hClause : c.joined[position]?.bind Source.clause? with
      | none => simp [hClause]
      | some d =>
        rw [Option.bind_some, ← ih d (mem_nestedClauses_of_position hClause)]
        constructor
        · rintro ⟨_, _, d', hPlace, hd', hRest⟩
          obtain ⟨rfl, rfl⟩ := List.cons.inj hPlace
          obtain rfl := Option.some.inj (hClause.symm.trans hd')
          exact hRest
        · exact fun hRest => ⟨position, rest, d, rfl, hClause, hRest⟩

theorem head?_of_mem_placesAt {s : Source} {position : Nat} {place : List Nat}
    (h : place ∈ s.placesAt position) : place.head? = some position := by
  rw [Source.placesAt_eq, List.mem_flatMap] at h
  obtain ⟨d, -, hPlace⟩ := h
  obtain ⟨rest, -, rfl⟩ := List.mem_map.mp hPlace
  rfl

/-- A clause is taken up before those inside it, and at no place more than once. -/
theorem pairwise_places (c : JoinClause) : c.places.Pairwise fun a b => ¬ b <+: a := by
  induction c using nested_induction with
  | h c ih =>
    refine List.pairwise_cons.mpr ⟨fun place hPlace hPrefix => ?_, ?_⟩
    · obtain ⟨position, rest, d, rfl, -⟩ := mem_innerPlaces.mp hPlace
      cases List.prefix_nil.mp hPrefix
    rw [innerPlaces_eq, List.pairwise_flatMap, List.pairwise_reverse]
    constructor
    · rintro ⟨s, position⟩ hs
      rw [List.mem_reverse, List.mk_mem_zipIdx_iff_getElem?] at hs
      rw [Source.placesAt_eq]
      cases hClause : s.clause? with
      | none => exact .nil
      | some d =>
        have hd := ih d (mem_nestedClauses_of_position (by rw [hs, Option.bind_some, hClause]))
        rw [Option.toList_some, List.flatMap_singleton, List.pairwise_map]
        exact hd.imp fun hApart => by rwa [List.prefix_cons_inj]
    · have hPositions : c.joined.zipIdx.Pairwise fun x y => x.2 < y.2 := by
        rw [← List.pairwise_map (f := Prod.snd) (R := (· < ·)), List.zipIdx_map_snd]
        exact List.pairwise_lt_range' 1
      refine hPositions.imp fun hLess place hPlace other hOther hPrefix => ?_
      obtain ⟨rest, rfl⟩ := hPrefix
      have hHead := head?_of_mem_placesAt hPlace
      rw [List.head?_append, head?_of_mem_placesAt hOther, Option.some_or] at hHead
      exact absurd (Option.some.inj hHead) (Nat.ne_of_lt hLess)

/-! ## Sources by places -/

theorem flatMap_placesAt {c : JoinClause} {s : Source} {position : Nat}
    (hs : c.joined[position]? = some s) : (s.placesAt position).flatMap c.ownSourcesAt =
      s.clause?.toList.flatMap fun d => d.places.flatMap d.ownSourcesAt := by
  rw [Source.placesAt_eq, List.flatMap_assoc]
  refine List.flatMap_congr fun d hd => ?_
  rw [List.flatMap_map]
  refine List.flatMap_congr fun rest _ => ?_
  rw [ownSourcesAt, at?, hs, Option.bind_some, Option.mem_toList.mp hd, Option.bind_some,
    ownSourcesAt]

/-- The sources at the places of a clause are its own and those at the places of the clauses that it
joins, from the last to the first. -/
theorem flatMap_ownSourcesAt (c : JoinClause) :
    c.places.flatMap c.ownSourcesAt =
      c.ownSources ++ c.nestedClauses.reverse.flatMap fun d => d.places.flatMap d.ownSourcesAt := by
  have hInner : c.innerPlaces.flatMap c.ownSourcesAt = c.joined.zipIdx.reverse.flatMap fun x =>
      x.1.clause?.toList.flatMap fun d => d.places.flatMap d.ownSourcesAt := by
    rw [innerPlaces_eq, List.flatMap_assoc]
    refine List.flatMap_congr fun x hx => flatMap_placesAt ?_
    rwa [List.mem_reverse, List.mem_zipIdx_iff_getElem?] at hx
  have hJoined : c.joined.reverse = c.joined.zipIdx.reverse.map Prod.fst := by
    rw [List.map_reverse, List.zipIdx_map_fst]
  rw [places, List.flatMap_cons, hInner, nestedClauses, ← List.filterMap_reverse,
    List.filterMap_eq_flatMap_toList, List.flatMap_assoc, hJoined, List.flatMap_map]
  rfl

theorem sourcesFrom_eq (stack : List JoinClause) :
    sourcesFrom stack = stack.flatMap fun c => c.places.flatMap c.ownSourcesAt := by
  fun_induction sourcesFrom stack with
  | case1 => rfl
  | case2 clause stack ih =>
    rw [ih, List.flatMap_append, List.flatMap_cons, flatMap_ownSourcesAt, List.append_assoc]
    rfl

theorem sources_eq (c : JoinClause) : c.sources = c.places.flatMap c.ownSourcesAt := by
  rw [sources, sourcesFrom_eq, List.flatMap_singleton]

theorem clause?_of_mem_sources {c : JoinClause} {s : Source} (hs : s ∈ c.sources) :
    s.clause? = none := by
  rw [sources_eq, List.mem_flatMap] at hs
  obtain ⟨place, -, hOwn⟩ := hs
  rw [ownSourcesAt] at hOwn
  cases hClause : c.at? place with
  | none =>
    rw [hClause] at hOwn
    cases hOwn
  | some d =>
    rw [hClause] at hOwn
    exact Option.isNone_iff_eq_none.mp (List.mem_filter.mp hOwn).2

/-- **No source is lost and none repeated.** The traversal of a clause ends after one pass for each
clause. It finds the tables and queries that the clause holds at any depth, in another order, and no
clauses. It takes up every clause once, each before those inside it, and finds the sources that a
clause joins itself one behind the other and from left to right. -/
theorem sources_lossless (c : JoinClause) :
    pass^[c.clauseCount] ([c], []) = ([], c.sources) ∧
      c.sources.Perm c.leaves ∧ (∀ s ∈ c.sources, s.clause? = none) ∧
      ∃ order : List (List Nat), (∀ place, place ∈ order ↔ (c.at? place).isSome = true) ∧
        (order.Pairwise fun a b => ¬ b <+: a) ∧ c.sources = order.flatMap c.ownSourcesAt := by
  have hPasses : pass^[c.clauseCount] ([c], []) = ([], c.sources) := iterate_pass [c] []
  exact ⟨hPasses, c.sources_perm, fun s hs => clause?_of_mem_sources hs,
    c.places, c.mem_places_iff, c.pairwise_places, c.sources_eq⟩

end JoinClause

end SqlKit
