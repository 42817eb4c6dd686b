import SqlKit.Proofs.Query.Rows
import SqlKit.Proofs.Schema.Names

/-!
# The leaves of a predicate

The parts of a predicate that are no conjunctions, from left to right; a conjunction of nothing is a
part of its own. The SQL of a predicate is the conjunction of the SQL of its leaves
(`Predicate.bind_leaves`): how conjunctions are nested does not show in the text.
-/

namespace SqlKit

namespace BoundSql

@[simp] theorem conjunction_singleton (b : BoundSql) : conjunction [b] = b := by
  simp [conjunction]

/-- A conjunction with `AND` in front of it is its conditions with `AND` in front of them. -/
theorem and_conjunction {bs : List BoundSql} (h : bs ≠ []) :
    " AND ".toList ++ (conjunction bs).sql.toList =
      bs.flatMap fun b => " AND ".toList ++ b.sql.toList := by
  obtain ⟨b, bs, rfl⟩ := List.exists_cons_of_ne_nil h
  rw [toList_conjunction, List.flatMap_cons, List.append_assoc]

theorem arguments_conjunction (bs : List BoundSql) :
    (conjunction bs).arguments = bs.flatMap (·.arguments) := by
  cases bs <;> rfl

/-- A conjunction of conjunctions is the conjunction of all their conditions. -/
theorem conjunction_flatten {groups : List (List BoundSql)} (h : ∀ bs ∈ groups, bs ≠ []) :
    conjunction (groups.map conjunction) = conjunction groups.flatten := by
  have hArguments : (conjunction (groups.map conjunction)).arguments =
      (conjunction groups.flatten).arguments := by
    rw [arguments_conjunction, arguments_conjunction, List.flatMap_map, List.flatten_eq_flatMap,
      List.flatMap_assoc]
    exact List.flatMap_congr fun bs _ => arguments_conjunction bs
  have hText : (conjunction (groups.map conjunction)).sql = (conjunction groups.flatten).sql := by
    cases groups with
    | nil => rfl
    | cons bs groups =>
      obtain ⟨hFirst, hRest⟩ := List.forall_mem_cons.mp h
      obtain ⟨b, bs, rfl⟩ := List.exists_cons_of_ne_nil hFirst
      have hBehind : (groups.map conjunction).flatMap (fun b => " AND ".toList ++ b.sql.toList) =
          groups.flatten.flatMap fun b => " AND ".toList ++ b.sql.toList := by
        rw [List.flatMap_map, List.flatten_eq_flatMap, List.flatMap_assoc]
        exact List.flatMap_congr fun bs hbs => and_conjunction (hRest bs hbs)
      rw [← String.toList_inj, List.map_cons, toList_conjunction, toList_conjunction, hBehind,
        List.flatten_cons, List.cons_append, toList_conjunction, List.flatMap_append,
        List.append_assoc]
  exact congrArg₂ BoundSql.mk hText hArguments

end BoundSql

/-- A column that was found for a caller. -/
theorem Table.Named.of_resolve {t : Table} (ht : t.Named) {name : String} {b : BoundSql}
    {f : Column → BoundSql} (h : (t.resolve name).map f = .ok b) :
    ∃ c, t.resolve name = .ok c ∧ b = f c ∧ IsName c.name := by
  cases hFound : t.resolve name with
  | error e => simp [hFound, Except.map] at h
  | ok c =>
    rw [hFound] at h
    refine ⟨c, rfl, (Except.ok.inj h).symm, ht.columns c ?_⟩
    unfold Table.resolve at hFound
    split at hFound
    · next column hColumn =>
      obtain rfl := Except.ok.inj hFound
      rcases Option.or_eq_some_iff.mp hColumn with hSome | ⟨-, hSome⟩ <;>
        exact List.mem_of_find?_eq_some hSome
    · cases hFound

namespace Predicate

mutual

/-- The parts of a predicate that are no conjunctions of something, from left to right. -/
def leaves : Predicate → List Predicate
  | all parts => if parts.isEmpty then [all []] else leavesAll parts
  | equal column negated value => [equal column negated value]
  | oneOf column values => [oneOf column values]
  | like column pattern => [like column pattern]

/-- The leaves of several predicates. -/
def leavesAll : List Predicate → List Predicate
  | [] => []
  | p :: rest => p.leaves ++ leavesAll rest

end

/-- A predicate that is no conjunction of something. -/
def IsLeaf : Predicate → Prop
  | all parts => parts = []
  | _ => True

mutual

theorem isLeaf_of_mem_leaves : ∀ (p : Predicate), ∀ q ∈ p.leaves, q.IsLeaf
  | equal .., q, hq | oneOf .., q, hq | like .., q, hq => by
    rw [leaves, List.mem_singleton] at hq
    subst hq
    trivial
  | all parts, q, hq => by
    rw [leaves] at hq
    split at hq
    · rw [List.mem_singleton.mp hq]
      rfl
    · exact isLeaf_of_mem_leavesAll parts q hq

theorem isLeaf_of_mem_leavesAll : ∀ (ps : List Predicate), ∀ q ∈ leavesAll ps, q.IsLeaf
  | [], _, hq => nomatch hq
  | p :: rest, q, hq => by
    rw [leavesAll] at hq
    exact (List.mem_append.mp hq).elim (isLeaf_of_mem_leaves p q) (isLeaf_of_mem_leavesAll rest q)

end

section Binding

variable {t : Table}

/-- What binds several predicates binds the first of them and the others. -/
theorem bindAll_cons {p : Predicate} {ps : List Predicate} {bs : List BoundSql}
    (h : bindAll t (p :: ps) = .ok bs) :
    ∃ b cs, p.bind t = .ok b ∧ bindAll t ps = .ok cs ∧ bs = b :: cs := by
  rw [bindAll] at h
  cases hFirst : p.bind t with
  | error e => simp [hFirst, Bind.bind, Except.bind] at h
  | ok b =>
    cases hRest : bindAll t ps with
    | error e => simp [hFirst, hRest, Bind.bind, Except.bind] at h
    | ok cs =>
      rw [hFirst, hRest] at h
      exact ⟨b, cs, rfl, rfl, (Except.ok.inj h).symm⟩

theorem bindAll_append {ps qs : List Predicate} {bs cs : List BoundSql}
    (h : bindAll t ps = .ok bs) (h' : bindAll t qs = .ok cs) :
    bindAll t (ps ++ qs) = .ok (bs ++ cs) := by
  induction ps generalizing bs with
  | nil =>
    obtain rfl := Except.ok.inj h
    exact h'
  | cons p ps ih =>
    obtain ⟨b, bs, hFirst, hRest, rfl⟩ := bindAll_cons h
    rw [List.cons_append, bindAll, hFirst, ih hRest]
    rfl

theorem bindAll_singleton {p : Predicate} {b : BoundSql} (h : p.bind t = .ok b) :
    bindAll t [p] = .ok [b] := by
  rw [bindAll, h]
  rfl

mutual

/-- **The SQL of a predicate is the conjunction of the SQL of its leaves.** -/
theorem bind_leaves : ∀ (p : Predicate) (b : BoundSql), p.bind t = .ok b →
    ∃ bs, bindAll t p.leaves = .ok bs ∧ bs ≠ [] ∧ b = .conjunction bs
  | equal .., b, h | oneOf .., b, h | like .., b, h =>
    ⟨[b], bindAll_singleton h, List.cons_ne_nil _ _, by simp⟩
  | all parts, b, h => by
    rw [bind] at h
    cases hParts : bindAll t parts with
    | error e => simp [hParts, Except.map] at h
    | ok bs =>
      rw [hParts] at h
      obtain rfl := Except.ok.inj h
      obtain ⟨groups, hLeaves, hSome, rfl⟩ := bindAll_leaves parts bs hParts
      cases parts with
      | nil =>
        refine ⟨[.conjunction []], rfl, List.cons_ne_nil _ _, ?_⟩
        obtain rfl := List.map_eq_nil_iff.mp (Except.ok.inj hParts).symm
        simp
      | cons p parts =>
        obtain ⟨c, cs, -, -, hGroups⟩ := bindAll_cons hParts
        refine ⟨groups.flatten, hLeaves, ?_, BoundSql.conjunction_flatten hSome⟩
        cases groups with
        | nil => cases hGroups
        | cons bs groups =>
          exact fun hNil => (List.forall_mem_cons.mp hSome).1 (List.append_eq_nil_iff.mp hNil).1

theorem bindAll_leaves : ∀ (ps : List Predicate) (bs : List BoundSql), bindAll t ps = .ok bs →
    ∃ groups : List (List BoundSql), bindAll t (leavesAll ps) = .ok groups.flatten ∧
      (∀ bs ∈ groups, bs ≠ []) ∧ bs = groups.map .conjunction
  | [], bs, h => ⟨[], rfl, by simp, (Except.ok.inj h).symm⟩
  | p :: ps, bs, h => by
    obtain ⟨b, bs, hFirst, hRest, rfl⟩ := bindAll_cons h
    obtain ⟨cs, hLeaves, hSome, rfl⟩ := bind_leaves p b hFirst
    obtain ⟨groups, hLeaves', hSome', rfl⟩ := bindAll_leaves ps bs hRest
    refine ⟨cs :: groups, bindAll_append hLeaves hLeaves', ?_, rfl⟩
    exact List.forall_mem_cons.mpr ⟨hSome, hSome'⟩

end

end Binding

end Predicate

end SqlKit
