import SqlKit.Proofs.Query.Leaves
import SqlKit.Query.TableQuery

/-!
# How conditions are grouped

The conditions of a query come from predicates on one column each, that callers join by
`Predicate.and` as they like and hand over in as many calls of `TableQuery.filter` as they like.
`Predicate.Joins` and `TableQuery.Narrowed` say which predicates those are, from left to right, and
nothing of how they are grouped.

Both ways to group leave no trace: a predicate that was joined is the list of its parts
(`Predicate.Joins.parts_eq`), a query the list of its conditions
(`TableQuery.Narrowed.conditions_eq`), and what the query turns into depends on that list only
(`TableQuery.project_of_conditions`).
-/

namespace SqlKit

namespace Predicate

/-- The column that a predicate on one column asks about. -/
def column? : Predicate → Option String
  | equal column _ _ | oneOf column _ | like column _ => some column
  | all _ => none

/-- When a table has the column that a predicate asks about, by its property or by its physical
name. -/
def Resolves (t : Table) (p : Predicate) : Prop :=
  ∀ name ∈ p.column?, ((t.property? name).or (t.column? name)).isSome = true

/-- These predicates, on one column each, were joined to a predicate in this order. -/
inductive Joins : List Predicate → Predicate → Prop
  | leaf {p : Predicate} (h : p.column?.isSome = true) : Joins [p] p
  | and {ps qs : List Predicate} {p q : Predicate} (hp : Joins ps p) (hq : Joins qs q) :
      Joins (ps ++ qs) (p.and q)

theorem Joins.parts_eq {ps : List Predicate} {p : Predicate} (h : Joins ps p) : p.parts = ps := by
  induction h with
  | @leaf p h =>
    cases p with
    | all => cases h
    | equal | oneOf | like => rfl
  | and _ _ ihp ihq => exact congrArg₂ (· ++ ·) ihp ihq

theorem Joins.isSome_column? {ps : List Predicate} {p : Predicate} (h : Joins ps p) :
    ∀ q ∈ ps, q.column?.isSome = true := by
  induction h with
  | leaf h => simpa using h
  | and _ _ ihp ihq => exact List.forall_mem_append.mpr ⟨ihp, ihq⟩

section Binding

variable {t : Table}

/-- The SQL of a predicate is the conjunction of the SQL of its parts. -/
theorem bind_eq_bindAll_parts (t : Table) (p : Predicate) :
    p.bind t = (bindAll t p.parts).map .conjunction := by
  cases p with
  | all ps => rw [bind, parts]
  | equal | oneOf | like =>
    simp only [parts, bindAll]
    cases bind t _ with
    | error e => rfl
    | ok b => exact congrArg Except.ok (BoundSql.conjunction_singleton b).symm

/-- Several predicates have SQL just if each of them has. -/
theorem bindAll_eq_ok_iff {ps : List Predicate} {bs : List BoundSql} :
    bindAll t ps = .ok bs ↔ List.Forall₂ (fun p b => p.bind t = .ok b) ps bs := by
  induction ps generalizing bs with
  | nil =>
    rw [bindAll, List.forall₂_nil_left_iff, Except.ok.injEq]
    exact eq_comm
  | cons p ps ih =>
    constructor
    · intro h
      obtain ⟨b, cs, hFirst, hRest, rfl⟩ := bindAll_cons h
      exact .cons hFirst (ih.mp hRest)
    · rintro (_ | ⟨hFirst, hRest⟩)
      rw [bindAll, hFirst, ih.mpr hRest]
      rfl

/-- The first predicate that has no SQL is the error. -/
theorem bindAll_of_error {front behind : List Predicate} {p : Predicate} {e : QueryError}
    (hFront : ∀ q ∈ front, ∃ b, q.bind t = .ok b) (h : p.bind t = .error e) :
    bindAll t (front ++ p :: behind) = .error e := by
  induction front with
  | nil =>
    rw [List.nil_append, bindAll, h]
    rfl
  | cons q front ih =>
    obtain ⟨⟨b, hFirst⟩, hRest⟩ := List.forall_mem_cons.mp hFront
    rw [List.cons_append, bindAll, hFirst, ih hRest]
    rfl

theorem exists_bindAll_iff {ps : List Predicate} :
    (∃ bs, bindAll t ps = .ok bs) ↔ ∀ p ∈ ps, ∃ b, p.bind t = .ok b := by
  induction ps with
  | nil => exact ⟨fun _ => by simp, fun _ => ⟨[], rfl⟩⟩
  | cons p ps ih =>
    rw [List.forall_mem_cons, ← ih]
    constructor
    · rintro ⟨_, h⟩
      obtain ⟨b, bs, hFirst, hRest, -⟩ := bindAll_cons h
      exact ⟨⟨b, hFirst⟩, bs, hRest⟩
    · rintro ⟨⟨b, hFirst⟩, bs, hRest⟩
      refine ⟨b :: bs, ?_⟩
      rw [bindAll, hFirst, hRest]
      rfl

/-- A predicate on one column makes something of that column. -/
theorem exists_bind_eq_map {p : Predicate} {name : String} (h : p.column? = some name) :
    ∃ f : Column → BoundSql, p.bind t = (t.resolve name).map f := by
  cases p with
  | all => cases h
  | equal | oneOf | like =>
    obtain rfl := Option.some.inj h
    exact ⟨_, by rw [bind]⟩

theorem bind_of_not_resolves {p : Predicate} {name : String} (h : p.column? = some name)
    (hUnknown : ¬ p.Resolves t) : p.bind t = .error (.unknownColumn t.name name) := by
  obtain ⟨f, hBind⟩ := exists_bind_eq_map (t := t) h
  have hNone : (t.property? name).or (t.column? name) = none := by
    simpa [Resolves, h] using hUnknown
  rw [hBind, Table.resolve, hNone]
  rfl

/-- A predicate on one column has SQL just if the table has the column. -/
theorem exists_bind_iff {p : Predicate} (h : p.column?.isSome = true) :
    (∃ b, p.bind t = .ok b) ↔ p.Resolves t := by
  obtain ⟨name, hName⟩ := Option.isSome_iff_exists.mp h
  obtain ⟨f, hBind⟩ := exists_bind_eq_map (t := t) hName
  constructor
  · rintro ⟨b, hb⟩
    by_contra hUnknown
    rw [bind_of_not_resolves hName hUnknown] at hb
    cases hb
  · intro hResolves
    obtain ⟨c, hColumn⟩ := Option.isSome_iff_exists.mp (hResolves name hName)
    refine ⟨f c, ?_⟩
    rw [hBind, Table.resolve, hColumn]
    rfl

end Binding

end Predicate

namespace TableQuery

/-- The conditions of a query, of which each is to hold. -/
def conditions (q : TableQuery) : List Predicate := q.predicate.elim [] Predicate.parts

theorem conditions_filter (q : TableQuery) (p : Predicate) :
    (q.filter p).conditions = q.conditions ++ p.parts := by
  unfold filter conditions
  cases q.predicate <;> rfl

/-- A query with conditions is the query for the rows for which each of them holds. -/
theorem project_of_conditions {q : TableQuery} (h : q.conditions ≠ []) (projection : String) :
    q.project projection = (Predicate.bindAll q.table q.conditions).map fun bs =>
      ⟨"SELECT " ++ projection ++ " FROM " ++ q.table.qualifiedName ++ " WHERE " ++
        " AND ".intercalate (bs.map (·.sql)), bs.flatMap (·.arguments)⟩ := by
  cases hPredicate : q.predicate with
  | none => exact absurd (by rw [conditions, hPredicate]; rfl) h
  | some p =>
    have hParts : q.conditions = p.parts := by
      rw [conditions, hPredicate]
      rfl
    rw [project, hPredicate, hParts]
    dsimp only
    rw [p.bind_eq_bindAll_parts]
    cases hBound : Predicate.bindAll q.table p.parts with
    | error e => rfl
    | ok bs =>
      have hBounds : bs ≠ [] := by
        rintro rfl
        rw [hParts] at h
        exact h (List.forall₂_nil_right_iff.mp (Predicate.bindAll_eq_ok_iff.mp hBound))
      have hIsEmpty : bs.isEmpty = false := by simpa using hBounds
      simp [Except.map, BoundSql.conjunction, hIsEmpty]

/-- A query over the rows of a table that was narrowed call by call. Each call joins the next of
these predicates as it likes, or takes a single one. -/
inductive Narrowed (t : Table) : List Predicate → TableQuery → Prop
  | all : Narrowed t [] (.all t)
  | filter {ps qs : List Predicate} {q : TableQuery} {p : Predicate} (hq : Narrowed t ps q)
      (hp : Predicate.Joins qs p) : Narrowed t (ps ++ qs) (q.filter p)

namespace Narrowed

variable {t : Table} {ps : List Predicate} {q : TableQuery}

theorem table_eq (h : Narrowed t ps q) : q.table = t := by
  induction h with
  | all => rfl
  | filter _ _ ih => exact ih

theorem conditions_eq (h : Narrowed t ps q) : q.conditions = ps := by
  induction h with
  | all => rfl
  | filter _ hp ih => rw [conditions_filter, ih, hp.parts_eq]

theorem isSome_column? (h : Narrowed t ps q) : ∀ p ∈ ps, p.column?.isSome = true := by
  induction h with
  | all => simp
  | filter _ hp ih => exact List.forall_mem_append.mpr ⟨ih, hp.isSome_column?⟩

/-- What a query turns into depends on the list of its conditions only. -/
theorem project_eq (h : Narrowed t ps q) (hSome : ps ≠ []) (projection : String) :
    q.project projection = (Predicate.bindAll t ps).map fun bs =>
      ⟨"SELECT " ++ projection ++ " FROM " ++ t.qualifiedName ++ " WHERE " ++
        " AND ".intercalate (bs.map (·.sql)), bs.flatMap (·.arguments)⟩ := by
  obtain rfl := h.table_eq
  obtain rfl := h.conditions_eq
  exact project_of_conditions hSome projection

/-- The conditions of a query have SQL just if the table has each of their columns. -/
theorem exists_bindAll_iff (h : Narrowed t ps q) :
    (∃ bs, Predicate.bindAll t ps = .ok bs) ↔ ∀ p ∈ ps, p.Resolves t := by
  rw [Predicate.exists_bindAll_iff]
  exact forall₂_congr fun p hp => Predicate.exists_bind_iff (h.isSome_column? p hp)

end Narrowed

/-- **How conditions are grouped makes no difference.** A query that is narrowed by some predicates
on one column each, at least one, can be turned into SQL just if the table has each of their
columns. Its text has then the text of each predicate behind `WHERE`, with `AND` between them, and
its arguments are their arguments one behind the other. Otherwise the error is about the first
column that the table does not have. -/
theorem selectRows_narrowed {t : Table} {ps : List Predicate} {q : TableQuery}
    (h : Narrowed t ps q) (hSome : ps ≠ []) :
    ((∃ b, q.selectRows = .ok b) ↔ ∀ p ∈ ps, p.Resolves t) ∧
    ((∀ p ∈ ps, p.Resolves t) → ∃ bs, List.Forall₂ (fun p b => p.bind t = .ok b) ps bs ∧
      q.selectRows = .ok ⟨"SELECT * FROM " ++ t.qualifiedName ++ " WHERE " ++
        " AND ".intercalate (bs.map (·.sql)), bs.flatMap (·.arguments)⟩) ∧
    ∀ (front behind : List Predicate) (p : Predicate) (name : String),
      ps = front ++ p :: behind → (∀ l ∈ front, l.Resolves t) → p.column? = some name →
      ¬ p.Resolves t → q.selectRows = .error (.unknownColumn t.name name) := by
  have hRows := h.project_eq hSome "*"
  refine ⟨?_, fun hAll => ?_, ?_⟩
  · rw [← h.exists_bindAll_iff, selectRows, hRows]
    cases Predicate.bindAll t ps with
    | error e => simp [Except.map]
    | ok bs => simp [Except.map]
  · obtain ⟨bs, hBound⟩ := h.exists_bindAll_iff.mpr hAll
    refine ⟨bs, Predicate.bindAll_eq_ok_iff.mp hBound, ?_⟩
    rw [selectRows, hRows, hBound]
    rfl
  · rintro front behind p name rfl hFront hName hUnknown
    have hBound : ∀ l ∈ front, ∃ b, l.bind t = .ok b := fun l hl =>
      (Predicate.exists_bind_iff (h.isSome_column? l (List.mem_append_left _ hl))).mpr (hFront l hl)
    rw [selectRows, hRows,
      Predicate.bindAll_of_error hBound (Predicate.bind_of_not_resolves hName hUnknown)]
    rfl

/-- A table whose columns have other properties than names. -/
def sampleProperties : Table where
  name := "t"
  schema := some "main"
  columns := [⟨"p", "a", "INT", true, false, false, false⟩,
    ⟨"q", "b", "TEXT", true, false, false, false⟩]
  primaryKey := []
  uniqueKeys := []
  foreignKeys := []

/-- A query over it that is narrowed by a predicate and then by some that are grouped to the
right. -/
theorem selectRows_narrowed_sampleProperties :
    let front : List Predicate := [.equal "p" false .null, .oneOf "b" []]
    let narrowedBy (p : Predicate) : TableQuery :=
      ((all sampleProperties).filter (.equal "p" false .null)).filter
        ((Predicate.oneOf "b" []).and (p.and (.equal "a" true (.integer 1))))
    let ps : List Predicate := front ++ [.like "q" (.text "x"), .equal "a" true (.integer 1)]
    Narrowed sampleProperties ps (narrowedBy (.like "q" (.text "x"))) ∧ ps ≠ [] ∧
    (narrowedBy (.like "q" (.text "x"))).selectRows =
      .ok ⟨"SELECT * FROM main.t WHERE a IS NULL AND 1=0 AND b LIKE ? AND a<>?",
        [.text "x", .integer 1]⟩ ∧
    (narrowedBy (.like "r" (.text "x"))).selectRows = .error (.unknownColumn "t" "r") := by
  intro front narrowedBy ps
  have hNarrowed : ∀ pattern : String, Narrowed sampleProperties
      (front ++ [.like pattern (.text "x"), .equal "a" true (.integer 1)])
      (narrowedBy (.like pattern (.text "x"))) := fun pattern =>
    (Narrowed.all.filter (.leaf rfl)).filter (.and (.leaf rfl) (.and (.leaf rfl) (.leaf rfl)))
  have hResolves : ∀ name ∈ ["p", "b", "q", "a"],
      ((sampleProperties.property? name).or (sampleProperties.column? name)).isSome = true := by
    decide +kernel
  have hUnknown :
      ((sampleProperties.property? "r").or (sampleProperties.column? "r")).isSome = false := by
    decide +kernel
  refine ⟨hNarrowed "q", List.cons_ne_nil _ _, ?_, ?_⟩
  · obtain ⟨-, hOk, -⟩ := selectRows_narrowed (hNarrowed "q") (List.cons_ne_nil _ _)
    have hAll : ∀ p ∈ ps, p.Resolves sampleProperties := by
      simpa [ps, front, Predicate.Resolves, Predicate.column?] using hResolves
    obtain ⟨bs, hBound, hRows⟩ := hOk hAll
    have hText : Predicate.bindAll sampleProperties ps =
        .ok [⟨"a IS NULL", []⟩, ⟨"1=0", []⟩, ⟨"b LIKE ?", [.text "x"]⟩,
        ⟨"a<>?", [.integer 1]⟩] := by
      decide +kernel
    obtain rfl := Except.ok.inj (hText.symm.trans (Predicate.bindAll_eq_ok_iff.mpr hBound))
    rw [hRows]
    decide +kernel
  · obtain ⟨-, -, hError⟩ := selectRows_narrowed (hNarrowed "r") (List.cons_ne_nil _ _)
    refine hError front [.equal "a" true (.integer 1)] (.like "r" (.text "x")) "r" rfl ?_ rfl ?_
    · simpa [front, Predicate.Resolves, Predicate.column?] using
        fun name hName => hResolves name (List.mem_of_mem_take (i := 2) hName)
    · simpa [Predicate.Resolves, Predicate.column?] using hUnknown

end TableQuery

end SqlKit
