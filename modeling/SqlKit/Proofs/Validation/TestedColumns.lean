import SqlKit.Batch
import SqlKit.Proofs.Query.Grouping
import SqlKit.Proofs.Schema.Runs
import SqlKit.Proofs.Validation.Uniqueness

/-!
# Columns that a uniqueness check tests

A uniqueness check is asked about a physical column and speaks to its table of properties: the
column is looked up by its name, and its property is what the query is put under. When the query is
bound, the property is looked up again, and the first column of that property is meant, whatever its
name is.

The way there and back leads to the column itself unless a column of another name is reached by its
property first (`Table.Reaches`), as it is in no table whose properties differ.
`Uniqueness.tests_named_iff` says that a query tests the column in question exactly in this case,
and the same of the column by which it sets the row of the record apart. Properties can be given to
a table with which it is not so.
-/

namespace SqlKit

open Text

/-! ## Reached by property -/

/-- The property of a column leads to a column of its name. -/
def Table.Reaches (t : Table) (c : Column) : Prop := ∀ d ∈ t.property? c.property, d.name = c.name

namespace Table

variable {t : Table} {c : Column}

instance (t : Table) (c : Column) : Decidable (t.Reaches c) :=
  inferInstanceAs (Decidable (∀ d ∈ t.property? c.property, d.name = c.name))

theorem exists_property? (hc : c ∈ t.columns) : ∃ d, t.property? c.property = some d :=
  Option.isSome_iff_exists.mp (List.find?_isSome.mpr ⟨c, hc, sameName_refl _⟩)

/-- Where no two columns share a property, each is reached by its own. -/
theorem reaches_of_distinct
    (hProperties : t.columns.Pairwise fun a b => sameName a.property b.property = false)
    (hc : c ∈ t.columns) : t.Reaches c := by
  intro d hd
  have hFirst := resolve_property hProperties hc
  rw [resolve, Option.mem_def.mp hd, Option.some_or] at hFirst
  exact congrArg Column.name (Except.ok.inj hFirst)

end Table

/-- Columns are tested alike if they have one name. -/
theorem BoundSql.equality_eq_iff {c d : Column} {negated : Bool} {value : Value} :
    equality c negated value = equality d negated value ↔ c.name = d.name := by
  unfold equality
  split <;> simp [String.append_left_inj]

/-! ## Conditions of the query -/

namespace Uniqueness

variable {u : Uniqueness} {column : String} {m : Column} {value : Value} {record : Record}

/-- The row of a record is set apart by a key of one column. -/
theorem exists_key {p : Predicate} (h : u.exclusion? column record = some p) :
    ∃ key, u.table.primaryKey = [key] ∧ p = .equal (u.reference key) true (record.get key) := by
  unfold exclusion? at h
  split at h
  · next key hKey =>
    split at h
    · cases h
    · exact ⟨key, hKey, (Option.some.inj h).symm⟩
  · cases h

theorem conditions_query (u : Uniqueness) (column : String) (value : Value) (record : Record) :
    (u.query column value record).conditions =
      .equal (u.reference column) false value :: (u.exclusion? column record).toList := by
  rw [query]
  cases hOwn : u.exclusion? column record with
  | none => rfl
  | some p =>
    obtain ⟨key, -, rfl⟩ := exists_key hOwn
    rfl

/-- A condition under the property of a column is bound. It tests that column exactly if it is
reached. -/
theorem exists_bind_reference (hm : u.table.column? column = some m) (negated : Bool)
    (value : Value) :
    ∃ b, (Predicate.equal (u.reference column) negated value).bind u.table = .ok b ∧
      (b = .equality m negated value ↔ u.table.Reaches m) := by
  obtain ⟨d, hd⟩ := Table.exists_property? (List.mem_of_find?_eq_some hm)
  have hResolved : u.table.resolve (u.reference column) = .ok d := by
    rw [reference, hm]
    dsimp only
    rw [Table.resolve, hd, Option.some_or]
  refine ⟨.equality d negated value, by rw [Predicate.bind, hResolved, Except.map], ?_⟩
  rw [BoundSql.equality_eq_iff, Table.Reaches, hd]
  simp

theorem bind_reference_iff {negated : Bool} {b : BoundSql} (hm : u.table.column? column = some m)
    (hBound : (Predicate.equal (u.reference column) negated value).bind u.table = .ok b) :
    b = .equality m negated value ↔ u.table.Reaches m := by
  obtain ⟨d, hd, hTests⟩ := exists_bind_reference hm negated value
  obtain rfl := Except.ok.inj (hd.symm.trans hBound)
  exact hTests

/-- The query counts the rows on which its conditions hold. -/
theorem selectCount_eq (u : Uniqueness) (column : String) (value : Value) (record : Record) :
    (u.query column value record).selectCount =
      (Predicate.bindAll u.table (u.query column value record).conditions).map fun bs =>
        ⟨"SELECT COUNT(*) FROM " ++ u.table.qualifiedName ++ " WHERE " ++
          " AND ".intercalate (bs.map (·.sql)), bs.flatMap (·.arguments)⟩ := by
  have hTable : (u.query column value record).table = u.table := by
    unfold query
    split <;> rfl
  have hSome : (u.query column value record).conditions ≠ [] := by
    rw [conditions_query]
    exact List.cons_ne_nil _ _
  rw [TableQuery.selectCount, TableQuery.project_of_conditions hSome, hTable]
  rfl

/-- The query is bound if there is a column for the primary key. -/
theorem exists_bindAll_conditions (hm : u.table.column? column = some m)
    (hKeys : ∀ key, u.table.primaryKey = [key] → ∃ k, u.table.column? key = some k)
    (value : Value) (record : Record) :
    ∃ bs, Predicate.bindAll u.table (u.query column value record).conditions = .ok bs := by
  rw [conditions_query, Predicate.exists_bindAll_iff, List.forall_mem_cons]
  refine ⟨?_, fun p hp => ?_⟩
  · obtain ⟨b, hBound, -⟩ := exists_bind_reference hm false value
    exact ⟨b, hBound⟩
  · obtain ⟨key, hKey, rfl⟩ := exists_key (Option.mem_toList.mp hp)
    obtain ⟨k, hk⟩ := hKeys key hKey
    obtain ⟨b, hBound, -⟩ := exists_bind_reference hk true (record.get key)
    exact ⟨b, hBound⟩

/-- **A check asks about the column it is attached to, as far as properties tell.** There is a query
if there is a column for the primary key, and the query counts the rows on which some conditions
hold. The first of them tests the column in question exactly if this is reached by its property, and
a second one tests the column of the primary key exactly if there is one and it is reached by its
property. -/
theorem tests_named_iff (hm : u.table.column? column = some m) (value : Value) (record : Record) :
    ((∀ key, u.table.primaryKey = [key] → ∃ k, u.table.column? key = some k) →
      ∃ b, (u.query column value record).selectCount = .ok b) ∧
    ∀ b, (u.query column value record).selectCount = .ok b →
      ∃ bs, Predicate.bindAll u.table (u.query column value record).conditions = .ok bs ∧
        b = ⟨"SELECT COUNT(*) FROM " ++ u.table.qualifiedName ++ " WHERE " ++
          " AND ".intercalate (bs.map (·.sql)), bs.flatMap (·.arguments)⟩ ∧
        (bs.head? = some (.equality m false value) ↔ u.table.Reaches m) ∧
        ∀ own ∈ bs[1]?, ∃ key, u.table.primaryKey = [key] ∧
          ((∃ k, u.table.column? key = some k ∧ own = .equality k true (record.get key)) ↔
            ∃ k, u.table.column? key = some k ∧ u.table.Reaches k) := by
  rw [selectCount_eq]
  refine ⟨fun hKeys => ?_, fun b hQuery => ?_⟩
  · obtain ⟨bs, hBound⟩ := exists_bindAll_conditions hm hKeys value record
    exact ⟨_, by rw [hBound, Except.map]⟩
  cases hBound : Predicate.bindAll u.table (u.query column value record).conditions with
  | error e =>
    rw [hBound] at hQuery
    cases hQuery
  | ok bs =>
    rw [hBound] at hQuery
    obtain rfl := Except.ok.inj hQuery
    rw [conditions_query] at hBound
    obtain ⟨first, rest, hFirst, hRest, rfl⟩ := Predicate.bindAll_cons hBound
    refine ⟨_, rfl, rfl, ?_, ?_⟩
    · rw [List.head?_cons, Option.some.injEq]
      exact bind_reference_iff hm hFirst
    · cases hOwn : u.exclusion? column record with
      | none =>
        rw [hOwn] at hRest
        obtain rfl := Except.ok.inj hRest
        simp
      | some p =>
        obtain ⟨key, hKey, rfl⟩ := exists_key hOwn
        rw [hOwn] at hRest
        obtain ⟨second, others, hSecond, hOthers, rfl⟩ := Predicate.bindAll_cons hRest
        intro own hMem
        obtain rfl : second = own := by simpa using hMem
        exact ⟨key, hKey,
          exists_congr fun k => and_congr_right fun hk => bind_reference_iff hk hSecond⟩

/-- Each of two columns has the name of the other one for a property, and the query tests the column
in question by its name. -/
theorem tests_named_iff_sampleCrossing :
    let u : Uniqueness := ⟨sampleCrossing, "taken"⟩
    let q := u.query "b" (.text "x") (.ofValues [("a", .integer 1)])
    let m : Column := ⟨"a", "b", "TEXT", true, false, false, false⟩
    sampleCrossing.column? "b" = some m ∧
    q.selectCount = .ok ⟨"SELECT COUNT(*) FROM t WHERE b=? AND a<>?", [.text "x", .integer 1]⟩ ∧
    ∃ bs, Predicate.bindAll sampleCrossing q.conditions = .ok bs ∧
      bs.head? = some (.equality m false (.text "x")) := by
  intro u q m
  have hColumn : sampleCrossing.column? "b" = some m := by decide +kernel
  have hQuery : q.selectCount =
      .ok ⟨"SELECT COUNT(*) FROM t WHERE b=? AND a<>?", [.text "x", .integer 1]⟩ := by
    decide +kernel
  have hProperties :
      sampleCrossing.columns.Pairwise fun a b => sameName a.property b.property = false := by
    decide +kernel
  obtain ⟨bs, hBound, -, hFirst, -⟩ :=
    (tests_named_iff hColumn (.text "x") (.ofValues [("a", .integer 1)])).2 _ hQuery
  exact ⟨hColumn, hQuery, bs, hBound,
    hFirst.mpr (Table.reaches_of_distinct hProperties (List.mem_of_find?_eq_some hColumn))⟩

/-- A table with two columns of one property. -/
def sampleShared : Table where
  name := "t"
  schema := none
  columns :=
    [⟨"b", "a", "TEXT", true, false, false, false⟩, ⟨"b", "b", "TEXT", true, false, false, false⟩]
  primaryKey := []
  uniqueKeys := []
  foreignKeys := []

/-- A column is given the name of another one for a property, and the query for that other one tests
the column in front of it. -/
theorem not_tests_sampleShared :
    let u : Uniqueness := ⟨sampleShared, "taken"⟩
    let q := u.query "b" (.text "x") .empty
    let m : Column := ⟨"b", "b", "TEXT", true, false, false, false⟩
    (∃ s : Schema, s.Reachable ∧ s.tables = [sampleShared]) ∧ sampleShared.column? "b" = some m ∧
    q.selectCount = .ok ⟨"SELECT COUNT(*) FROM t WHERE a=?", [.text "x"]⟩ ∧
    ¬ ∃ bs, Predicate.bindAll sampleShared q.conditions = .ok bs ∧
      bs.head? = some (.equality m false (.text "x")) := by
  intro u q m
  have hBound : Predicate.bindAll sampleShared q.conditions = .ok [⟨"a=?", [.text "x"]⟩] := by
    decide +kernel
  have hOther : some ⟨"a=?", [.text "x"]⟩ ≠ some (BoundSql.equality m false (.text "x")) := by
    decide +kernel
  have hMade : ((Schema.ofStatements (parse .standard "CREATE TABLE t (a TEXT, b TEXT)").statements
      ).updateTable "t" (·.mapProperty "a" "b")).tables = [sampleShared] := by
    decide +kernel
  refine ⟨⟨_, .mapProperty (.applyAll .empty _) "t" "a" "b", hMade⟩, by decide +kernel,
    by decide +kernel, ?_⟩
  rintro ⟨bs, hOther', hFirst⟩
  obtain rfl := Except.ok.inj (hBound.symm.trans hOther')
  exact hOther hFirst

end Uniqueness

end SqlKit
