import Mathlib.Data.List.Sections
import Mathlib.Data.List.Sublists
import SqlKit.Validation.Validator

/-!
# Uniqueness in a table

Whether another row has a value is asked of a database, by a query that compares columns with
values. What the database makes of such a query is an assumption here, `CountsRows`: it answers with
the number of the rows on which all comparisons hold, where none holds of a missing value. Which
values are equal is up to the database.

`Validator.unique_check_iff` says what the answer comes to. The value is accepted exactly if none of
the stored rows has it, where the rows that have the key of the record itself do not count if it has
one, and neither do rows without a key. The column may be called by any property, also by one that
is the name of another column, since the question is put under the property and properties are
looked up first.
-/

namespace SqlKit

open Text

/-! ## Comparisons -/

/-- A comparison of a column with a value, by `=`, or by `<>` where it is negated. -/
structure Comparison where
  column : String
  negated : Bool
  value : Value

namespace Comparison

/-- The comparison in SQL, with a placeholder for the value. -/
def sql (x : Comparison) : String := x.column ++ if x.negated then "<>?" else "=?"

/-- Whether a comparison holds on a row, for an equality of values. -/
def holds (same : Value → Value → Bool) (row : Record) (x : Comparison) : Bool :=
  !(row.get x.column).isNull && !x.value.isNull && (same (row.get x.column) x.value != x.negated)

end Comparison

/-- The text of the query for the number of rows of a table on which all of some conditions hold. -/
def countText (t : Table) (conditions : List String) : String :=
  "SELECT COUNT(*) FROM " ++ t.qualifiedName ++ " WHERE " ++ " AND ".intercalate conditions

/-- The query for the number of rows of a table on which all of some comparisons hold. -/
def countQuery (t : Table) (xs : List Comparison) : BoundSql :=
  ⟨countText t (xs.map (·.sql)), xs.map (·.value)⟩

/-- An answer whose first value is a number. -/
def IsCount (n : Nat) (answer : Except ExecutionError (List Row)) : Prop :=
  ∃ (rows : List Row) (i : Int64),
    answer = .ok rows ∧ rows.head?.bind (·.at? 0) = some (.integer i) ∧ i.toInt = n

/-- The queries for a table that compare some columns, each of them at most once and in this order,
are answered by the number of the rows on which the comparisons hold. -/
def CountsRows (executor : Executor Id) (t : Table) (columns : List String)
    (same : Value → Value → Bool) (rows : List Record) : Prop :=
  ∀ xs : List Comparison, xs ≠ [] → (xs.map (·.column)).Sublist columns →
    IsCount (rows.countP fun row => xs.all (·.holds same row)) (Id.run (executor (countQuery t xs)))

/-! ## The query -/

/-- A column is found under every spelling. -/
theorem Table.column?_congr {a b : String} (h : sameName a b = true) (t : Table) :
    t.column? a = t.column? b := by
  rw [column?, column?]
  exact congrArg (t.columns.find? ·) (funext fun c => sameName_congr_right h c.name)

theorem Table.property?_congr {a b : String} (h : sameName a b = true) (t : Table) :
    t.property? a = t.property? b := by
  rw [property?, property?]
  exact congrArg (t.columns.find? ·) (funext fun c => sameName_congr_right h c.property)

/-- Where no two columns share a property, a column is meant by its property. -/
theorem Table.resolve_property {t : Table} {c : Column}
    (hProperties : t.columns.Pairwise fun a b => sameName a.property b.property = false)
    (hc : c ∈ t.columns) : t.resolve c.property = .ok c := by
  obtain ⟨before, behind, hColumns⟩ := List.append_of_mem hc
  have hFirst : t.property? c.property = some c := by
    refine List.find?_eq_some_iff_append.mpr
      ⟨sameName_refl _, before, behind, hColumns, fun b hb => ?_⟩
    rw [hColumns] at hProperties
    rw [(List.pairwise_append.mp hProperties).2.2 b hb c List.mem_cons_self, Bool.not_false]
  rw [resolve, hFirst, Option.some_or]

/-- A predicate that is a comparison, for a value that is there. -/
theorem Predicate.bind_equal {t : Table} {name : String} {c : Column} {value : Value}
    (h : t.resolve name = .ok c) (hValue : value.isNull = false) (negated : Bool) :
    (equal name negated value).bind t =
      .ok ⟨(Comparison.mk c.name negated value).sql, [value]⟩ := by
  rw [bind, h, Except.map, BoundSql.equality, hValue, if_neg Bool.false_ne_true]
  rfl

/-- Two comparisons are joined by `AND`. -/
theorem Predicate.bind_and {t : Table} {name other : String} {c d : Column} {value own : Value}
    {negated excluded : Bool} (h : t.resolve name = .ok c) (hValue : value.isNull = false)
    (hOther : t.resolve other = .ok d) (hOwn : own.isNull = false) :
    ((equal name negated value).and (equal other excluded own)).bind t =
      .ok ⟨" AND ".intercalate [(Comparison.mk c.name negated value).sql,
        (Comparison.mk d.name excluded own).sql], [value, own]⟩ := by
  change ((bindAll t [equal name negated value, equal other excluded own]).map
    BoundSql.conjunction) = _
  rw [bindAll, bindAll, bindAll, bind_equal h hValue, bind_equal hOther hOwn]
  rfl

/-- The count query for a predicate. -/
theorem TableQuery.selectCount_filter {t : Table} {p : Predicate} {b : BoundSql}
    (h : p.bind t = .ok b) : (TableQuery.mk t (some p)).selectCount =
      .ok ⟨"SELECT COUNT(*) FROM " ++ t.qualifiedName ++ " WHERE " ++ b.sql, b.arguments⟩ := by
  rw [selectCount, project]
  dsimp only
  rw [h]
  rfl

namespace Uniqueness

variable {u : Uniqueness} {key column : String} {k c : Column}

/-- A column is called by a name under which it is found. -/
theorem resolve_reference
    (hProperties : u.table.columns.Pairwise fun a b => sameName a.property b.property = false)
    (hc : u.table.column? column = some c) : u.table.resolve (u.reference column) = .ok c := by
  rw [reference, hc]
  exact Table.resolve_property hProperties (List.mem_of_find?_eq_some hc)

/-- Different columns have different names. -/
theorem sameName_eq_false_of_ne (hk : u.table.column? key = some k)
    (hc : u.table.column? column = some c) (hOther : c ≠ k) : sameName key column = false := by
  rw [Bool.eq_false_iff]
  intro hSame
  rw [Table.column?_congr hSame, hc] at hk
  exact hOther (Option.some.inj hk)

/-- The comparison that sets the row of a record apart, if the record has a key. -/
def apart (k : Column) (own : Value) : List Comparison :=
  if own.isNull then [] else [⟨k.name, true, own⟩]

/-- The query compares the column with the value, and the key with the key of the record. -/
theorem selectCount_query
    (hProperties : u.table.columns.Pairwise fun a b => sameName a.property b.property = false)
    (hKey : u.table.primaryKey = [key]) (hk : u.table.column? key = some k)
    (hc : u.table.column? column = some c) (hOther : c ≠ k) {value : Value}
    (hValue : value.isNull = false) (record : Record) :
    (u.query column value record).selectCount =
      .ok (countQuery u.table (⟨c.name, false, value⟩ :: apart k (record.get key))) := by
  have hColumn := resolve_reference hProperties hc
  have hKeyColumn := resolve_reference hProperties hk
  rw [query, exclusion?, hKey, apart]
  dsimp only
  rw [sameName_eq_false_of_ne hk hc hOther, Bool.or_false]
  cases hOwn : (record.get key).isNull with
  | true => exact TableQuery.selectCount_filter (Predicate.bind_equal hColumn hValue false)
  | false => exact TableQuery.selectCount_filter (Predicate.bind_and hColumn hValue hKeyColumn hOwn)

end Uniqueness

/-! ## The answer -/

/-- There are rows if the number of rows is not zero. -/
theorem TableQuery.isInhabited_of_isCount {q : TableQuery} {executor : Executor Id} {b : BoundSql}
    {n : Nat} (hBound : q.selectCount = .ok b) (h : IsCount n (Id.run (executor b))) :
    Id.run (q.isInhabited executor) = .ok (decide (0 < n)) := by
  obtain ⟨rows, i, hRows, hFirst, hNumber⟩ := h
  have hExecuted : Id.run (execute executor q.selectCount) = .ok rows := by
    rw [hBound, execute]
    exact congrArg (Except.mapError QueryError.execution) hRows
  have hCount : countOf rows = .ok n := by
    rw [countOf, hFirst]
    simp [hNumber]
  have hRun : Id.run (q.isInhabited executor) =
      ((Id.run (execute executor q.selectCount)).bind countOf).map (decide <| 0 < ·) := rfl
  rw [hRun, hExecuted, Except.bind, hCount, Except.map]

/-- Whether a row has a value in a column, for an equality of values. A missing value is none. -/
def Record.hasValue (same : Value → Value → Bool) (row : Record) (column : String) (value : Value) :
    Bool :=
  !(row.get column).isNull && same (row.get column) value

/-- Whether a row does not count against a record with a key of its own: it has the same key, or
none. -/
def Record.isExcepted (same : Value → Value → Bool) (row : Record) (key : String) (own : Value) :
    Bool :=
  !own.isNull && ((row.get key).isNull || row.hasValue same key own)

/-- The comparisons of the query hold on the rows that have the value and are not excepted. -/
theorem Uniqueness.all_holds_iff {same : Value → Value → Bool} {c k : Column} {value own : Value}
    (hValue : value.isNull = false) (row : Record) :
    ((⟨c.name, false, value⟩ :: apart k own).all fun x : Comparison => x.holds same row) = true ↔
      row.hasValue same c.name value = true ∧ row.isExcepted same k.name own = false := by
  rw [List.all_cons, Bool.and_eq_true, Comparison.holds, hValue, Record.hasValue]
  refine and_congr (by simp) ?_
  rw [apart, Record.isExcepted, Record.hasValue]
  cases hOwn : own.isNull with
  | true => simp
  | false =>
    cases hNull : (row.get k.name).isNull <;> cases hSame : same (row.get k.name) own <;>
      simp [Comparison.holds, hOwn, hNull, hSame]

theorem Uniqueness.verdict_eq_none_iff (u : Uniqueness) (n : Nat) :
    u.verdict (.ok (decide (0 < n))) = none ↔ n = 0 := by
  cases n with
  | zero => exact iff_of_true rfl rfl
  | succ n => exact iff_of_false nofun (Nat.succ_ne_zero n)

/-- **The uniqueness check is exact.** A value is accepted for a column other than the key exactly
if no stored row has it, apart from the row of the record itself and from rows without a key. -/
theorem Validator.unique_check_iff {u : Uniqueness} {executor : Executor Id}
    {same : Value → Value → Bool} {rows : List Record} {key column : String} {k c : Column}
    (hProperties : u.table.columns.Pairwise fun a b => sameName a.property b.property = false)
    (hKey : u.table.primaryKey = [key]) (hk : u.table.column? key = some k)
    (hc : u.table.column? column = some c) (hOther : c ≠ k)
    (hRows : CountsRows executor u.table [c.name, k.name] same rows)
    {value : Value} (hValue : value.isNull = false) (record : Record) :
    Id.run ((Validator.unique u executor).check column value record) = none ↔
      ¬ ∃ row ∈ rows, row.hasValue same c.name value = true ∧
        row.isExcepted same k.name (record.get key) = false := by
  have hQuery := Uniqueness.selectCount_query hProperties hKey hk hc hOther hValue record
  have hColumns : ((⟨c.name, false, value⟩ :: Uniqueness.apart k (record.get key)).map
      Comparison.column).Sublist [c.name, k.name] := by
    unfold Uniqueness.apart
    split
    · exact (List.nil_sublist _).cons_cons _
    · exact List.Sublist.refl _
  have hAnswer := TableQuery.isInhabited_of_isCount hQuery (hRows _ (List.cons_ne_nil _ _) hColumns)
  have hCheck : Id.run ((Validator.unique u executor).check column value record) =
      u.verdict (Id.run ((u.query column value record).isInhabited executor)) := rfl
  rw [hCheck, hAnswer, Uniqueness.verdict_eq_none_iff, List.countP_eq_zero]
  simp only [Uniqueness.all_holds_iff hValue, not_exists, not_and]

/-! ## A database that counts -/

/-- The forms of the queries that compare some columns: each column by `=`, by `<>`, or not at
all. -/
def forms (columns : List String) : List (List (String × Bool)) :=
  columns.sublists.flatMap fun names =>
    (names.map fun name => [(name, false), (name, true)]).sections

/-- The text of the query of a form. -/
def formText (t : Table) (form : List (String × Bool)) : String :=
  countText t (form.map fun f => (Comparison.mk f.1 f.2 .null).sql)

/-- A database that recognizes the queries of these forms by their texts. -/
def countingExecutor (t : Table) (columns : List String) (same : Value → Value → Bool)
    (rows : List Record) : Executor Id := fun b =>
  match (forms columns).find? fun form => formText t form == b.sql with
  | none => .error ⟨"no such query", none⟩
  | some form =>
    let xs := form.zipWith (fun f value => Comparison.mk f.1 f.2 value) b.arguments
    .ok [⟨[("COUNT(*)", .integer (.ofNat (rows.countP fun row => xs.all (·.holds same row))))]⟩]

theorem mem_forms {columns : List String} {xs : List Comparison}
    (h : (xs.map (·.column)).Sublist columns) :
    (xs.map fun x => (x.column, x.negated)) ∈ forms columns := by
  refine List.mem_flatMap.mpr ⟨_, List.mem_sublists.mpr h, List.mem_sections.mpr ?_⟩
  rw [List.map_map, List.forall₂_map_left_iff, List.forall₂_map_right_iff]
  refine List.forall₂_same.mpr fun x _ => ?_
  cases x.negated <;> simp

theorem formText_form (t : Table) (xs : List Comparison) :
    formText t (xs.map fun x => (x.column, x.negated)) = (countQuery t xs).sql := by
  refine congrArg (countText t) ?_
  rw [List.map_map]
  rfl

/-- Where the forms can be told apart by their texts, there is a database that counts rows. -/
theorem countsRows_countingExecutor {t : Table} {columns : List String}
    {same : Value → Value → Bool}
    {rows : List Record} (hApart : ((forms columns).map (formText t)).Nodup)
    (hRows : (rows.length : Int) ≤ Int64.maxValue.toInt) :
    CountsRows (countingExecutor t columns same rows) t columns same rows := by
  intro xs _ hColumns
  have hFound : ((forms columns).find? fun form => formText t form == (countQuery t xs).sql) =
      some (xs.map fun x => (x.column, x.negated)) := by
    obtain ⟨before, behind, hForms⟩ := List.append_of_mem (mem_forms hColumns)
    refine List.find?_eq_some_iff_append.mpr
      ⟨beq_iff_eq.mpr (formText_form t xs), before, behind, hForms, fun form hForm => ?_⟩
    rw [hForms, List.map_append, List.map_cons, List.nodup_append] at hApart
    have hOther := hApart.2.2 _ (List.mem_map_of_mem hForm) _ List.mem_cons_self
    rw [formText_form] at hOther
    rw [beq_eq_false_iff_ne.mpr hOther, Bool.not_false]
  have hRead : (xs.map fun x => (x.column, x.negated)).zipWith
      (fun f value => Comparison.mk f.1 f.2 value) (countQuery t xs).arguments = xs := by
    rw [countQuery, List.zipWith_map, List.zipWith_self]
    exact List.map_id _
  have hCount : (rows.countP fun row => xs.all (·.holds same row)) ≤ rows.length :=
    List.countP_le_length
  have hMax : Int64.maxValue.toInt = 2 ^ 63 - 1 := by decide
  refine ⟨[⟨[("COUNT(*)", .integer (.ofNat (rows.countP fun row => xs.all (·.holds same row))))]⟩],
    _, ?_, rfl, Int64.toInt_ofNat_of_lt (by omega)⟩
  rw [countingExecutor, hFound]
  dsimp only
  rw [hRead]
  rfl

/-- A table each of whose columns has the name of the other one for a property. -/
def sampleCrossing : Table where
  name := "t"
  schema := none
  columns := [⟨"b", "a", "INT", false, true, false, false⟩,
    ⟨"a", "b", "TEXT", true, false, false, false⟩]
  primaryKey := ["a"]
  uniqueKeys := []
  foreignKeys := []

/-- Rows of that table, one of them without a key. -/
def sampleRows : List Record :=
  [.ofValues [("a", .integer 1), ("b", .text "x")], .ofValues [("a", .null), ("b", .text "y")],
    .ofValues [("a", .integer 2), ("b", .text "z")]]

/-- The values of the row itself and of the row without a key are accepted, that of the other row is
not. -/
theorem Validator.unique_check_iff_sampleRows :
    let accepts (value : Value) : Prop :=
      Id.run ((Validator.unique ⟨sampleCrossing, "taken"⟩
        (countingExecutor sampleCrossing ["b", "a"] (· == ·) sampleRows)).check "b" value
          (.ofValues [("a", .integer 1)])) = none
    accepts (.text "x") ∧ accepts (.text "y") ∧ ¬ accepts (.text "z") := by
  intro accepts
  have hCounts : CountsRows (countingExecutor sampleCrossing ["b", "a"] (· == ·) sampleRows)
      sampleCrossing ["b", "a"] (· == ·) sampleRows :=
    countsRows_countingExecutor (by decide +kernel) (by decide)
  have hProperties :
      sampleCrossing.columns.Pairwise fun a b => sameName a.property b.property = false := by
    decide +kernel
  have hKey : sampleCrossing.column? "a" = some ⟨"b", "a", "INT", false, true, false, false⟩ := by
    decide +kernel
  have hColumn :
    sampleCrossing.column? "b" = some ⟨"a", "b", "TEXT", true, false, false, false⟩ := by
    decide +kernel
  have hAccepts (value : Value) (hValue : value.isNull = false) : accepts value ↔
      (sampleRows.any fun row => row.hasValue (· == ·) "b" value &&
        !row.isExcepted (· == ·) "a" ((Record.ofValues [("a", .integer 1)]).get "a")) = false := by
    refine (unique_check_iff (u := ⟨sampleCrossing, "taken"⟩) hProperties rfl hKey hColumn
      (by decide)
      hCounts hValue (.ofValues [("a", .integer 1)])).trans ?_
    simp only [List.any_eq_false, Bool.and_eq_true, Bool.not_eq_true', not_exists, not_and]
  refine ⟨(hAccepts _ (by decide)).mpr (by decide +kernel),
    (hAccepts _ (by decide)).mpr (by decide +kernel),
    fun hTaken => Bool.eq_false_iff.mp ((hAccepts _ (by decide)).mp hTaken) (by decide +kernel)⟩

end SqlKit
