import SqlKit.Proofs.Validation.Ruleset
import SqlKit.Proofs.Validation.Uniqueness

/-!
# Uniqueness that cannot be verified

The check for uniqueness accepts a value if the database answers its query with the number zero, and
for no other reason: a query that cannot be built, an error, no row, an empty row, and a value that
is no number of rows all lead to a message (`Uniqueness.messageOf_eq_none_iff`). Whatever else is
registered for a record, it is valid only if each of these checks accepts
(`Validator.unique_failsClosed`). Databases are arbitrary here: they may answer anything, and they
may keep a state, so that every call is answered in its own way.
-/

namespace SqlKit

open Text

/-! ## Answers -/

/-- The first value of the first row of an answer. -/
def leading? : Except ExecutionError (List Row) → Option Value
  | .ok (⟨(_, value) :: _⟩ :: _) => some value
  | _ => none

/-- What is to be said of a value when the database answers so. -/
structure Uniqueness.FailsClosed (u : Uniqueness) (answer : Except ExecutionError (List Row))
    (message : Option String) : Prop where
  accepted : message = none ↔ leading? answer = some (.integer 0)
  taken : ∀ n : Int64, 0 < n.toInt → leading? answer = some (.integer n) → message = some u.message
  undecided : (∀ n : Int64, 0 ≤ n.toInt → leading? answer ≠ some (.integer n)) →
    ∃ detail, message = some ("Could not verify uniqueness: " ++ detail)

namespace Uniqueness

variable (u : Uniqueness)

/-- What is said of a value when the database answers so. -/
def messageOf (answer : Except ExecutionError (List Row)) : Option String :=
  u.verdict (((answer.mapError .execution).bind TableQuery.countOf).map (0 < ·))

theorem head?_bind_at? (rows : List Row) : rows.head?.bind (·.at? 0) = leading? (.ok rows) := by
  match rows with
  | [] => rfl
  | ⟨[]⟩ :: _ => rfl
  | ⟨_ :: _⟩ :: _ => rfl

theorem messageOf_ok (rows : List Row) :
    u.messageOf (.ok rows) = u.verdict ((TableQuery.countOf rows).map (0 < ·)) := rfl

variable {answer : Except ExecutionError (List Row)}

/-- A number of rows is understood. -/
theorem messageOf_of_count {n : Int64} (hCount : 0 ≤ n.toInt)
    (h : leading? answer = some (.integer n)) :
    u.messageOf answer = if n.toInt = 0 then none else some u.message := by
  cases answer with
  | error e => cases h
  | ok rows =>
    have hRows : TableQuery.countOf rows = .ok n.toInt.toNat := by
      rw [TableQuery.countOf, head?_bind_at?, h]
      exact if_pos hCount
    rw [messageOf_ok, hRows]
    split
    · next hZero =>
      rw [hZero]
      rfl
    · next hSome =>
      have hPos : decide (0 < n.toInt.toNat) = true := decide_eq_true (by omega)
      rw [Except.map, hPos]
      rfl

/-- Anything else is reported. -/
theorem messageOf_of_no_count
    (h : ∀ n : Int64, 0 ≤ n.toInt → leading? answer ≠ some (.integer n)) :
    ∃ detail, u.messageOf answer = some ("Could not verify uniqueness: " ++ detail) := by
  cases answer with
  | error e => exact ⟨_, rfl⟩
  | ok rows =>
    have hRows : ∃ e, TableQuery.countOf rows = .error e := by
      rw [TableQuery.countOf, head?_bind_at?]
      split
      · exact ⟨_, rfl⟩
      · next n hInteger =>
        rw [if_neg fun hCount => h n hCount hInteger]
        exact ⟨_, rfl⟩
      · exact ⟨_, rfl⟩
    obtain ⟨e, he⟩ := hRows
    exact ⟨e.message, by rw [messageOf_ok, he]; rfl⟩

theorem messageOf_eq_none_iff :
    u.messageOf answer = none ↔ leading? answer = some (.integer 0) := by
  constructor
  · intro hNone
    by_contra hOther
    by_cases hCount : ∃ n : Int64, 0 ≤ n.toInt ∧ leading? answer = some (.integer n)
    · obtain ⟨n, hn, hLeading⟩ := hCount
      have hZero : n.toInt ≠ 0 := by
        intro hZero
        obtain rfl : n = 0 := Int64.toInt_inj.mp hZero
        exact hOther hLeading
      rw [u.messageOf_of_count hn hLeading, if_neg hZero] at hNone
      cases hNone
    · obtain ⟨detail, hDetail⟩ := u.messageOf_of_no_count fun n hn hLeading =>
        hCount ⟨n, hn, hLeading⟩
      rw [hDetail] at hNone
      cases hNone
  · intro hZero
    rw [u.messageOf_of_count (by decide) hZero]
    rfl

theorem failsClosed_messageOf (answer : Except ExecutionError (List Row)) :
    u.FailsClosed answer (u.messageOf answer) where
  accepted := u.messageOf_eq_none_iff
  taken n hn hLeading := by
    rw [u.messageOf_of_count (Int.le_of_lt hn) hLeading, if_neg (Int.ne_of_gt hn)]
  undecided := u.messageOf_of_no_count

/-! ## Checks -/

variable {m : Type → Type} [Monad m] [LawfulMonad m] (executor : Executor m)
variable {column : String} {value : Value} {record : Record}

/-- A check asks its query once, and says what the answer leads to. -/
theorem check_of_ok {bound : BoundSql} (h : (u.query column value record).selectCount = .ok bound) :
    (Validator.unique u executor).check column value record = u.messageOf <$> executor bound := by
  simp only [Validator.unique, TableQuery.isInhabited, TableQuery.count, h, TableQuery.execute,
    bind_assoc, pure_bind, map_eq_pure_bind]
  rfl

/-- A check whose query cannot be built asks nothing. -/
theorem check_of_error {e : QueryError} (h : (u.query column value record).selectCount = .error e) :
    (Validator.unique u executor).check column value record =
      pure (some ("Could not verify uniqueness: " ++ e.message)) := by
  simp only [Validator.unique, TableQuery.isInhabited, TableQuery.count, h, TableQuery.execute,
    bind_assoc, pure_bind]
  rfl

end Uniqueness

/-! ## Spellings -/

theorem Record.get_congr {a b : String} (h : sameName a b = true) (record : Record) :
    record.get a = record.get b := by
  rw [get, get, NameMap.find?_congr h]

theorem toOption_map {α β : Type} {x : Except QueryError α} (f : α → β) :
    (x.map f).toOption = x.toOption.map f := by
  cases x <;> rfl

theorem Table.toOption_resolve (t : Table) (name : String) :
    (t.resolve name).toOption = (t.property? name).or (t.column? name) := by
  unfold resolve
  split <;> next h => exact h.symm

theorem Predicate.toOption_bind_equal (t : Table) (name : String) (negated : Bool) (value : Value) :
    ((equal name negated value).bind t).toOption =
      (t.resolve name).toOption.map (.equality · negated value) := by
  rw [Predicate.bind, toOption_map]

/-- A conjunction is bound if its first part is and the others are. -/
theorem Predicate.toOption_bind_all (t : Table) (p : Predicate) (rest : List Predicate) :
    ((all (p :: rest)).bind t).toOption = (p.bind t).toOption.bind fun first =>
      (bindAll t rest).toOption.map fun others => .conjunction (first :: others) := by
  rw [Predicate.bind, bindAll, toOption_map]
  cases p.bind t with
  | error e => rfl
  | ok first => cases bindAll t rest <;> rfl

theorem TableQuery.toOption_selectCount (t : Table) (p : Predicate) :
    (TableQuery.mk t (some p)).selectCount.toOption = (p.bind t).toOption.map fun bound =>
      ⟨"SELECT COUNT(*) FROM " ++ t.qualifiedName ++ " WHERE " ++ bound.sql, bound.arguments⟩ :=
  toOption_map _

namespace Uniqueness

variable (u : Uniqueness) {a b : String}

/-- The column that is meant does not depend on the spelling. -/
theorem toOption_resolve_reference (h : sameName a b = true) :
    (u.table.resolve (u.reference a)).toOption = (u.table.resolve (u.reference b)).toOption := by
  rw [reference, reference, Table.column?_congr h]
  split
  · rfl
  · rw [Table.toOption_resolve, Table.toOption_resolve, Table.property?_congr h,
      Table.column?_congr h]

theorem exclusion?_congr (h : sameName a b = true) (record : Record) :
    u.exclusion? a record = u.exclusion? b record := by
  rw [exclusion?, exclusion?]
  split
  · rw [sameName_congr_right h]
  · rfl

/-- Under another spelling of its column the check asks the same query, or none as well. -/
theorem toOption_selectCount_congr (h : sameName a b = true) (value : Value) (record : Record) :
    (u.query a value record).selectCount.toOption =
      (u.query b value record).selectCount.toOption := by
  have hColumn : ((Predicate.equal (u.reference a) false value).bind u.table).toOption =
      ((Predicate.equal (u.reference b) false value).bind u.table).toOption := by
    rw [Predicate.toOption_bind_equal, Predicate.toOption_bind_equal,
      toOption_resolve_reference u h]
  rw [query, query, exclusion?_congr u h]
  dsimp only [TableQuery.filter, TableQuery.all]
  split
  · rw [TableQuery.toOption_selectCount, TableQuery.toOption_selectCount, hColumn]
  · next other =>
    rw [TableQuery.toOption_selectCount, TableQuery.toOption_selectCount, Predicate.and,
      Predicate.and]
    dsimp only [Predicate.parts, List.singleton_append, List.cons_append, List.nil_append]
    rw [Predicate.toOption_bind_all, Predicate.toOption_bind_all, hColumn]

end Uniqueness

/-! ## Rulesets -/

theorem Failures.isEmpty_report (f : Failures) (column : String) (messages : List String) :
    (f.report column messages).isEmpty = (f.isEmpty && messages.isEmpty) := by
  cases messages with
  | nil => simp [Failures.report]
  | cons message rest =>
    rw [Failures.report, List.isEmpty_cons, Bool.and_false, Failures.isEmpty, Failures.append,
      NameMap.alter]
    dsimp only
    cases f.messages.entries with
    | nil => rfl
    | cons entry entries =>
      rw [NameMap.alterEntries]
      split <;> rfl

/-- Nothing is wrong if no answer is a message. -/
theorem Failures.isEmpty_foldl_report (f : Failures)
    (answers : List (String × List (Option String))) :
    (answers.foldl (fun f a => f.report a.1 a.2.reduceOption) f).isEmpty =
      (f.isEmpty && answers.all fun a => a.2.all (·.isNone)) := by
  induction answers generalizing f with
  | nil => simp
  | cons a answers ih =>
    rw [List.foldl_cons, ih, isEmpty_report, Ruleset.isEmpty_reduceOption, List.all_cons,
      Bool.and_assoc]

section Monad

variable {m : Type → Type} [Monad m] [LawfulMonad m]

/-- Whether all of some things are good, where every one of them is asked about. -/
def allAsked {α : Type} (as : List α) (good : α → m Bool) : m Bool := (·.all id) <$> as.mapM good

theorem allAsked_append_cons {α : Type} (before : List α) (a : α) (behind : List α)
    (good : α → m Bool) : allAsked (before ++ a :: behind) good = (do
      let x ← allAsked before good
      let b ← good a
      let y ← allAsked behind good
      return x && (b && y)) := by
  simp [allAsked, List.mapM_append, List.mapM_cons]

theorem map_all_mapM {α β : Type} (as : List α) (f : α → m β) (good : β → Bool) :
    (·.all good) <$> as.mapM f = allAsked as fun a => good <$> f a := by
  rw [allAsked]
  induction as with
  | nil => simp
  | cons a as ih =>
    rw [List.mapM_cons, List.mapM_cons, map_bind, map_bind, bind_map_left]
    refine bind_congr fun b => ?_
    have hRest := congrArg (fun x => (fun y => good b && y) <$> x) ih
    simpa using hRest

/-- Whether a validator has nothing to say. -/
def Validator.accepts (v : Validator m) (column : String) (value : Value) (record : Record) :
    m Bool :=
  Option.isNone <$> v.check column value record

namespace Ruleset

variable {registrations : List (String × Validator m)} {record : Record}

/-- Whether the validators of a column have nothing to say, each of them asked that is to see the
value. -/
def isContent (registrations : List (String × Validator m)) (record : Record) (column : String) :
    m Bool :=
  allAsked (asked (registeredFor registrations column) (record.get column))
    (·.accepts column (record.get column) record)

/-- A record is valid if the validators of all columns have nothing to say. -/
theorem isValid_eq (registrations : List (String × Validator m)) (record : Record) :
    (ofRegistrations registrations).isValid record =
      allAsked (firstSpellings (registrations.map (·.1))) (isContent registrations record) := by
  have hValid : (ofRegistrations registrations).isValid record =
      Failures.isEmpty <$> (ofRegistrations registrations).validate record :=
    bind_pure_comp _ _
  have hEmpty : (fun answers => (answers.foldl (fun f a => f.report a.1 a.2.reduceOption)
      Failures.empty).isEmpty) = fun answers : List (String × List (Option String)) =>
        answers.all fun a => a.2.all (·.isNone) := funext (Failures.isEmpty_foldl_report .empty)
  rw [hValid, validate_eq_foldl, Functor.map_map, hEmpty, answers, map_all_mapM]
  refine congrArg (allAsked _) (funext fun column => ?_)
  have hContent : isContent registrations record column = (·.all (·.isNone)) <$>
      answersOn record column (registeredFor registrations column) := (map_all_mapM _ _ _).symm
  rw [hContent, map_bind]
  simp

/-- The verdict on a record, with that of one validator taken out. It judges under the spelling of
its column that was registered first. -/
theorem isValid_split {column : String} {v : Validator m} (hMem : (column, v) ∈ registrations)
    (hValue : (record.get column).isNull = false) :
    ∃ spelled, sameName spelled column = true ∧ ∃ before after : m Bool,
      (ofRegistrations registrations).isValid record = (do
        let x ← before
        let accepted ← v.accepts spelled (record.get column) record
        let y ← after
        return x && accepted && y) := by
  have hColumn : hasName (firstSpellings (registrations.map (·.1))) column = true := by
    rw [hasName_firstSpellings]
    exact List.any_eq_true.mpr ⟨column, List.mem_map_of_mem hMem, sameName_refl column⟩
  obtain ⟨spelled, hSpelled, hSame⟩ := List.any_eq_true.mp hColumn
  have hRegistered : v ∈ registeredFor registrations spelled :=
    List.mem_map.mpr ⟨(column, v), List.mem_filter.mpr ⟨hMem, (sameName_comm _ _).trans hSame⟩, rfl⟩
  have hAsked : v ∈ asked (registeredFor registrations spelled) (record.get column) :=
    List.mem_filter.mpr ⟨hRegistered, by rw [hValue, Bool.not_false, Bool.or_true]⟩
  obtain ⟨columns, others, hNames⟩ := List.append_of_mem hSpelled
  obtain ⟨earlier, later, hValidators⟩ := List.append_of_mem hAsked
  have hContent : isContent registrations record spelled =
      allAsked (earlier ++ v :: later) (·.accepts spelled (record.get column) record) := by
    rw [isContent, Record.get_congr hSame, hValidators]
  refine ⟨spelled, hSame,
    (do let x ← allAsked columns (isContent registrations record)
        let x' ← allAsked earlier (·.accepts spelled (record.get column) record)
        return x && x'),
    (do let y ← allAsked later (·.accepts spelled (record.get column) record)
        let y' ← allAsked others (isContent registrations record)
        return y && y'), ?_⟩
  rw [isValid_eq, hNames, allAsked_append_cons, hContent, allAsked_append_cons]
  simp only [bind_assoc, pure_bind, Bool.and_assoc]

end Ruleset

/-! ## The check in a ruleset -/

variable (u : Uniqueness) (executor : Executor m)

/-- The check accepts a value if the number that it is answered with is zero. -/
theorem Validator.accepts_unique (column : String) (value : Value) (record : Record) :
    (Validator.unique u executor).accepts column value record =
      match (u.query column value record).selectCount.toOption with
      | some bound => (leading? · == some (.integer 0)) <$> executor bound
      | none => pure false := by
  have hAccepts : (fun answer => (u.messageOf answer).isNone) =
      (leading? · == some (.integer 0)) := funext fun answer => by
    rw [Bool.eq_iff_iff, Option.isNone_iff_eq_none, beq_iff_eq, u.messageOf_eq_none_iff]
  cases hQuery : (u.query column value record).selectCount with
  | error e =>
    rw [accepts, u.check_of_error executor hQuery, map_pure]
    rfl
  | ok bound =>
    rw [accepts, u.check_of_ok executor hQuery, Functor.map_map, hAccepts]
    rfl

/-- **A check for uniqueness fails closed.** If its query can be built, the check asks it once and
says what the answer leads to: nothing if the first value of the first row is zero, the message of
the check if it is a positive integer, and otherwise that uniqueness could not be verified, as it
does if the query cannot be built. So the verdict on a record with a value to check is a conjunction
of which that answer is one part, and it is negative if nothing can be asked. -/
theorem Validator.unique_failsClosed (column : String) (record : Record) :
    (∀ value,
      (∀ bound, (u.query column value record).selectCount = .ok bound →
        (Validator.unique u executor).check column value record = u.messageOf <$> executor bound) ∧
      ∀ e, (u.query column value record).selectCount = .error e →
        (Validator.unique u executor).check column value record =
          pure (some ("Could not verify uniqueness: " ++ e.message))) ∧
    (∀ answer, u.FailsClosed answer (u.messageOf answer)) ∧
    ∀ registrations, (column, Validator.unique u executor) ∈ registrations →
      (record.get column).isNull = false → ∃ before after : m Bool,
        (∀ bound, (u.query column (record.get column) record).selectCount = .ok bound →
          (Ruleset.ofRegistrations registrations).isValid record = (do
            let x ← before
            let answer ← executor bound
            let y ← after
            return x && leading? answer == some (.integer 0) && y)) ∧
        ∀ e, (u.query column (record.get column) record).selectCount = .error e →
          (Ruleset.ofRegistrations registrations).isValid record = (do
            let _ ← before
            let _ ← after
            return false) := by
  refine ⟨fun value => ⟨fun bound hQuery => u.check_of_ok executor hQuery,
    fun e hQuery => u.check_of_error executor hQuery⟩, u.failsClosed_messageOf,
    fun registrations hMem hValue => ?_⟩
  obtain ⟨spelled, hSame, before, after, hValid⟩ := Ruleset.isValid_split hMem hValue
  rw [Validator.accepts_unique, u.toOption_selectCount_congr hSame] at hValid
  refine ⟨before, after, fun bound hQuery => ?_, fun e hQuery => ?_⟩
  · rw [hValid, hQuery]
    simp only [Except.toOption, bind_map_left]
  · rw [hValid, hQuery]
    simp only [Except.toOption, pure_bind, Bool.and_false, Bool.false_and]

end Monad

/-- Users with a key and an address. -/
def sampleUsers : Table where
  name := "users"
  schema := none
  columns := [⟨"id", "id", "INT", false, true, false, true⟩,
    ⟨"email", "email", "TEXT", true, false, true, false⟩]
  primaryKey := ["id"]
  uniqueKeys := [⟨none, ["email"]⟩]
  foreignKeys := []

/-- An answer that is no number of rows. -/
def negativeCount : List Row := [⟨[("COUNT(*)", .integer (-1))]⟩]

theorem Validator.unique_failsClosed_sampleUsers :
    Id.run ((Ruleset.ofRegistrations [("email", Validator.unique (m := Id) ⟨sampleUsers, "taken"⟩
      fun _ => pure (.ok negativeCount))]).isValid (.ofValues [("email", .text "a")])) = false := by
  have hLeading : (leading? (.ok negativeCount) == some (.integer 0)) = false := by decide
  have hGet : (Record.ofValues [("email", .text "a")]).get "email" = .text "a" := by decide +kernel
  have hQuery : ((⟨sampleUsers, "taken"⟩ : Uniqueness).query "email" (.text "a")
      (.ofValues [("email", .text "a")])).selectCount =
        .ok ⟨"SELECT COUNT(*) FROM users WHERE email=?", [.text "a"]⟩ := by
    decide +kernel
  obtain ⟨-, -, hRuleset⟩ := Validator.unique_failsClosed (m := Id) ⟨sampleUsers, "taken"⟩
    (fun _ => pure (.ok negativeCount)) "email" (.ofValues [("email", .text "a")])
  rw [hGet] at hRuleset
  obtain ⟨before, after, hAsked, -⟩ := hRuleset _ (List.mem_singleton_self _) rfl
  rw [hAsked _ hQuery]
  simp only [pure_bind, hLeading, Bool.and_false, Bool.false_and, Id.run_bind, Id.run_pure]

end SqlKit
