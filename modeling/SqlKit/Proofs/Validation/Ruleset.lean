import Mathlib.Data.List.Induction
import Mathlib.Data.List.ReduceOption
import SqlKit.Proofs.Text.Spellings
import SqlKit.Validation.Ruleset

/-!
# What a ruleset finds

Validators are registered one after another, for columns in any letter case. `Ruleset.answers` says
what is asked of a record then: columns in the order of their first registration and as they were
spelled there, and of each column all of its validators, in order, that are to see its value.

`Ruleset.validate_eq` says that a validation puts these questions, each of them once and in this
order, and that the failures it finds are the messages that were answered. Names are grouped twice
on the way, in the ruleset (`Ruleset.rules_ofRegistrations`) and in the failures
(`Failures.foldl_report`), and nothing is lost in between. All of this holds in every monad, so for
validators that query a database and for those that keep a state of their own.
-/

namespace SqlKit

open Text

/-! ## Failures -/

namespace Failures

/-- The failures with the messages of a column, if it has any. -/
def report (f : Failures) (column : String) : List String → Failures
  | [] => f
  | message :: rest => f.append column (message :: rest)

theorem add_report (f : Failures) (column message : String) (messages : List String) :
    (f.add column message).report column messages = f.report column (message :: messages) := by
  cases messages with
  | nil => rfl
  | cons =>
    rw [report, report, append, add, append, append, NameMap.alter_alter]
    simp only [Option.getD_some, List.append_assoc, List.singleton_append]

theorem entries_report {f : Failures} {column : String}
    (h : hasName (f.messages.entries.map (·.1)) column = false) (messages : List String) :
    (f.report column messages).messages.entries =
      f.messages.entries ++ [(column, messages)].filter fun entry => !entry.2.isEmpty := by
  cases messages with
  | nil => exact (List.append_nil _).symm
  | cons => exact NameMap.alterEntries_of_new h

/-- Reports on different columns stand one behind another, and those without a message are left
out. -/
theorem foldl_report {f : Failures} {reports : List (String × List String)}
    (hNew : ∀ r ∈ reports, hasName (f.messages.entries.map (·.1)) r.1 = false)
    (hDistinct : DistinctNames reports) :
    (reports.foldl (fun f r => f.report r.1 r.2) f).messages.entries =
      f.messages.entries ++ reports.filter fun entry => !entry.2.isEmpty := by
  induction reports generalizing f with
  | nil => exact (List.append_nil _).symm
  | cons r reports ih =>
    obtain ⟨hHead, hTail⟩ := List.forall_mem_cons.mp hNew
    obtain ⟨hApart, hRest⟩ := List.pairwise_cons.mp hDistinct
    have hEntries := entries_report hHead r.2
    rw [List.foldl_cons, ih ?_ hRest, hEntries, List.append_assoc, ← List.filter_append,
      List.singleton_append]
    intro other hOther
    rw [hEntries, List.map_append, hasName_append, hTail other hOther, Bool.false_or]
    cases hEmpty : r.2.isEmpty <;> simp [hEmpty, hApart other hOther]

end Failures

namespace Ruleset

variable {m : Type → Type}

/-! ## Registrations -/

/-- The ruleset that arises when validators are registered one after another. -/
def ofRegistrations (registrations : List (String × Validator m)) : Ruleset m :=
  registrations.foldl (fun r registration => r.register registration.1 registration.2) empty

/-- The validators that were registered for a column, in order. -/
def registeredFor (registrations : List (String × Validator m)) (column : String) :
    List (Validator m) :=
  (registrations.filter (isUnder column)).map (·.2)

theorem rules_foldl (registrations : List (String × Validator m)) :
    (ofRegistrations registrations).rules =
      registrations.foldl (fun rules r => rules.alter r.1 fun earlier => earlier.getD [] ++ [r.2])
        .empty :=
  (List.foldl_hom rules fun _ _ => rfl).symm

/-- Values that are collected one after another. -/
theorem foldl_collect {α : Type} (as : List α) (h : as ≠ []) :
    as.foldl (fun earlier a => some (earlier.getD [] ++ [a])) none = some as := by
  induction as using List.reverseRecOn with
  | nil => exact absurd rfl h
  | append_singleton as a ih =>
    rw [List.foldl_concat]
    rcases eq_or_ne as [] with rfl | hSome
    · rfl
    · rw [ih hSome, Option.getD_some]

/-- A ruleset holds every column under its first spelling, with all of its validators. -/
theorem rules_ofRegistrations (registrations : List (String × Validator m)) :
    (ofRegistrations registrations).rules.entries =
      (firstSpellings (registrations.map (·.1))).map fun column =>
        (column, registeredFor registrations column) := by
  have hNames : (ofRegistrations registrations).rules.names =
      firstSpellings (registrations.map (·.1)) := by
    rw [rules_foldl]
    exact NameMap.names_foldl_alter (fun v earlier => earlier.getD [] ++ [v]) .empty registrations
  rw [← hNames]
  refine NameMap.entries_eq_map fun column hColumn => ?_
  have hKnown : hasName (registrations.map (·.1)) column = true := by
    rw [← hasName_firstSpellings, ← hNames]
    exact List.any_eq_true.mpr ⟨column, hColumn, sameName_refl _⟩
  have hSome : valuesUnder column registrations ≠ [] := by
    rw [Ne, valuesUnder_eq_nil_iff, hKnown]
    exact nofun
  rw [rules_foldl]
  exact (NameMap.find?_foldl_alter (fun v earlier => earlier.getD [] ++ [v]) .empty registrations
    column).trans (foldl_collect _ hSome)

/-! ## Questions and answers -/

variable [Monad m]

/-- The validators of some that are to see a value: all of them, unless it is missing. -/
def asked (validators : List (Validator m)) (value : Value) : List (Validator m) :=
  validators.filter fun v => v.checksNull || !value.isNull

/-- What some validators say about a column. -/
def answersOn (record : Record) (column : String) (validators : List (Validator m)) :
    m (List (Option String)) :=
  (asked validators (record.get column)).mapM (·.check column (record.get column) record)

/-- What is said about a record: of every column, in the order in which the columns were first
registered and as they were spelled then, by all validators that were registered for it. -/
def answers (registrations : List (String × Validator m)) (record : Record) :
    m (List (String × List (Option String))) :=
  (firstSpellings (registrations.map (·.1))).mapM fun column =>
    return (column, ← answersOn record column (registeredFor registrations column))

variable [LawfulMonad m]

/-- A column is reported with all messages of its validators. -/
theorem judgeAll_eq (column : String) (record : Record) (f : Failures)
    (validators : List (Validator m)) :
    judgeAll column (record.get column) record f validators =
      (fun answers => f.report column answers.reduceOption) <$> answersOn record column
        validators := by
  unfold answersOn
  induction validators generalizing f with
  | nil => simp [judgeAll, asked, Failures.report]
  | cons v rest ih =>
    have hSkip : ((record.get column).isNull && !v.checksNull) =
        !(v.checksNull || !(record.get column).isNull) := by
      rw [Bool.not_or, Bool.not_not, Bool.and_comm]
    rw [judgeAll, judge, asked, List.filter_cons, hSkip]
    cases v.checksNull || !(record.get column).isNull with
    | false =>
      rw [Bool.not_false, if_pos rfl, if_neg Bool.false_ne_true, pure_bind]
      exact ih f
    | true =>
      rw [Bool.not_true, if_neg Bool.false_ne_true, if_pos rfl, List.mapM_cons, map_bind]
      refine bind_congr fun answer => ?_
      rw [map_bind]
      cases answer with
      | none => simpa [List.reduceOption_cons_of_none, asked] using ih f
      | some message =>
        simpa [List.reduceOption_cons_of_some, asked, Failures.add_report] using
          ih (f.add column message)

theorem judgeColumns_eq (record : Record) (f : Failures)
    (entries : List (String × List (Validator m))) :
    judgeColumns record f entries =
      (fun answers => answers.foldl (fun f a => f.report a.1 a.2.reduceOption) f) <$>
        entries.mapM fun e => (return (e.1, ← answersOn record e.1 e.2) : m _) := by
  induction entries generalizing f with
  | nil => simp [judgeColumns]
  | cons e rest ih =>
    rw [judgeColumns, judgeAll_eq, List.mapM_cons]
    simp [ih]

/-- Answers stand under the columns that were asked about. -/
theorem mapM_under {α : Type} (names : List String) (answer : String → m α) :
    (names.mapM fun name => (return (name, ← answer name) : m _)) =
      (names.zip ·) <$> names.mapM answer := by
  induction names with
  | nil => simp
  | cons name names ih =>
    rw [List.mapM_cons, List.mapM_cons, ih]
    simp

theorem distinctNames_zip {α : Type} {names : List String}
    (h : names.Pairwise fun a b => sameName a b = false) (as : List α) :
    DistinctNames (names.zip as) := by
  induction names generalizing as with
  | nil => exact .nil
  | cons name names ih =>
    obtain ⟨hName, hRest⟩ := List.pairwise_cons.mp h
    cases as with
    | nil => exact .nil
    | cons a as =>
      exact List.pairwise_cons.mpr
        ⟨fun entry hEntry => hName _ (List.of_mem_zip hEntry).1, ih hRest as⟩

theorem validate_eq_foldl (registrations : List (String × Validator m)) (record : Record) :
    (ofRegistrations registrations).validate record =
      (fun answers => answers.foldl (fun f a => f.report a.1 a.2.reduceOption) .empty) <$>
        answers registrations record := by
  rw [validate, judgeColumns_eq, rules_ofRegistrations, List.mapM_map]
  rfl

/-! ## The whole validation -/

/-- The messages that were answered about each column, without the columns that have none. -/
def failuresOf (answers : List (String × List (Option String))) : List (String × List String) :=
  (answers.map fun a => (a.1, a.2.reduceOption)).filter fun entry => !entry.2.isEmpty

theorem entries_foldl_report {answers : List (String × List (Option String))}
    (h : DistinctNames answers) :
    (answers.foldl (fun f a => f.report a.1 a.2.reduceOption) Failures.empty).messages.entries =
      failuresOf answers := by
  have hDistinct : DistinctNames (answers.map fun a => (a.1, a.2.reduceOption)) := by
    rwa [DistinctNames, List.pairwise_map]
  have hReports := Failures.foldl_report (f := .empty) (fun _ _ => rfl) hDistinct
  rwa [List.foldl_map] at hReports

theorem isEmpty_reduceOption {α : Type} (as : List (Option α)) :
    as.reduceOption.isEmpty = as.all (·.isNone) := by
  induction as with
  | nil => rfl
  | cons a as ih =>
    cases a <;> simp [List.reduceOption_cons_of_none, List.reduceOption_cons_of_some, ih]

theorem isEmpty_failuresOf (answers : List (String × List (Option String))) :
    (failuresOf answers).isEmpty = answers.all fun a => a.2.all (·.isNone) := by
  induction answers with
  | nil => rfl
  | cons a rest ih =>
    rw [failuresOf, List.map_cons, List.filter_cons, isEmpty_reduceOption, List.all_cons]
    cases a.2.all (·.isNone) with
    | false => rfl
    | true => exact ih

/-- A validation asks every validator that is to see its value, once, and each failure is found: its
messages are those that were answered, under the columns as they were first spelled and in the order
in which they were first registered. A record is valid exactly if there are none. -/
theorem validate_eq (registrations : List (String × Validator m)) (record : Record) :
    (·.messages.entries) <$> (ofRegistrations registrations).validate record =
        failuresOf <$> answers registrations record ∧
      (ofRegistrations registrations).isValid record =
        (fun answers => answers.all fun a => a.2.all (·.isNone)) <$>
          answers registrations record := by
  have hFound : (·.messages.entries) <$> (ofRegistrations registrations).validate record =
      failuresOf <$> answers registrations record := by
    rw [validate_eq_foldl, answers, mapM_under, Functor.map_map, Functor.map_map, Functor.map_map]
    exact congrArg (· <$> _) (funext fun as =>
      entries_foldl_report (distinctNames_zip (pairwise_firstSpellings _) as))
  refine ⟨hFound, ?_⟩
  calc (ofRegistrations registrations).isValid record
      = List.isEmpty <$>
        ((·.messages.entries) <$> (ofRegistrations registrations).validate record) := by
        rw [isValid, Functor.map_map]
        exact bind_pure_comp _ _
    _ = _ := by
        rw [hFound, Functor.map_map]
        exact congrArg (· <$> _) (funext isEmpty_failuresOf)

end Ruleset

/-- Validators of two columns in turn, one of which is spelled in two ways. -/
def sampleRegistrations : List (String × Validator Id) :=
  [("a", .required (some "missing")), ("b", .oneOf ["x"] (some "unknown")),
    ("A", .required none), ("a", .oneOf ["x"] none),
    ("b", .format ⟨some ⟨2, none⟩, none, some "too short"⟩)]

/-- Two columns fail twice each. A validator that does not judge missing values is passed over. -/
theorem Ruleset.validate_eq_sampleRegistrations :
    (Id.run ((ofRegistrations sampleRegistrations).validate (.ofValues [("b", .text "y")]))
      ).messages.entries =
        [("a", ["missing", "This field is required."]), ("b", ["unknown", "too short"])] ∧
      Id.run ((ofRegistrations sampleRegistrations).isValid (.ofValues [("b", .text "y")])) =
        false := by
  have hLower : "A".toLower = "a" := by decide +kernel
  have hFirst : "a".toLower = "a" := by decide +kernel
  have hSecond : "b".toLower = "b" := by decide +kernel
  have hNames : firstSpellings (sampleRegistrations.map (·.1)) = ["a", "b"] := by
    simp [sampleRegistrations, firstSpellings, sameName, hLower, hFirst, hSecond]
  have hOne : registeredFor sampleRegistrations "a" =
      [.required (some "missing"), .required none, .oneOf ["x"] none] := by
    simp [sampleRegistrations, registeredFor, isUnder, sameName, hLower, hFirst, hSecond]
  have hOther : registeredFor sampleRegistrations "b" =
      [.oneOf ["x"] (some "unknown"), .format ⟨some ⟨2, none⟩, none, some "too short"⟩] := by
    simp [sampleRegistrations, registeredFor, isUnder, sameName, hLower, hFirst, hSecond]
  have hFound : failuresOf (Id.run (answers sampleRegistrations (.ofValues [("b", .text "y")]))) =
      [("a", ["missing", "This field is required."]), ("b", ["unknown", "too short"])] := by
    rw [answers, hNames]
    simp only [List.mapM_cons, List.mapM_nil, bind_assoc, pure_bind, Id.run_bind, Id.run_pure, hOne,
      hOther]
    decide +kernel
  have h := validate_eq sampleRegistrations (.ofValues [("b", .text "y")])
  have hEntries := congrArg Id.run h.1
  have hValid := congrArg Id.run h.2
  rw [Id.run_map, Id.run_map, hFound] at hEntries
  rw [Id.run_map, ← isEmpty_failuresOf, hFound] at hValid
  exact ⟨hEntries, hValid⟩

end SqlKit
