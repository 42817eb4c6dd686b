import SqlKit.Proofs.Schema.Marks
import SqlKit.Text.NameMap

/-!
# Names as they were first spelled

A map with names for keys is filled entry by entry, by additions and changes under names in any
letter case. `firstSpellings` is the list of its names then: every name once, as it was first
spelled and in the order of the first uses (`NameMap.names_foldl_alter`). What stands under a name
depends on the changes under it alone, in their order (`NameMap.find?_foldl_alter`). With its names
and with what stands under each of them a map is known completely (`NameMap.eq_of_names_of_find?`).
-/

namespace SqlKit

open Text

/-! ## Lists of names -/

/-- Every name of a list once, in the spelling in which it first stands there. -/
def firstSpellings : List String → List String
  | [] => []
  | name :: rest => name :: (firstSpellings rest).filter fun other => !sameName name other

theorem pairwise_firstSpellings (names : List String) :
    (firstSpellings names).Pairwise fun a b => sameName a b = false := by
  induction names with
  | nil => exact .nil
  | cons name rest ih =>
    refine List.pairwise_cons.mpr ⟨fun other hOther => ?_, ih.filter _⟩
    exact Bool.not_eq_true' _ ▸ (List.mem_filter.mp hOther).2

theorem hasName_filter_of_not {name other : String} (h : sameName name other = false)
    (names : List String) :
    hasName (names.filter fun n => !sameName name n) other = hasName names other := by
  induction names with
  | nil => rfl
  | cons n names ih =>
    rw [List.filter_cons, hasName_cons]
    cases hSame : sameName name n with
    | false => rw [Bool.not_false, if_pos rfl, hasName_cons, ih]
    | true =>
      have hOther : sameName n other = false := by
        rw [← h, sameName, sameName, sameName_iff.mp hSame]
      rw [Bool.not_true, if_neg Bool.false_ne_true, ih, hOther, Bool.false_or]

@[simp] theorem hasName_firstSpellings (names : List String) (n : String) :
    hasName (firstSpellings names) n = hasName names n := by
  induction names with
  | nil => rfl
  | cons name rest ih =>
    rw [firstSpellings, hasName_cons, hasName_cons]
    cases hSame : sameName name n with
    | true => rw [Bool.true_or, Bool.true_or]
    | false => rw [hasName_filter_of_not hSame, ih]

/-- One more name is left out if it was there before. -/
theorem firstSpellings_concat (names : List String) (n : String) : firstSpellings (names ++ [n]) =
    if hasName names n = true then firstSpellings names else firstSpellings names ++ [n] := by
  induction names with
  | nil => rfl
  | cons name rest ih =>
    rw [List.cons_append, firstSpellings, firstSpellings, ih, hasName_cons]
    cases hSame : sameName name n <;> cases hRest : hasName rest n <;> simp [hSame]

theorem firstSpellings_append (names others : List String) : firstSpellings (names ++ others) =
    firstSpellings names ++ (firstSpellings others).filter fun n => !hasName names n := by
  induction names with
  | nil => exact (List.filter_eq_self.mpr fun _ _ => rfl).symm
  | cons name rest ih =>
    rw [List.cons_append, firstSpellings, firstSpellings, ih, List.filter_append,
      List.filter_filter, List.cons_append]
    simp only [hasName_cons, Bool.not_or]

/-- Names that differ are left as they are. -/
theorem firstSpellings_of_pairwise {names : List String}
    (h : names.Pairwise fun a b => sameName a b = false) : firstSpellings names = names := by
  induction names with
  | nil => rfl
  | cons name rest ih =>
    obtain ⟨hName, hRest⟩ := List.pairwise_cons.mp h
    rw [firstSpellings, ih hRest, List.filter_eq_self.mpr]
    exact fun other hOther => by rw [hName other hOther, Bool.not_false]

@[simp] theorem firstSpellings_firstSpellings (names : List String) :
    firstSpellings (firstSpellings names) = firstSpellings names :=
  firstSpellings_of_pairwise (pairwise_firstSpellings names)

@[simp] theorem firstSpellings_append_left (names others : List String) :
    firstSpellings (firstSpellings names ++ others) = firstSpellings (names ++ others) := by
  simp only [firstSpellings_append, firstSpellings_firstSpellings, hasName_firstSpellings]

@[simp] theorem firstSpellings_append_right (names others : List String) :
    firstSpellings (names ++ firstSpellings others) = firstSpellings (names ++ others) := by
  simp only [firstSpellings_append, firstSpellings_firstSpellings]

/-! ## Entries -/

/-- What stands under a name, in order. -/
def valuesUnder {α : Type} (name : String) (entries : List (String × α)) : List α :=
  (entries.filter (isUnder name)).map (·.2)

theorem valuesUnder_cons {α : Type} (name : String) (entry : String × α)
    (entries : List (String × α)) : valuesUnder name (entry :: entries) =
      if sameName entry.1 name then entry.2 :: valuesUnder name entries
      else valuesUnder name entries := by
  rw [valuesUnder, List.filter_cons, isUnder]
  split <;> rfl

theorem valuesUnder_append {α : Type} (name : String) (entries others : List (String × α)) :
    valuesUnder name (entries ++ others) = valuesUnder name entries ++ valuesUnder name others := by
  rw [valuesUnder, List.filter_append, List.map_append]
  rfl

theorem valuesUnder_eq_nil_iff {α : Type} {name : String} {entries : List (String × α)} :
    valuesUnder name entries = [] ↔ hasName (entries.map (·.1)) name = false := by
  rw [valuesUnder, List.map_eq_nil_iff, List.filter_eq_nil_iff, hasName, List.any_map,
    List.any_eq_false]
  rfl

/-- Of distinct names, one at most is the name in question. -/
theorem valuesUnder_of_distinct {α : Type} {entries : List (String × α)}
    (h : DistinctNames entries) (name : String) :
    valuesUnder name entries = ((entries.find? (isUnder name)).map (·.2)).toList := by
  induction entries with
  | nil => rfl
  | cons entry rest ih =>
    obtain ⟨hEntry, hRest⟩ := List.pairwise_cons.mp h
    rw [valuesUnder_cons, ih hRest, List.find?_cons, isUnder]
    cases hSame : sameName entry.1 name with
    | false => rfl
    | true =>
      have hNone : rest.find? (isUnder name) = none := by
        refine List.find?_eq_none.mpr fun other hOther => ?_
        rw [isUnder, ← sameName_congr_right hSame, sameName_comm, hEntry other hOther]
        exact Bool.false_ne_true
      rw [if_pos rfl, hNone]
      rfl

namespace NameMap

variable {α : Type} {name : String} {f : Option α → α} {entries : List (String × α)}

/-- A new name comes last. -/
theorem alterEntries_of_new (h : hasName (entries.map (·.1)) name = false) :
    alterEntries name f entries = entries ++ [(name, f none)] := by
  induction entries with
  | nil => rfl
  | cons entry rest ih =>
    rw [List.map_cons, hasName_cons, Bool.or_eq_false_iff] at h
    rw [alterEntries, isUnder, h.1, if_neg Bool.false_ne_true, ih h.2, List.cons_append]

/-- Under a name that is there, only its entry changes. -/
theorem alterEntries_of_known (hDistinct : DistinctNames entries)
    (h : hasName (entries.map (·.1)) name = true) : alterEntries name f entries =
      entries.map fun entry => if isUnder name entry then (entry.1, f (some entry.2))
        else entry := by
  induction entries with
  | nil => cases h
  | cons entry rest ih =>
    obtain ⟨hEntry, hRest⟩ := List.pairwise_cons.mp hDistinct
    rw [alterEntries, List.map_cons]
    cases hUnder : isUnder name entry with
    | false =>
      rw [List.map_cons, hasName_cons, ← isUnder, hUnder, Bool.false_or] at h
      rw [if_neg Bool.false_ne_true, if_neg Bool.false_ne_true, ih hRest h]
    | true =>
      have hOthers : ∀ other ∈ rest, isUnder name other = false := by
        intro other hOther
        rw [isUnder, sameName_comm, ← hEntry other hOther, sameName, sameName,
          sameName_iff.mp hUnder]
      rw [if_pos rfl, if_pos rfl, List.map_congr_left (g := id) fun other hOther => by
        rw [hOthers other hOther, if_neg Bool.false_ne_true, id], List.map_id]

/-- Two changes under one name are one. -/
theorem alter_alter (m : NameMap α) (name : String) (f g : Option α → α) :
    (m.alter name f).alter name g = m.alter name fun earlier => g (some (f earlier)) := by
  rw [alter, alter, alter, mk.injEq]
  dsimp only
  induction m.entries with
  | nil => simp [alterEntries, isUnder]
  | cons entry rest ih =>
    rw [alterEntries, alterEntries]
    split
    · next hUnder =>
      rw [alterEntries]
      exact if_pos hUnder
    · next hOther => rw [alterEntries, if_neg hOther, ih]

/-! ### Names -/

theorem pairwise_names (m : NameMap α) : m.names.Pairwise fun a b => sameName a b = false :=
  List.pairwise_map.mpr m.distinct

/-- A change keeps the names as they are spelled, and a new name comes last. -/
theorem names_alter (m : NameMap α) (name : String) (f : Option α → α) :
    (m.alter name f).names = firstSpellings (m.names ++ [name]) := by
  have hNames : (m.alter name f).names = (alterEntries name f m.entries).map (·.1) := rfl
  rw [hNames, firstSpellings_concat, firstSpellings_of_pairwise m.pairwise_names]
  split
  · next hKnown =>
    rw [alterEntries_of_known m.distinct hKnown, List.map_map, names]
    refine List.map_congr_left fun entry _ => ?_
    rw [Function.comp_apply]
    split <;> rfl
  · next hNew =>
    rw [alterEntries_of_new (Bool.eq_false_iff.mpr hNew), List.map_append]
    rfl

/-- After a run of changes the names are those that were there, and behind them the others as they
were first spelled. -/
theorem names_foldl_alter {β : Type} (f : β → Option α → α) (m : NameMap α)
    (changes : List (String × β)) :
    (changes.foldl (fun m c => m.alter c.1 (f c.2)) m).names =
      firstSpellings (m.names ++ changes.map (·.1)) := by
  induction changes generalizing m with
  | nil =>
    rw [List.foldl_nil, List.map_nil, List.append_nil, firstSpellings_of_pairwise m.pairwise_names]
  | cons c changes ih =>
    rw [List.foldl_cons, ih, names_alter, firstSpellings_append_left, List.append_assoc,
      List.map_cons, List.singleton_append]

/-! ### Values -/

theorem find?_congr {a b : String} (h : sameName a b = true) (m : NameMap α) :
    m.find? a = m.find? b := by
  have hUnder : isUnder (α := α) a = isUnder b := funext fun entry => sameName_congr_right h entry.1
  rw [find?, find?, hUnder]

theorem find?_of_mem {m : NameMap α} {entry : String × α} (h : entry ∈ m.entries) :
    m.find? entry.1 = some entry.2 := by
  obtain ⟨before, behind, hEntries⟩ := List.append_of_mem h
  have hDistinct := m.distinct
  rw [hEntries] at hDistinct
  have hFirst : m.entries.find? (isUnder entry.1) = some entry := by
    refine List.find?_eq_some_iff_append.mpr
      ⟨sameName_refl _, before, behind, hEntries, fun e he => ?_⟩
    rw [isUnder, (List.pairwise_append.mp hDistinct).2.2 e he entry List.mem_cons_self,
      Bool.not_false]
  rw [find?, hFirst, Option.map_some]

/-- A run of changes comes to the changes under each name, one after another. -/
theorem find?_foldl_alter {β : Type} (f : β → Option α → α) (m : NameMap α)
    (changes : List (String × β)) (name : String) :
    (changes.foldl (fun m c => m.alter c.1 (f c.2)) m).find? name =
      (valuesUnder name changes).foldl (fun earlier b => some (f b earlier)) (m.find? name) := by
  induction changes generalizing m with
  | nil => rfl
  | cons c changes ih =>
    rw [List.foldl_cons, ih, find?_alter, valuesUnder_cons]
    split
    · next hSame => rw [find?_congr hSame, List.foldl_cons]
    · rfl

/-- The entries of a map, where it is known what stands under each name. -/
theorem entries_eq_map {m : NameMap α} {f : String → α}
    (h : ∀ name ∈ m.names, m.find? name = some (f name)) :
    m.entries = m.names.map fun name => (name, f name) := by
  rw [names, List.map_map]
  refine (List.map_id _).symm.trans (List.map_congr_left fun e he => Prod.ext rfl ?_)
  exact Option.some.inj ((find?_of_mem he).symm.trans (h e.1 (List.mem_map_of_mem he)))

/-- Maps are equal if their names are spelled alike and the same stands under them. -/
theorem eq_of_names_of_find? {m n : NameMap α} (hNames : m.names = n.names)
    (hFind : ∀ name, m.find? name = n.find? name) : m = n := by
  have hEntries (m : NameMap α) :
      m.entries.map (fun e => (e.1, some e.2)) = m.names.map fun name => (name, m.find? name) := by
    rw [names, List.map_map]
    exact List.map_congr_left fun e he => by rw [Function.comp_apply, find?_of_mem he]
  have hSame : m.entries = n.entries := by
    refine (List.map_inj_right fun a b h => ?_).mp
      ((hEntries m).trans (Eq.trans ?_ (hEntries n).symm))
    · obtain ⟨hName, hValue⟩ := Prod.mk.inj h
      exact Prod.ext hName (Option.some.inj hValue)
    · rw [hNames]
      exact List.map_congr_left fun name _ => by rw [hFind]
  cases m
  cases n
  cases hSame
  rfl

end NameMap

end SqlKit
