import SqlKit.Text.Case

/-!
# Maps with names for keys

A map keeps its entries in the order in which their names were first used, and under the spelling of
that first use. Names are equal up to letter case, and no two entries of a map stand under one name.

`find?_alter` is the law of the map: a changed entry is found under every spelling of its name, and
the other entries remain.
-/

namespace SqlKit

open Text

/-- Whether an entry stands under this name. -/
def isUnder {α : Type} (name : String) (entry : String × α) : Bool := sameName entry.1 name

/-- No two entries stand under one name. -/
def DistinctNames {α : Type} (entries : List (String × α)) : Prop :=
  entries.Pairwise fun a b => sameName a.1 b.1 = false

/-- Entries under names. -/
structure NameMap (α : Type) where
  entries : List (String × α)
  distinct : DistinctNames entries
  deriving DecidableEq

namespace NameMap

variable {α : Type}

/-- No entries. -/
def empty : NameMap α := ⟨[], .nil⟩

instance : Inhabited (NameMap α) := ⟨empty⟩

/-- The entry under a name. -/
def find? (m : NameMap α) (name : String) : Option α :=
  (m.entries.find? (isUnder name)).map (·.2)

/-- The names, as they were first spelled. -/
def names (m : NameMap α) : List String := m.entries.map (·.1)

/-! ## Change -/

/-- Entries with the one under a name changed, or with a new one behind them. -/
def alterEntries (name : String) (f : Option α → α) : List (String × α) → List (String × α)
  | [] => [(name, f none)]
  | entry :: rest =>
    if isUnder name entry then (entry.1, f (some entry.2)) :: rest
    else entry :: alterEntries name f rest

/-- After a change every entry stands under a name that was there, or under the new one. -/
theorem name_of_mem_alterEntries {name : String} {f : Option α → α} {entries : List (String × α)}
    {entry : String × α} (hEntry : entry ∈ alterEntries name f entries) :
    entry.1 = name ∨ ∃ earlier ∈ entries, entry.1 = earlier.1 := by
  induction entries with
  | nil =>
    obtain rfl := List.mem_singleton.1 hEntry
    exact Or.inl rfl
  | cons first rest ih =>
    unfold alterEntries at hEntry
    split at hEntry
    · rcases List.mem_cons.1 hEntry with rfl | hRest
      · exact Or.inr ⟨first, List.mem_cons_self, rfl⟩
      · exact Or.inr ⟨entry, List.mem_cons_of_mem _ hRest, rfl⟩
    · rcases List.mem_cons.1 hEntry with rfl | hRest
      · exact Or.inr ⟨entry, List.mem_cons_self, rfl⟩
      · rcases ih hRest with hName | ⟨earlier, hEarlier, hName⟩
        · exact Or.inl hName
        · exact Or.inr ⟨earlier, List.mem_cons_of_mem _ hEarlier, hName⟩

theorem distinctNames_alterEntries (name : String) (f : Option α → α)
    {entries : List (String × α)} (h : DistinctNames entries) :
    DistinctNames (alterEntries name f entries) := by
  induction entries with
  | nil => exact List.pairwise_singleton _ _
  | cons first rest ih =>
    obtain ⟨hFirst, hRest⟩ := List.pairwise_cons.1 h
    unfold alterEntries
    split
    · exact List.pairwise_cons.2 ⟨hFirst, hRest⟩
    · next hOther =>
      refine List.pairwise_cons.2 ⟨?_, ih hRest⟩
      intro entry hEntry
      rcases name_of_mem_alterEntries hEntry with hName | ⟨earlier, hEarlier, hName⟩
      · rw [hName]
        exact Bool.eq_false_iff.2 hOther
      · rw [hName]
        exact hFirst earlier hEarlier

/-- The map with a new entry under a name, made from the one that was there. -/
def alter (m : NameMap α) (name : String) (f : Option α → α) : NameMap α :=
  ⟨alterEntries name f m.entries, distinctNames_alterEntries name f m.distinct⟩

/-- The map with this entry under a name. -/
def set (m : NameMap α) (name : String) (a : α) : NameMap α := m.alter name fun _ => a

/-- The map that arises when entries are set one after another. -/
def ofEntries (entries : List (String × α)) : NameMap α :=
  entries.foldl (fun m entry => m.set entry.1 entry.2) empty

/-! ## Laws -/

@[simp] theorem find?_empty (name : String) : (empty : NameMap α).find? name = none := rfl

private theorem find?_alterEntries (name other : String) (f : Option α → α)
    (entries : List (String × α)) :
    ((alterEntries name f entries).find? (isUnder other)).map (·.2) =
      if sameName name other then some (f ((entries.find? (isUnder name)).map (·.2)))
      else (entries.find? (isUnder other)).map (·.2) := by
  induction entries with
  | nil => by_cases h : sameName name other <;> simp [alterEntries, isUnder, h]
  | cons entry rest ih =>
    by_cases h : sameName entry.1 name
    · have hOther : sameName entry.1 other = sameName name other := by
        simp only [sameName, sameName_iff.1 h]
      by_cases h' : sameName name other <;> simp [alterEntries, isUnder, h, h', hOther]
    · by_cases h' : sameName entry.1 other
      · have hName : sameName name other = false := by
          rw [Bool.eq_false_iff]
          intro hSame
          exact h (sameName_trans h' (by rw [sameName_comm]; exact hSame))
        simp [alterEntries, isUnder, h, h', hName]
      · simp [alterEntries, isUnder, h, h', ih]

/-- A changed entry is found under every spelling of its name, and the others remain. -/
theorem find?_alter (m : NameMap α) (name other : String) (f : Option α → α) :
    (m.alter name f).find? other =
      if sameName name other then some (f (m.find? name)) else m.find? other :=
  find?_alterEntries name other f m.entries

theorem find?_set (m : NameMap α) (name other : String) (a : α) :
    (m.set name a).find? other = if sameName name other then some a else m.find? other :=
  m.find?_alter name other fun _ => a

end NameMap

end SqlKit
