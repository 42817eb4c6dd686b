import Std.Data.TreeMap.Lemmas

/-!
# Memory for what was made before

A table with a fixed number of slots. The slot of a key is its hash, and a slot keeps the last
entry that came to it, so an older entry is forgotten when another key takes its slot. What was put
last is found (`find?_put`), and what was put before may be.
-/

namespace SqlKit

/-- A table from keys to numbers: the number of its slots, and the entries of those in use. -/
structure Memo where
  size : Nat
  slots : Std.TreeMap Nat (List Nat × Nat)

namespace Memo

/-- The table without entries. -/
def ofSize (size : Nat) : Memo := ⟨size, ∅⟩

/-- The hash of a key: the numbers of it are mixed in one after another, modulo two to the 64. -/
def hash (key : List Nat) : UInt64 :=
  key.foldl (fun h n => (h ^^^ UInt64.ofNat n) * 1099511628211) 14695981039346656037

/-- The slot of a key. -/
def slotOf (m : Memo) (key : List Nat) : Nat := (hash key).toNat % m.size

/-- The number that was put under a key, unless it is forgotten. -/
def find? (m : Memo) (key : List Nat) : Option Nat :=
  match m.slots[m.slotOf key]? with
  | some entry => if entry.1 = key then some entry.2 else none
  | none => none

/-- Puts a number under a key. -/
def put (m : Memo) (key : List Nat) (n : Nat) : Memo :=
  { m with slots := m.slots.insert (m.slotOf key) (key, n) }

theorem find?_put (m : Memo) (key : List Nat) (n : Nat) : (m.put key n).find? key = some n := by
  have hslot : (m.put key n).slotOf key = m.slotOf key := rfl
  rw [find?, hslot]
  simp [put]

end Memo

end SqlKit
