import Eidolon.Library.KeyedList
import Eidolon.Library.SlotArray

/-!
# Slot arrays looked up by a key

An array of slots whose values have different keys is a table from keys to values.  This is
what the writes of one slot do to that table.
-/

namespace Eidolon.Library

open List

universe u v

namespace SlotArray

variable {capacity : Nat} {α : Type u} {κ : Type v}

def DistinctKeys (key : α → κ) (array : SlotArray capacity α) : Prop :=
  (array.entries.map key).Nodup

variable {value : α} {index : Nat}

theorem distinctKeys_set_none {key : α → κ} {array : SlotArray capacity α}
    (distinct : array.DistinctKeys key) (held : array.get? index = some value) :
    (array.set index none).DistinctKeys key := by
  have whole := ((entries_set_none held).map key).nodup_iff.mp distinct
  exact (List.nodup_cons.mp whole).2

variable [DecidableEq κ]

/-- The value with a key. -/
def lookup (key : α → κ) (array : SlotArray capacity α) (wanted : κ) : Option α :=
  KeyedList.find key array.entries wanted

variable {key : α → κ} {array : SlotArray capacity α} {wanted : κ}

theorem lookup_eq_none_iff :
    array.lookup key wanted = none ↔ ∀ value ∈ array.entries, key value ≠ wanted :=
  KeyedList.find_eq_none_iff

theorem lookup_eq_some_iff (distinct : array.DistinctKeys key) :
    array.lookup key wanted = some value ↔ value ∈ array.entries ∧ key value = wanted :=
  KeyedList.find_eq_some_iff distinct

theorem lookup_of_get? (distinct : array.DistinctKeys key) (held : array.get? index = some value) :
    array.lookup key (key value) = some value :=
  (lookup_eq_some_iff distinct).mpr ⟨mem_entries_of_get? held, rfl⟩

theorem findFirst?_of_lookup {test : α → Bool}
    (isTest : ∀ value, test value = true ↔ key value = wanted) :
    (array.lookup key wanted = none → array.findFirst? test = none) ∧
      ∀ value, array.DistinctKeys key → array.lookup key wanted = some value →
        ∃ index, array.findFirst? test = some (index, value) ∧ array.get? index = some value := by
  constructor
  · intro missing
    rw [findFirst?_eq_none_iff]
    intro value member
    rw [← Bool.not_eq_true, isTest]
    exact lookup_eq_none_iff.mp missing value member
  intro value distinct found
  obtain ⟨member, named⟩ := (lookup_eq_some_iff distinct).mp found
  rcases scan : array.findFirst? test with _ | ⟨index, other⟩
  · have fails := findFirst?_eq_none_iff.mp scan value member
    rw [(isTest value).mpr named] at fails
    cases fails
  obtain ⟨held, passes, _⟩ := findFirst?_eq_some scan
  have otherFound : array.lookup key wanted = some other :=
    (lookup_eq_some_iff distinct).mpr ⟨mem_entries_of_get? held, (isTest other).mp passes⟩
  rw [found] at otherFound
  cases otherFound
  exact ⟨index, rfl, held⟩

theorem lookup_set_none (distinct : array.DistinctKeys key) (held : array.get? index = some value)
    (wanted : κ) :
    (array.set index none).lookup key wanted =
      if key value = wanted then none else array.lookup key wanted := by
  have whole := entries_set_none held
  have names := (whole.map key).nodup_iff.mp distinct
  rw [map_cons, nodup_cons] at names
  rw [lookup, lookup, KeyedList.find_perm distinct whole, KeyedList.find_cons]
  by_cases asked : key value = wanted
  · rw [if_pos asked, KeyedList.find_eq_none_iff]
    intro other member same
    exact names.1 (List.mem_map.mpr ⟨other, member, same.trans asked.symm⟩)
  rw [if_neg asked, if_neg asked]

theorem set_some_spec (distinct : array.DistinctKeys key) {index : Nat} {value changed : α}
    (held : array.get? index = some value) (same : key changed = key value) :
    (array.set index (some changed)).DistinctKeys key ∧
      ∀ wanted, (array.set index (some changed)).lookup key wanted =
        if key value = wanted then some changed else array.lookup key wanted := by
  obtain ⟨rest, whole, written⟩ := array.exists_rest (lt_of_get? held)
  rw [held] at whole
  have changedWhole : (array.set index (some changed)).entries.Perm (changed :: rest) :=
    written (some changed)
  have oldWhole : array.entries.Perm (value :: rest) := whole
  have names := (oldWhole.map key).nodup_iff.mp distinct
  have changedDistinct : (array.set index (some changed)).DistinctKeys key := by
    rw [DistinctKeys, (changedWhole.map key).nodup_iff, map_cons, same]
    exact names
  refine ⟨changedDistinct, ?_⟩
  intro wanted
  rw [lookup, lookup, KeyedList.find_perm changedDistinct changedWhole,
    KeyedList.find_perm distinct oldWhole, KeyedList.find_cons, KeyedList.find_cons, same]
  by_cases asked : key value = wanted
  · rw [if_pos asked, if_pos asked]
  rw [if_neg asked, if_neg asked, if_neg asked]

theorem fillFirst?_spec (distinct : array.DistinctKeys key) {filled : SlotArray capacity α}
    (found : array.fillFirst? value = some filled) (fresh : array.lookup key (key value) = none) :
    filled.DistinctKeys key ∧ ∀ wanted, filled.lookup key wanted =
        if key value = wanted then some value else array.lookup key wanted := by
  have whole := fillFirst?_entries found
  have filledDistinct : filled.DistinctKeys key := by
    rw [DistinctKeys, (whole.map key).nodup_iff, map_cons, nodup_cons]
    refine ⟨?_, distinct⟩
    intro member
    obtain ⟨other, present, same⟩ := List.mem_map.mp member
    exact lookup_eq_none_iff.mp fresh other present same
  refine ⟨filledDistinct, ?_⟩
  intro wanted
  rw [lookup, KeyedList.find_perm filledDistinct whole, KeyedList.find_cons]
  rfl

end SlotArray

end Eidolon.Library
