import Mathlib.Data.Finmap
import Mathlib.Algebra.Order.BigOperators.Group.Multiset
import Mathlib.Algebra.Order.Ring.Nat

/-!
# Finite maps

Overwriting an entry, and sums of a natural number for every value over the entries.
-/

namespace Eidolon.Library

open Function

namespace FiniteMap

universe u v

variable {Key : Type u} {Value : Type v} (weight : Value → Nat)

/-- The sum of the weights of all values. -/
def total (table : Finmap fun _ : Key => Value) : Nat :=
  (table.entries.map fun entry => weight entry.2).sum

variable [DecidableEq Key] {table : Finmap fun _ : Key => Value} {key : Key} {held : Value}

theorem insert_of_lookup (found : table.lookup key = some held) :
    table.insert key held = table := by
  apply Finmap.ext_lookup
  intro other
  by_cases same : other = key
  · rw [same, Finmap.lookup_insert, found]
  rw [Finmap.lookup_insert_of_ne _ same]

theorem lookup_insert_eq_update (table : Finmap fun _ : Key => Value) (key : Key) (value : Value) :
    (fun other => (table.insert key value).lookup other) =
      Function.update (fun other => table.lookup other) key (some value) := by
  funext other
  by_cases same : other = key
  · rw [same, Finmap.lookup_insert, update_self]
  rw [Finmap.lookup_insert_of_ne _ same, update_of_ne same]

theorem lookup_erase_eq_update (table : Finmap fun _ : Key => Value) (key : Key) :
    (fun other => (table.erase key).lookup other) =
      Function.update (fun other => table.lookup other) key none := by
  funext other
  by_cases same : other = key
  · rw [same, Finmap.lookup_erase, update_self]
  rw [Finmap.lookup_erase_ne same, update_of_ne same]

theorem total_insert_of_notMem (absent : key ∉ table) (value : Value) :
    total weight (table.insert key value) = weight value + total weight table := by
  rw [total, Finmap.entries_insert_of_notMem absent, Multiset.map_cons, Multiset.sum_cons]
  rfl

theorem total_of_lookup (found : table.lookup key = some held) :
    total weight table = weight held + total weight (table.erase key) := by
  have restored : (table.erase key).insert key held = table := by
    apply Finmap.ext_lookup
    intro other
    by_cases same : other = key
    · rw [same, Finmap.lookup_insert, found]
    rw [Finmap.lookup_insert_of_ne _ same, Finmap.lookup_erase_ne same]
  have absent : key ∉ table.erase key := Finmap.notMem_erase_self
  rw [← total_insert_of_notMem weight absent held, restored]

theorem total_insert (found : table.lookup key = some held) (value : Value) :
    total weight (table.insert key value) + weight held = total weight table + weight value := by
  have sameRest : (table.insert key value).erase key = table.erase key := by
    apply Finmap.ext_lookup
    intro other
    by_cases same : other = key
    · rw [same, Finmap.lookup_erase, Finmap.lookup_erase]
    rw [Finmap.lookup_erase_ne same, Finmap.lookup_erase_ne same, Finmap.lookup_insert_of_ne _ same]
  have before := total_of_lookup weight found
  have after := total_of_lookup weight (Finmap.lookup_insert table (a := key) (b := value))
  rw [sameRest] at after
  omega

omit [DecidableEq Key] in
theorem total_mono {lighter heavier : Value → Nat} (le : ∀ value, lighter value ≤ heavier value)
    (table : Finmap fun _ : Key => Value) : total lighter table ≤ total heavier table :=
  Multiset.sum_map_le_sum_map _ _ fun entry _ => le entry.2

section Select

variable {New : Type*} (keep : Key → Value → Bool) (convert : Value → New)

variable (entries : Multiset (Sigma fun _ : Key => Value))

/-- The entries that are kept, with their values converted. -/
def selected : Multiset (Sigma fun _ : Key => New) :=
  (entries.filter fun entry => keep entry.1 entry.2 = true).map fun entry =>
    ⟨entry.1, convert entry.2⟩

omit [DecidableEq Key] in
theorem keys_selected_le : (selected keep convert entries).keys ≤ entries.keys := by
  rw [selected, Multiset.keys, Multiset.map_map]
  exact Multiset.map_le_map (Multiset.filter_le _ entries)

/-- The map of the entries that are kept, with their values converted. -/
def select (table : Finmap fun _ : Key => Value) : Finmap fun _ : Key => New where
  entries := selected keep convert table.entries
  nodupKeys := Multiset.nodup_keys.mp
    (Multiset.nodup_of_le (keys_selected_le keep convert table.entries)
      (Multiset.nodup_keys.mpr table.nodupKeys))

theorem lookup_select_eq_some_iff {keep : Key → Value → Bool} {convert : Value → New}
    {table : Finmap fun _ : Key => Value} {key : Key} {value : New} :
    (select keep convert table).lookup key = some value ↔
      ∃ held, table.lookup key = some held ∧ keep key held = true ∧ convert held = value := by
  rw [Finmap.lookup_eq_some_iff]
  simp only [select, selected]
  rw [Multiset.mem_map]
  constructor
  · intro selectedHere
    rcases selectedHere with ⟨⟨place, held⟩, kept, same⟩
    rw [Multiset.mem_filter] at kept
    cases same
    exact ⟨held, Finmap.lookup_eq_some_iff.mpr kept.1, kept.2, rfl⟩
  intro heldHere
  rcases heldHere with ⟨held, found, kept, rfl⟩
  exact ⟨⟨key, held⟩, Multiset.mem_filter.mpr ⟨Finmap.lookup_eq_some_iff.mp found, kept⟩, rfl⟩

theorem mem_select_iff {keep : Key → Value → Bool} {convert : Value → New}
    {table : Finmap fun _ : Key => Value} {key : Key} :
    key ∈ select keep convert table ↔
      ∃ held, table.lookup key = some held ∧ keep key held = true := by
  rw [Finmap.mem_iff]
  constructor
  · intro found
    rcases found with ⟨value, found⟩
    rcases lookup_select_eq_some_iff.mp found with ⟨held, heldHere, kept, _⟩
    exact ⟨held, heldHere, kept⟩
  intro found
  rcases found with ⟨held, heldHere, kept⟩
  exact ⟨convert held, lookup_select_eq_some_iff.mpr ⟨held, heldHere, kept, rfl⟩⟩

end Select

end FiniteMap

end Eidolon.Library
