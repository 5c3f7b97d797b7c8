import Mathlib.Data.List.Induction
import Mathlib.Data.List.Nodup
import Mathlib.Data.List.Perm.Subperm

/-!
# Tallies

A tally goes through items and keeps, for each key, the first item with the key and the
number of items with it.
-/

namespace Eidolon.Library

open List

universe u v

variable {α : Type u} {κ : Type v} [DecidableEq κ]

namespace Tally

def count (key : α → κ) : List (α × Nat) → α → List (α × Nat)
  | [], item => [(item, 1)]
  | (first, number) :: rest, item =>
    if key first = key item then
      (first, number + 1) :: rest
    else
      (first, number) :: count key rest item

variable (key : α → κ)

def tally (items : List α) : List (α × Nat) :=
  items.foldl (count key) []

/-- The entry of a key. -/
def lookup (entries : List (α × Nat)) (wanted : κ) : Option (α × Nat) :=
  entries.find? fun entry => decide (key entry.1 = wanted)

def withKey (items : List α) (wanted : κ) : List α :=
  items.filter fun item => decide (key item = wanted)

variable {key : α → κ} {wanted : κ}

theorem mem_withKey {items : List α} {item : α} :
    item ∈ withKey key items wanted ↔ item ∈ items ∧ key item = wanted := by
  simp [withKey]

theorem key_of_lookup {entries : List (α × Nat)} {first : α} {number : Nat}
    (found : lookup key entries wanted = some (first, number)) : key first = wanted := by
  have here := find?_some found
  simpa using here

theorem withKey_append (key : α → κ) (first second : List α) (wanted : κ) :
    withKey key (first ++ second) wanted = withKey key first wanted ++ withKey key second wanted :=
  filter_append _ _

theorem lookup_count (key : α → κ) (entries : List (α × Nat)) (item : α) (wanted : κ) :
    lookup key (count key entries item) wanted =
      if key item = wanted then
        some (((lookup key entries wanted).map Prod.fst).getD item,
          ((lookup key entries wanted).map Prod.snd).getD 0 + 1)
      else
        lookup key entries wanted := by
  induction entries with
  | nil =>
    by_cases here : key item = wanted
    · simp [count, lookup, here]
    simp [count, lookup, here]
  | cons entry rest ih =>
    rcases entry with ⟨first, number⟩
    rw [count]
    by_cases same : key first = key item
    · by_cases here : key item = wanted
      · simp [lookup, same, here]
      simp [lookup, same, here]
    rw [if_neg same]
    by_cases firstHere : key first = wanted
    · have elsewhere : key item ≠ wanted := fun here => same (firstHere.trans here.symm)
      simp [lookup, firstHere, elsewhere]
    have skip : ∀ number rest, lookup key ((first, number) :: rest) wanted =
        lookup key rest wanted := by
      simp [lookup, firstHere]
    rw [skip, skip, ih]

theorem lookup_tally (key : α → κ) (items : List α) (wanted : κ) :
    lookup key (tally key items) wanted = (withKey key items wanted).head?.map
        fun first => (first, (withKey key items wanted).length) := by
  induction items using List.reverseRecOn with
  | nil => rfl
  | append_singleton items item ih =>
    have stepped : tally key (items ++ [item]) = count key (tally key items) item := by
      rw [tally, foldl_append]
      rfl
    rw [stepped, lookup_count, ih, withKey_append]
    by_cases here : key item = wanted
    · have last : withKey key [item] wanted = [item] := by
        simp [withKey, here]
      rw [if_pos here, last]
      cases withKey key items wanted with
      | nil => rfl
      | cons first more => simp
    have last : withKey key [item] wanted = [] := by
      simp [withKey, here]
    rw [if_neg here, last, append_nil]

private theorem keys_count (key : α → κ) (entries : List (α × Nat)) (item : α) :
    (count key entries item).map (fun entry => key entry.1) =
        entries.map (fun entry => key entry.1) ∧
        key item ∈ entries.map (fun entry => key entry.1) ∨
      (count key entries item).map (fun entry => key entry.1) =
        entries.map (fun entry => key entry.1) ++ [key item] ∧
        key item ∉ entries.map (fun entry => key entry.1) := by
  induction entries with
  | nil => simp [count]
  | cons entry rest ih =>
    rcases entry with ⟨first, number⟩
    rw [count]
    by_cases same : key first = key item
    · simp [same]
    rw [if_neg same]
    rcases ih with known | new
    · left
      simp only [map_cons, known.1, mem_cons, known.2, or_true, and_self]
    right
    refine ⟨by simp only [map_cons, new.1, cons_append], ?_⟩
    rw [map_cons, mem_cons]
    intro either
    rcases either with here | later
    · exact same here.symm
    exact new.2 later

theorem nodup_keys_tally (key : α → κ) (items : List α) :
    ((tally key items).map fun entry => key entry.1).Nodup := by
  induction items using List.reverseRecOn with
  | nil => exact nodup_nil
  | append_singleton items item ih =>
    have stepped : tally key (items ++ [item]) = count key (tally key items) item := by
      rw [tally, foldl_append]
      rfl
    rw [stepped]
    rcases keys_count key (tally key items) item with known | new
    · rw [known.1]
      exact ih
    rw [new.1]
    refine nodup_append.mpr ⟨ih, by simp, ?_⟩
    intro first firstMember second secondMember same
    rw [mem_singleton.mp secondMember] at same
    exact new.2 (same ▸ firstMember)

theorem mem_keys_tally {items : List α} (present : withKey key items wanted ≠ []) :
    wanted ∈ (tally key items).map fun entry => key entry.1 := by
  obtain ⟨first, more, split⟩ := exists_cons_of_ne_nil present
  have found := lookup_tally key items wanted
  rw [split] at found
  have member := mem_of_find?_eq_some found
  have here := find?_some found
  simp only [decide_eq_true_eq] at here
  exact mem_map.mpr ⟨_, member, here⟩

end Tally

end Eidolon.Library

/-!
## Counting elements

A number counts a property of elements if a list of that length holds exactly the elements with
the property, each once.
-/

namespace Eidolon.Library

open List

universe u

variable {α : Type u}

/-- So many elements have the property. -/
def Counts (count : Nat) (property : α → Prop) : Prop :=
  ∃ listed : List α, listed.Nodup ∧ (∀ element, element ∈ listed ↔ property element) ∧
    listed.length = count

namespace Counts

variable {count : Nat} {property other : α → Prop}

theorem of_list {listed : List α} (distinct : listed.Nodup)
    (members : ∀ element, element ∈ listed ↔ property element) : Counts listed.length property :=
  ⟨listed, distinct, members, rfl⟩

theorem congr (counts : Counts count property)
    (same : ∀ element, other element ↔ property element) : Counts count other := by
  obtain ⟨listed, distinct, members, length⟩ := counts
  exact ⟨listed, distinct, fun element => (members element).trans (same element).symm, length⟩

theorem none (absent : ∀ element, ¬ property element) : Counts 0 property :=
  ⟨[], nodup_nil, fun element => iff_of_false not_mem_nil (absent element), rfl⟩

theorem add (counts : Counts count property) {added : α} (fresh : ¬ property added) :
    Counts (count + 1) fun element => element = added ∨ property element := by
  obtain ⟨listed, distinct, members, length⟩ := counts
  refine ⟨added :: listed, ?_, ?_, ?_⟩
  · rw [nodup_cons, members]
    exact ⟨fresh, distinct⟩
  · intro element
    rw [mem_cons, members]
  rw [length_cons, length]

theorem remove [DecidableEq α] (counts : Counts count property) {removed : α}
    (present : property removed) :
    Counts (count - 1) fun element => element ≠ removed ∧ property element := by
  obtain ⟨listed, distinct, members, length⟩ := counts
  refine ⟨listed.erase removed, distinct.erase removed, ?_, ?_⟩
  · intro element
    rw [distinct.mem_erase_iff, members]
  rw [length_erase_of_mem ((members removed).mpr present), length]

theorem iff_of_imp (counts : Counts count property)
    (stronger : ∀ element, other element → property element) :
    Counts count other ↔ ∀ element, property element → other element := by
  constructor
  · intro also
    obtain ⟨listed, distinct, members, length⟩ := counts
    obtain ⟨fewer, fewerDistinct, fewerMembers, fewerLength⟩ := also
    have inside : fewer ⊆ listed := by
      intro element member
      exact (members element).mpr (stronger element ((fewerMembers element).mp member))
    have same : fewer.Perm listed :=
      (subperm_of_subset fewerDistinct inside).perm_of_length_le (by omega)
    intro element has
    exact (fewerMembers element).mp (same.mem_iff.mpr ((members element).mpr has))
  intro weaker
  exact counts.congr fun element => ⟨stronger element, weaker element⟩

end Counts

theorem foldl_count (test : α → Bool) (list : List α) (count : Nat) :
    list.foldl (fun count element => if test element then count + 1 else count) count =
      count + (list.filter test).length := by
  induction list generalizing count with
  | nil => rfl
  | cons element list ih =>
    rw [foldl_cons, ih]
    cases passes : test element with
    | true =>
      rw [filter_cons_of_pos passes, length_cons, if_pos rfl]
      omega
    | false => rw [filter_cons_of_neg (by rw [passes]; decide), if_neg (by decide)]

end Eidolon.Library
