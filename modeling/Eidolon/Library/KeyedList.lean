import Mathlib.Algebra.BigOperators.Group.List.Basic
import Mathlib.Data.List.Nodup

/-!
# Lists looked up by a key

A list whose items are found by a key, the first one if there are several, and the
overwriting of the item that is found.
-/

namespace Eidolon.Library

open List Option

universe u v

variable {α : Type u} {κ : Type v} [DecidableEq κ]

namespace KeyedList

/-- The first item with a key. -/
def find (key : α → κ) (items : List α) (wanted : κ) : Option α :=
  items.find? fun item => decide (key item = wanted)

/-- Puts an item in the place of the first one with a key. -/
def replace (key : α → κ) (items : List α) (wanted : κ) (changed : α) : List α :=
  match items with
  | [] => []
  | item :: rest =>
    if key item = wanted then changed :: rest
    else item :: replace key rest wanted changed

variable {key : α → κ} {items : List α} {wanted : κ} {item : α}

theorem key_of_find (found : find key items wanted = some item) : key item = wanted := by
  have here := find?_some found
  simpa using here

theorem find_eq_none_iff : find key items wanted = none ↔ ∀ item ∈ items, key item ≠ wanted := by
  rw [find]
  simp

theorem find_ne_none_iff : find key items wanted ≠ none ↔ wanted ∈ items.map key := by
  rw [Ne, find_eq_none_iff]
  simp

theorem find_eq_none_of_not_mem (new : wanted ∉ items.map key) : find key items wanted = none := by
  rw [find_eq_none_iff]
  intro item listed same
  exact new (same ▸ mem_map_of_mem listed)

theorem find_cons (key : α → κ) (head : α) (rest : List α) (wanted : κ) :
    find key (head :: rest) wanted =
      if key head = wanted then some head else find key rest wanted := by
  rw [find]
  by_cases here : key head = wanted
  · rw [if_pos here, find?_cons_of_pos (by simpa using here)]
  rw [if_neg here, find?_cons_of_neg (by simpa using here), find]

variable {β : Type*}

theorem find_map_pair (key : α → κ) (value : α → β) (items : List α) (wanted : κ) :
    find Prod.fst (items.map fun item => (key item, value item)) wanted =
      (find key items wanted).map fun item => (key item, value item) := by
  rw [find, find?_map]
  rfl

theorem map_replace {key : α → κ} {items : List α} {wanted : κ} {changed : α}
    (same : key changed = wanted) : (replace key items wanted changed).map key = items.map key := by
  induction items with
  | nil => rfl
  | cons item rest ih =>
    rw [replace]
    by_cases here : key item = wanted
    · rw [if_pos here, map_cons, map_cons, same, here]
    rw [if_neg here, map_cons, map_cons, ih]

theorem length_replace (key : α → κ) (items : List α) (wanted : κ) (changed : α) :
    (replace key items wanted changed).length = items.length := by
  induction items with
  | nil => rfl
  | cons item rest ih =>
    rw [replace]
    split
    · rfl
    rw [length_cons, length_cons, ih]

variable {changed : α}

section

variable (found : find key items wanted = some item)
include found

theorem map_replace_of_find {view : α → β} (same : view changed = view item) :
    (replace key items wanted changed).map view = items.map view := by
  induction items with
  | nil => rfl
  | cons head rest ih =>
    rw [find_cons] at found
    rw [replace]
    by_cases here : key head = wanted
    · rw [if_pos here, some.injEq] at found
      rw [if_pos here, map_cons, map_cons, same, found]
    rw [if_neg here] at found
    rw [if_neg here, map_cons, map_cons, ih found]

theorem mem_of_find : item ∈ items :=
  mem_of_find?_eq_some found

theorem mem_replace_of_find : changed ∈ replace key items wanted changed := by
  induction items with
  | nil => cases found
  | cons head rest ih =>
    rw [find_cons] at found
    rw [replace]
    by_cases here : key head = wanted
    · rw [if_pos here]
      exact mem_cons_self
    rw [if_neg here] at found
    rw [if_neg here]
    exact mem_cons_of_mem head (ih found)

end

theorem mem_of_mem_replace {other : α} (here : other ∈ replace key items wanted changed) :
    other = changed ∨ other ∈ items := by
  induction items with
  | nil => cases here
  | cons head rest ih =>
    rw [replace] at here
    split at here
    · rcases mem_cons.mp here with same | later
      · exact .inl same
      exact .inr (mem_cons_of_mem head later)
    rcases mem_cons.mp here with same | later
    · exact .inr (same ▸ mem_cons_self)
    rcases ih later with same | wasThere
    · exact .inl same
    exact .inr (mem_cons_of_mem head wasThere)

/-- With different keys the items after a replacement are the new one and the old ones with
other keys. -/
theorem eq_or_of_mem_replace (distinct : (items.map key).Nodup) {other : α}
    (found : find key items wanted = some item) (same : key changed = wanted)
    (here : other ∈ replace key items wanted changed) :
    other = changed ∨ (other ∈ items ∧ key other ≠ wanted) := by
  rcases mem_of_mem_replace here with isChanged | wasThere
  · exact .inl isChanged
  by_cases sameKey : key other = wanted
  · refine .inl ?_
    rw [← map_replace same] at distinct
    exact inj_on_of_nodup_map distinct here (mem_replace_of_find found) (sameKey.trans same.symm)
  exact .inr ⟨wasThere, sameKey⟩

theorem replace_self (found : find key items wanted = some item) :
    replace key items wanted item = items := by
  induction items with
  | nil => rfl
  | cons head rest ih =>
    rw [find_cons] at found
    rw [replace]
    by_cases here : key head = wanted
    · rw [if_pos here, some.injEq] at found
      rw [if_pos here, found]
    rw [if_neg here] at found
    rw [if_neg here, ih found]

theorem sum_replace {M : Type*} [AddCommMonoid M] (found : find key items wanted = some item)
    (changed : α) (measure : α → M) :
    ((replace key items wanted changed).map measure).sum + measure item =
      (items.map measure).sum + measure changed := by
  induction items with
  | nil => cases found
  | cons head rest ih =>
    rw [find_cons] at found
    rw [replace]
    by_cases here : key head = wanted
    · rw [if_pos here, some.injEq] at found
      rw [if_pos here, found, map_cons, sum_cons, map_cons, sum_cons,
        add_comm (measure changed), add_right_comm, add_comm (measure item)]
    rw [if_neg here] at found
    rw [if_neg here, map_cons, sum_cons, map_cons, sum_cons, add_assoc, ih found, add_assoc]

theorem find_replace (same : key changed = wanted) (other : κ) :
    find key (replace key items wanted changed) other =
      if other = wanted then (find key items wanted).map fun _ => changed
      else find key items other := by
  induction items with
  | nil => simp [find, replace]
  | cons item rest ih =>
    rw [find, find, find] at ih ⊢
    rw [replace]
    by_cases here : key item = wanted
    · rw [if_pos here]
      by_cases asked : other = wanted
      · simp [asked, same, here]
      have apart : key item ≠ other := fun itemIs => asked (itemIs.symm.trans here)
      simp [asked, same, Ne.symm asked, apart]
    rw [if_neg here]
    by_cases asked : key item = other
    · have apart : other ≠ wanted := fun same => here (asked.trans same)
      simp [asked, apart]
    rw [find?_cons_of_neg (by simpa using asked), ih,
      find?_cons_of_neg (by simpa using here),
      find?_cons_of_neg (by simpa using asked)]

section

variable (distinct : (items.map key).Nodup)
include distinct

theorem find_eq_some_iff :
    find key items wanted = some item ↔ item ∈ items ∧ key item = wanted := by
  constructor
  · intro found
    exact ⟨mem_of_find?_eq_some found, key_of_find found⟩
  intro held
  obtain ⟨member, named⟩ := held
  rcases found : find key items wanted with _ | other
  · exact absurd named (find_eq_none_iff.mp found item member)
  have otherMember : other ∈ items := mem_of_find?_eq_some found
  have sameKey : key other = key item := (key_of_find found).trans named.symm
  rw [inj_on_of_nodup_map distinct otherMember member sameKey]

theorem find_perm {other : List α} (perm : items.Perm other) (wanted : κ) :
    find key items wanted = find key other wanted := by
  have otherDistinct : (other.map key).Nodup := (perm.map key).nodup_iff.mp distinct
  apply Option.ext
  intro item
  rw [find_eq_some_iff distinct, find_eq_some_iff otherDistinct, perm.mem_iff]

theorem filterMap_of_nodup (said : α → Option β) (wanted : κ) :
    (items.filterMap fun item => if key item = wanted then said item else none) =
      ((find key items wanted).bind said).toList := by
  induction items with
  | nil => rfl
  | cons head rest ih =>
    rw [map_cons, nodup_cons] at distinct
    obtain ⟨new, restDistinct⟩ := distinct
    have ofRest := ih restDistinct
    rw [filterMap_cons, find_cons]
    by_cases here : key head = wanted
    · have absent := find_eq_none_of_not_mem (here ▸ new)
      rw [absent] at ofRest
      rw [if_pos here, if_pos here, ofRest, bind_some]
      cases said head with
      | _ => rfl
    rw [if_neg here, if_neg here]
    exact ofRest

theorem find_filterMap (said : α → Option β) (wanted : κ) :
    find Prod.fst (items.filterMap fun item => (said item).map fun value => (key item, value))
        wanted =
      ((find key items wanted).bind said).map fun value => (wanted, value) := by
  induction items with
  | nil => rfl
  | cons head rest ih =>
    rw [map_cons, nodup_cons] at distinct
    obtain ⟨new, restDistinct⟩ := distinct
    have ofRest := ih restDistinct
    rw [filterMap_cons, find_cons]
    rcases answer : said head with _ | value
    · by_cases here : key head = wanted
      · have absent := find_eq_none_of_not_mem (here ▸ new)
        rw [absent] at ofRest
        rw [if_pos here, bind_some, answer]
        exact ofRest
      rw [if_neg here]
      exact ofRest
    rw [map_some]
    rw [find_cons]
    by_cases here : key head = wanted
    · rw [if_pos here, if_pos here, bind_some, answer, here]
      rfl
    rw [if_neg here, if_neg here]
    exact ofRest

end

omit [DecidableEq κ] in
theorem map_fst_filterMap_sublist (key : α → κ) (items : List α) (said : α → Option β) :
    ((items.filterMap fun item => (said item).map fun value => (key item, value)).map
      Prod.fst).Sublist (items.map key) := by
  induction items with
  | nil => exact List.Sublist.refl []
  | cons head rest ih =>
    rw [filterMap_cons, map_cons]
    cases said head with
    | none => exact ih.cons _
    | some value => exact ih.cons_cons _

end KeyedList

end Eidolon.Library
