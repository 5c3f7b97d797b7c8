import Mathlib.Data.List.Basic
import Mathlib.Data.List.Flatten

/-!
# Slices of a list

A list cut into chunks of a size, as the work of several threads, and the change of the
items at chosen indices, as loops over parts of an array make it.
-/

namespace Eidolon.Library

open List

universe u

variable {α : Type u}

/-- The consecutive chunks of a size; the last one can be shorter. -/
def chunks (size : Nat) (items : List α) : List (List α) :=
  (List.range ((items.length + size - 1) / size)).map fun number =>
    (items.drop (number * size)).take size

private theorem flatten_first_chunks (size : Nat) (items : List α) (number : Nat) :
    ((List.range number).map fun chunk => (items.drop (chunk * size)).take size).flatten =
      items.take (number * size) := by
  induction number with
  | zero => simp
  | succ number ih =>
    rw [range_succ, map_append, flatten_append, ih, Nat.succ_mul, take_add]
    simp

variable {size : Nat}

section

variable (positive : 0 < size)
include positive

theorem flatten_chunks (items : List α) : (chunks size items).flatten = items := by
  rw [chunks, flatten_first_chunks, take_of_length_le]
  have enough := Nat.div_add_mod (items.length + size - 1) size
  have small := Nat.mod_lt (items.length + size - 1) positive
  rw [Nat.mul_comm] at enough
  omega

theorem chunks_nil : chunks size ([] : List α) = [] := by
  rw [chunks, length_nil, Nat.div_eq_of_lt (by omega)]
  rfl

theorem chunks_cons {block : List α} (full : block.length = size) (rest : List α) :
    chunks size (block ++ rest) = block :: chunks size rest := by
  have number : ((block ++ rest).length + size - 1) / size =
      (rest.length + size - 1) / size + 1 := by
    rw [← Nat.add_div_right _ positive, length_append]
    congr 1
    omega
  rw [chunks, number, range_succ_eq_map, map_cons, map_map, Nat.zero_mul,
    drop_zero, take_left' full]
  congr 1
  apply map_congr_left
  intro index _
  have skip : (index + 1) * size = block.length + index * size := by
    rw [Nat.succ_mul, full, Nat.add_comm]
  rw [Function.comp_apply, skip, drop_append]
  rw [drop_eq_nil_of_le (Nat.le_add_right _ _), nil_append, Nat.add_sub_cancel_left]

theorem chunks_append {full : List α} (whole : size ∣ full.length) (rest : List α) :
    chunks size (full ++ rest) = chunks size full ++ chunks size rest := by
  obtain ⟨number, length⟩ := whole
  induction number generalizing full with
  | zero =>
    have isNil : full = [] := length_eq_zero_iff.mp length
    rw [isNil, chunks_nil positive]
    rfl
  | succ number ih =>
    rw [Nat.mul_succ] at length
    have first : (full.take size).length = size := by
      rw [length_take]
      omega
    have later : (full.drop size).length = size * number := by
      rw [length_drop]
      omega
    rw [← take_append_drop size full, append_assoc, chunks_cons positive first,
      chunks_cons positive first, ih later]
    rfl

theorem chunks_single {block : List α} (full : block.length = size) :
    chunks size block = [block] := by
  have cut := chunks_cons positive full []
  rw [append_nil, chunks_nil positive] at cut
  exact cut

end

variable (chosen : Nat → Bool)

/-- Changes the items at the chosen indices. -/
def updateWhere (change : Nat → α → α) (items : List α) : List α :=
  items.mapIdx fun index item => if chosen index then change index item else item

variable {change : Nat → α → α} {items : List α}

theorem getElem?_updateWhere (change : Nat → α → α) (items : List α) (index : Nat) :
    (updateWhere chosen change items)[index]? =
      items[index]?.map fun item => if chosen index then change index item else item := by
  rw [updateWhere, getElem?_mapIdx]

@[simp]
theorem length_updateWhere (change : Nat → α → α) (items : List α) :
    (updateWhere chosen change items).length = items.length := by
  rw [updateWhere, length_mapIdx]

theorem updateWhere_congr {chosen other : Nat → Bool}
    (same : ∀ index < items.length, chosen index = other index) :
    updateWhere chosen change items = updateWhere other change items := by
  apply ext_getElem?
  intro index
  rw [getElem?_updateWhere, getElem?_updateWhere]
  by_cases inside : index < items.length
  · rw [same index inside]
  rw [getElem?_eq_none (Nat.le_of_not_lt inside)]
  rfl

theorem updateWhere_of_none {chosen : Nat → Bool}
    (none : ∀ index < items.length, chosen index = false) :
    updateWhere chosen change items = items := by
  apply ext_getElem?
  intro index
  rw [getElem?_updateWhere]
  by_cases inside : index < items.length
  · rw [none index inside]
    simp
  rw [getElem?_eq_none (Nat.le_of_not_lt inside)]
  rfl

theorem updateWhere_updateWhere {first second : Nat → Bool}
    (apart : ∀ index, first index = true → second index = false) :
    updateWhere second change (updateWhere first change items) =
      updateWhere (fun index => first index || second index) change items := by
  apply ext_getElem?
  intro index
  rw [getElem?_updateWhere, getElem?_updateWhere, getElem?_updateWhere, Option.map_map]
  congr 1
  funext item
  by_cases isFirst : first index = true
  · simp [isFirst, apart index isFirst]
  simp [isFirst]

theorem modify_eq_updateWhere (index : Nat) :
    items.modify index (change index) = updateWhere (fun other => other == index) change items := by
  apply ext_getElem?
  intro other
  rw [getElem?_updateWhere]
  by_cases same : index = other
  · simp [same]
  have different : ¬ other = index := Ne.symm same
  simp [same, different]

theorem set_updateWhere {index : Nat} {item : α} (held : items[index]? = some item) :
    (updateWhere chosen change items).set index (change index item) =
      updateWhere (fun other => chosen other || other == index) change items := by
  apply ext_getElem?
  intro other
  rw [getElem?_set, length_updateWhere, getElem?_updateWhere, getElem?_updateWhere]
  by_cases same : index = other
  · have inside := (List.getElem?_eq_some_iff.mp held).1
    rw [if_pos same, if_pos (same ▸ inside), ← same, held]
    simp
  have different : ¬ other = index := Ne.symm same
  simp [same, different]

def updateBelow (bound : Nat) (change : Nat → α → α) (items : List α) : List α :=
  updateWhere (fun index => decide (index < bound)) change items

theorem updateBelow_zero (change : Nat → α → α) (items : List α) :
    updateBelow 0 change items = items :=
  updateWhere_of_none fun index _ => by simp

theorem updateWhere_updateBelow {low high : Nat} (ordered : low ≤ high) :
    updateWhere (fun index => decide (low ≤ index ∧ index < high)) change
        (updateBelow low change items) =
      updateBelow high change items := by
  rw [updateBelow, updateWhere_updateWhere]
  · apply updateWhere_congr
    intro index _
    rw [← Bool.decide_or, decide_eq_decide]
    omega
  intro index below
  rw [decide_eq_true_iff] at below
  rw [decide_eq_false_iff_not]
  omega

end Eidolon.Library
