import Mathlib.Data.List.ReduceOption
import Mathlib.Data.List.Rotate
import Mathlib.Data.Nat.ModEq

/-!
# Items in the slots of a ring

The slots of a ring that starts at a head hold items in order when the slots rotated to the
head are the items followed by free slots.
-/

namespace Eidolon.Library

open List

universe u

variable {α : Type u}

section Rotation

variable {slots : List α} {head index : Nat}

theorem getElem?_ring (inside : index < slots.length) :
    slots[(head + index) % slots.length]? = (slots.rotate head)[index]? := by
  rw [getElem?_rotate inside, Nat.add_comm]

theorem ring_index_inj {size other : Nat} (inside : index < size) (otherInside : other < size) :
    (head + index) % size = (head + other) % size ↔ index = other := by
  constructor
  · intro same
    have equivalent : index % size = other % size := Nat.ModEq.add_left_cancel' head same
    rw [Nat.mod_eq_of_lt inside, Nat.mod_eq_of_lt otherInside] at equivalent
    exact equivalent
  rintro rfl
  rfl

theorem rotate_set (slots : List α) (head : Nat) (item : α) (inside : index < slots.length) :
    (slots.set ((head + index) % slots.length) item).rotate head =
      (slots.rotate head).set index item := by
  apply ext_getElem?
  intro other
  by_cases otherInside : other < slots.length
  · have otherSet : other < (slots.set ((head + index) % slots.length) item).length := by
      rw [length_set]
      exact otherInside
    have place : (head + index) % slots.length < slots.length :=
      Nat.mod_lt _ (by omega)
    rw [← getElem?_ring otherSet, length_set, getElem?_set, getElem?_set,
      length_rotate, if_pos place, if_pos inside]
    simp only [ring_index_inj inside otherInside]
    rw [getElem?_ring otherInside]
  rw [getElem?_eq_none, getElem?_eq_none]
  · rw [length_set, length_rotate]
    omega
  rw [length_rotate, length_set]
  omega

end Rotation

/-- The items are in the slots from the head on, and the other slots are free. -/
structure InRing (slots : List (Option α)) (head : Nat) (items : List α) : Prop where
  inside : head < slots.length
  cells : slots.rotate head =
    items.map some ++ List.replicate (slots.length - items.length) none

namespace InRing

variable {slots : List (Option α)} {head : Nat} {items : List α} {item : α}

theorem empty {size : Nat} (positive : 0 < size) :
    InRing (List.replicate size (none : Option α)) 0 [] := by
  constructor
  · rw [length_replicate]
    exact positive
  rw [rotate_zero, length_replicate]
  rfl

theorem length_le (held : InRing slots head items) : items.length ≤ slots.length := by
  have lengths := congrArg List.length held.cells
  rw [length_rotate, length_append, length_map] at lengths
  omega

theorem reduceOption_map_some (items : List α) : (items.map some).reduceOption = items := by
  rw [List.reduceOption, filterMap_map]
  exact filterMap_some

theorem reduceOption_rotate (held : InRing slots head items) :
    (slots.rotate head).reduceOption = items := by
  rw [held.cells, reduceOption_append, reduceOption_replicate_none, append_nil,
    reduceOption_map_some]

theorem countP_isSome (held : InRing slots head items) :
    slots.countP Option.isSome = items.length := by
  rw [← (rotate_perm slots head).countP_eq, held.cells, countP_append, countP_map, countP_replicate]
  exact countP_eq_length.mpr fun item _ => rfl

theorem getElem? (held : InRing slots head items) {index : Nat} (inside : index < items.length) :
    slots[(head + index) % slots.length]? = some items[index]? := by
  have insideSlots : index < slots.length := Nat.lt_of_lt_of_le inside held.length_le
  have insideMap : index < (items.map some).length := by
    rw [length_map]
    exact inside
  rw [getElem?_ring insideSlots, held.cells, getElem?_append_left insideMap,
    getElem?_map, getElem?_eq_getElem inside, Option.map_some]

theorem getElem?_head (held : InRing slots head (item :: items)) :
    slots[head]? = some (some item) := by
  have first := held.getElem? (Nat.zero_lt_succ items.length)
  rw [Nat.add_zero, Nat.mod_eq_of_lt held.inside] at first
  exact first

theorem append (held : InRing slots head items) (room : items.length < slots.length) (item : α) :
    InRing (slots.set ((head + items.length) % slots.length) (some item)) head
      (items ++ [item]) := by
  constructor
  · rw [length_set]
    exact held.inside
  have free : slots.length - items.length = slots.length - (items.length + 1) + 1 := by
    omega
  rw [rotate_set _ _ _ room, held.cells, set_append_right _ _ (by rw [length_map]),
    length_map, Nat.sub_self, free, length_set, length_append, map_append,
    append_assoc]
  rfl

theorem tail (held : InRing slots head (item :: items)) :
    InRing (slots.set head none) ((head + 1) % slots.length) items := by
  have positive : 0 < slots.length := Nat.zero_lt_of_lt held.inside
  constructor
  · rw [length_set]
    exact Nat.mod_lt _ positive
  have atHead : slots.set head none = slots.set ((head + 0) % slots.length) none := by
    rw [Nat.add_zero, Nat.mod_eq_of_lt held.inside]
  have size := held.length_le
  rw [length_cons] at size
  have free : slots.length - items.length = slots.length - (items.length + 1) + 1 := by
    omega
  have taken : (slots.set head none).rotate head =
      none :: (items.map some ++ List.replicate (slots.length - (items.length + 1)) none) := by
    rw [atHead, rotate_set _ _ _ positive, held.cells]
    rfl
  calc (slots.set head none).rotate ((head + 1) % slots.length)
      = (slots.set head none).rotate (head + 1) := by
        have sameLength : (slots.set head none).length = slots.length := length_set
        rw [← sameLength, rotate_mod]
    _ = ((slots.set head none).rotate head).rotate 1 := by
        rw [rotate_rotate]
    _ = items.map some ++ List.replicate ((slots.set head none).length - items.length)
          none := by
        rw [taken, rotate_cons_succ, rotate_zero, append_assoc, length_set, free, replicate_succ']

end InRing

end Eidolon.Library
