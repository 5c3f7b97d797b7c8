import Mathlib.Data.List.Basic
import Mathlib.Data.Nat.ModEq

/-!
# Bounded ring buffers

A queue in a fixed array with a head index, a tail index and a length.  The structure
carries the relation between the indices; `queued` reads the queue off the array, and
each operation is related to the list operation it performs on the queue.
-/

namespace Eidolon.Library

open List

structure RingBuffer (capacity : Nat) (α : Type) where
  slots : List α
  head : Nat
  tail : Nat
  len : Nat
  slots_length : slots.length = capacity
  len_le : len ≤ capacity
  head_lt : 0 < capacity → head < capacity
  tail_eq : 0 < capacity → tail = (head + len) % capacity
  deriving DecidableEq

namespace RingBuffer

variable {capacity : Nat} {α : Type}

def new (capacity : Nat) (filler : α) : RingBuffer capacity α where
  slots := List.replicate capacity filler
  head := 0
  tail := 0
  len := 0
  slots_length := length_replicate
  len_le := Nat.zero_le capacity
  head_lt := id
  tail_eq _ := (Nat.zero_mod capacity).symm

variable (ring : RingBuffer capacity α)

/-- The entry at a distance from the head. -/
def slotAt (offset : Nat) (inside : offset < ring.len) : α :=
  ring.slots.get ⟨(ring.head + offset) % capacity, by
      rw [ring.slots_length]
      exact Nat.mod_lt _ (Nat.lt_of_le_of_lt (Nat.zero_le offset)
        (Nat.lt_of_lt_of_le inside ring.len_le))⟩

/-- The entries from the head on. -/
def queued : List α :=
  List.ofFn fun offset : Fin ring.len => ring.slotAt offset offset.isLt

/-- Appends an entry at the tail unless the buffer is full. -/
def tryPush (value : α) : Option (RingBuffer capacity α) :=
  if full : capacity ≤ ring.len then
    none
  else
    some
      { slots := ring.slots.set ring.tail value
        head := ring.head
        tail := (ring.tail + 1) % capacity
        len := ring.len + 1
        slots_length := by rw [length_set, ring.slots_length]
        len_le := by omega
        head_lt := ring.head_lt
        tail_eq := fun positive => by
          rw [ring.tail_eq positive, Nat.mod_add_mod, Nat.add_assoc] }

/-- Copies entries from the head on into a slice with the given room. -/
def peekBatch (room : Nat) : List α :=
  List.ofFn fun offset : Fin (min room ring.len) =>
    ring.slotAt offset (Nat.lt_of_lt_of_le offset.isLt (Nat.min_le_right room ring.len))

def advanceHead (count : Nat) : RingBuffer capacity α :=
  let actual := min count ring.len
  { slots := ring.slots
    head := (ring.head + actual) % capacity
    tail := ring.tail
    len := ring.len - actual
    slots_length := ring.slots_length
    len_le := Nat.le_trans (Nat.sub_le _ _) ring.len_le
    head_lt := fun positive => Nat.mod_lt _ positive
    tail_eq := fun positive => by
      have sum : ring.head + actual + (ring.len - actual) = ring.head + ring.len := by
        omega
      rw [ring.tail_eq positive, Nat.mod_add_mod, sum] }

@[simp]
theorem length_queued : ring.queued.length = ring.len :=
  length_ofFn

@[simp]
theorem queued_new (capacity : Nat) (filler : α) : (new capacity filler).queued = [] :=
  rfl

theorem getElem_queued {offset : Nat} (inside : offset < ring.queued.length) :
    ring.queued[offset] = ring.slotAt offset (by simpa using inside) :=
  List.getElem_ofFn inside

theorem tryPush_eq_none_iff {ring : RingBuffer capacity α} {value : α} :
    ring.tryPush value = none ↔ capacity ≤ ring.len := by
  unfold tryPush
  split <;> simp_all

theorem queued_tryPush {ring pushed : RingBuffer capacity α} {value : α}
    (result : ring.tryPush value = some pushed) : pushed.queued = ring.queued ++ [value] := by
  unfold tryPush at result
  split at result
  · cases result
  have positive : 0 < capacity := by omega
  have tail := ring.tail_eq positive
  cases result
  apply ext_getElem
  · simp
  intro offset before after
  rw [getElem_queued]
  simp only [length_queued] at before
  simp only [slotAt, get_eq_getElem, getElem_set]
  by_cases earlier : offset < ring.len
  · have notTail : ¬ ring.tail = (ring.head + offset) % capacity := by
      intro same
      rw [tail] at same
      have distance : ring.len % capacity = offset % capacity :=
        Nat.ModEq.add_left_cancel' ring.head same
      rw [Nat.mod_eq_of_lt (by omega), Nat.mod_eq_of_lt (by omega)] at distance
      omega
    rw [if_neg notTail, getElem_append_left (by simpa using earlier), getElem_queued]
    rfl
  have last : offset = ring.len := by omega
  subst last
  rw [if_pos tail]
  simp

theorem peekBatch_eq (room : Nat) : ring.peekBatch room = ring.queued.take room := by
  apply ext_getElem
  · simp [peekBatch]
  intro offset before after
  rw [getElem_take, getElem_queued]
  exact List.getElem_ofFn before

theorem queued_advanceHead (count : Nat) :
    (ring.advanceHead count).queued = ring.queued.drop count := by
  apply ext_getElem
  · simp only [length_queued, advanceHead, length_drop]
    omega
  intro offset before after
  rw [length_queued] at before
  simp only [advanceHead] at before
  rw [getElem_drop, getElem_queued, getElem_queued]
  simp only [slotAt, advanceHead, get_eq_getElem, Nat.mod_add_mod]
  have position : ring.head + min count ring.len + offset = ring.head + (count + offset) := by
    omega
  simp only [position]

end RingBuffer

end Eidolon.Library
