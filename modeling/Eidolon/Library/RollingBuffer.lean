import Eidolon.Library.SlotArray

/-!
# Rolling buffers

A ring that overwrites its oldest entry when it is full.  It holds the last entries, but in
the order of the slots, where the newest ones can stand before the oldest ones.
-/

namespace Eidolon.Library

open List

universe u v

structure RollingBuffer (capacity : Nat) (α : Type u) where
  slots : SlotArray capacity α
  head : Nat
  count : Nat

namespace RollingBuffer

variable {capacity : Nat} {α : Type u}

def empty (capacity : Nat) (α : Type u) : RollingBuffer capacity α where
  slots := SlotArray.empty capacity α
  head := 0
  count := 0

variable (buffer : RollingBuffer capacity α)

def push (value : α) : RollingBuffer capacity α where
  slots := buffer.slots.set buffer.head (some value)
  head := (buffer.head + 1) % capacity
  count := if buffer.count < capacity then buffer.count + 1 else buffer.count

/-- The held entries in the order of the slots. -/
def stored : List α :=
  (buffer.slots.slots.take buffer.count).reduceOption

/-- The last entries, as many as fit. -/
def recent (capacity : Nat) (entries : List α) : List α :=
  entries.drop (entries.length - capacity)

/-- The last entries in the order of the slots: those written since the head was last at the
first slot come first. -/
def slotOrder (capacity : Nat) (entries : List α) : List α :=
  if entries.length ≤ capacity then entries
  else
    (recent capacity entries).drop (capacity - entries.length % capacity) ++
      (recent capacity entries).take (capacity - entries.length % capacity)

variable {entries : List α}

theorem slotOrder_of_le (fits : entries.length ≤ capacity) :
    slotOrder capacity entries = entries := by
  rw [slotOrder, if_pos fits]

theorem recent_of_le (fits : entries.length ≤ capacity) : recent capacity entries = entries := by
  rw [recent, Nat.sub_eq_zero_of_le fits, drop_zero]

theorem slotOrder_perm (capacity : Nat) (entries : List α) :
    (slotOrder capacity entries).Perm (recent capacity entries) := by
  by_cases fits : entries.length ≤ capacity
  · rw [slotOrder_of_le fits, recent_of_le fits]
  rw [slotOrder, if_neg fits]
  refine List.perm_append_comm.trans ?_
  rw [take_append_drop]

theorem mem_slotOrder {entry : α} :
    entry ∈ slotOrder capacity entries ↔ entry ∈ recent capacity entries :=
  (slotOrder_perm capacity entries).mem_iff

theorem length_recent (capacity : Nat) (entries : List α) :
    (recent capacity entries).length = min entries.length capacity := by
  rw [recent, length_drop]
  omega

theorem recent_map {β : Type v} (function : α → β) (entries : List α) :
    recent capacity (entries.map function) = (recent capacity entries).map function := by
  rw [recent, recent, length_map, map_drop]

theorem slotOrder_map {β : Type v} (function : α → β) (entries : List α) :
    slotOrder capacity (entries.map function) = (slotOrder capacity entries).map function := by
  rw [slotOrder, slotOrder, length_map, recent_map]
  split
  · rfl
  rw [map_append, map_drop, map_take]

theorem mem_of_mem_recent {entry : α} (member : entry ∈ recent capacity entries) :
    entry ∈ entries :=
  mem_of_mem_drop member

private theorem slotOrder_append_of_full (positive : 0 < capacity)
    (full : capacity ≤ entries.length) (value : α) :
    slotOrder capacity (entries ++ [value]) =
      (slotOrder capacity entries).set (entries.length % capacity) value := by
  have inLap : entries.length % capacity < capacity := Nat.mod_lt _ positive
  -- the oldest entry is the first of the recent ones that stand last
  have turned : slotOrder capacity entries =
      (recent capacity entries).drop (capacity - entries.length % capacity) ++
        (recent capacity entries).take (capacity - entries.length % capacity) := by
    rw [slotOrder]
    split
    · have exactly : entries.length = capacity := by omega
      rw [recent_of_le (by omega), exactly, Nat.mod_self, Nat.sub_zero, ← exactly,
        drop_length, take_length, nil_append]
    rfl
  have recentLength : (recent capacity entries).length = capacity := by
    rw [length_recent]
    omega
  have recentAfter : recent capacity (entries ++ [value]) =
      (recent capacity entries).drop 1 ++ [value] := by
    rw [recent, recent, length_append, length_singleton, drop_drop,
      drop_append_of_le_length (by omega)]
    congr 2
    omega
  rw [turned, slotOrder, if_neg (by rw [length_append, length_singleton]; omega),
    recentAfter, length_append, length_singleton]
  rcases whole : recent capacity entries with _ | ⟨oldest, others⟩
  · rw [whole] at recentLength
    simp only [length_nil] at recentLength
    omega
  rw [whole, length_cons] at recentLength
  rw [drop_succ_cons, drop_zero]
  obtain ⟨room, roomEq⟩ : ∃ room, capacity - entries.length % capacity = room + 1 :=
    ⟨capacity - entries.length % capacity - 1, by omega⟩
  rw [roomEq, drop_succ_cons, take_succ_cons, set_append_right]
  · have offset : entries.length % capacity - (others.drop room).length = 0 := by
      rw [length_drop]
      omega
    rw [offset, set_cons_zero]
    by_cases wraps : entries.length % capacity + 1 = capacity
    · have atEnd : (entries.length + 1) % capacity = 0 := by
        rw [← Nat.mod_add_mod, wraps, Nat.mod_self]
      have noRoom : room = 0 := by omega
      have shorter : others.length + 1 ≤ capacity := by omega
      rw [atEnd, noRoom, drop_zero, take_zero, drop_of_length_le (by rw [length_append]; omega),
        take_of_length_le (by rw [length_append]; omega),
        nil_append]
    have next : (entries.length + 1) % capacity = entries.length % capacity + 1 := by
      rw [← Nat.mod_add_mod]
      exact Nat.mod_eq_of_lt (by omega)
    have roomAfter : capacity - (entries.length % capacity + 1) = room := by omega
    have within : room ≤ others.length := by omega
    rw [next, roomAfter, drop_append_of_le_length within,
      take_append_of_le_length within, append_assoc, singleton_append]
  rw [length_drop]
  omega

/-- What a buffer holds of the entries written to it. -/
structure Holds (buffer : RollingBuffer capacity α) (entries : List α) : Prop where
  head : buffer.head = entries.length % capacity
  count : buffer.count = min entries.length capacity
  slots : buffer.slots.slots =
    (slotOrder capacity entries).map some ++
      List.replicate (capacity - min entries.length capacity) none

theorem holds_empty (capacity : Nat) : Holds (empty capacity α) [] := by
  refine ⟨(Nat.zero_mod capacity).symm, (Nat.zero_min capacity).symm, ?_⟩
  rfl

theorem Holds.push (positive : 0 < capacity) {buffer : RollingBuffer capacity α}
    (holds : buffer.Holds entries) (value : α) :
    (buffer.push value).Holds (entries ++ [value]) := by
  refine ⟨?_, ?_, ?_⟩
  · rw [RollingBuffer.push, holds.head, Nat.mod_add_mod, length_append, length_singleton]
  · rw [RollingBuffer.push, holds.count, length_append, length_singleton]
    simp only
    split <;> omega
  rw [RollingBuffer.push, SlotArray.slots_set, holds.head, holds.slots, length_append,
    length_singleton]
  by_cases fits : entries.length < capacity
  · have fitsAfter : (entries ++ [value]).length ≤ capacity := by
      rw [length_append, length_singleton]
      omega
    rw [Nat.mod_eq_of_lt fits, slotOrder_of_le (Nat.le_of_lt fits), slotOrder_of_le fitsAfter,
      set_append_right _ _ (Nat.le_of_eq (length_map _)), length_map,
      Nat.sub_self, Nat.min_eq_left (Nat.le_of_lt fits), Nat.min_eq_left fits]
    obtain ⟨room, roomEq⟩ : ∃ room, capacity - entries.length = room + 1 :=
      ⟨capacity - entries.length - 1, by omega⟩
    have roomAfter : capacity - (entries.length + 1) = room := by omega
    rw [roomEq, roomAfter, replicate_succ, set_cons_zero, map_append,
      map_singleton, append_assoc, singleton_append]
  have full : capacity ≤ entries.length := Nat.le_of_not_lt fits
  rw [slotOrder_append_of_full positive full, Nat.min_eq_right full,
    Nat.min_eq_right (by omega), Nat.sub_self, replicate_zero, append_nil,
    append_nil, map_set]

theorem Holds.stored_eq {buffer : RollingBuffer capacity α} (holds : buffer.Holds entries) :
    buffer.stored = slotOrder capacity entries := by
  have length : (slotOrder capacity entries).length = min entries.length capacity := by
    rw [(slotOrder_perm capacity entries).length_eq, length_recent]
  have all : ∀ held : List α, (held.map some).reduceOption = held := by
    intro held
    induction held with
    | nil => rfl
    | cons first rest ih => rw [map_cons, reduceOption_cons_of_some, ih]
  rw [stored, holds.slots, holds.count, take_append_of_le_length, take_of_length_le]
  · exact all _
  · exact Nat.le_of_eq (by rw [length_map, length])
  exact Nat.le_of_eq (by rw [length_map, length])

end RollingBuffer

end Eidolon.Library
