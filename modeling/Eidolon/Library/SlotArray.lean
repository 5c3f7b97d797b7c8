import Mathlib.Algebra.BigOperators.Group.List.Basic
import Mathlib.Data.List.ReduceOption
import Mathlib.Algebra.GroupWithZero.Nat

/-!
# Fixed-size arrays of optional slots

A bounded store without allocation is an array of `capacity` slots, each of them
empty or holding one value.  Programs scan such an array for the first empty slot
or for the first occupied slot with some property, and then overwrite that slot.
The length of the slot list is carried by the type, so that no operation can
change the number of slots.
-/

namespace Eidolon.Library

open List Option

universe u

/-- `capacity` slots, each empty or holding one value. -/
structure SlotArray (capacity : Nat) (α : Type u) where
  slots : List (Option α)
  length_eq : slots.length = capacity
  deriving DecidableEq

namespace SlotArray

variable {capacity : Nat} {α : Type u}

@[ext]
theorem ext {left right : SlotArray capacity α} (same : left.slots = right.slots) :
    left = right := by
  cases left
  cases same
  rfl

def empty (capacity : Nat) (α : Type u) : SlotArray capacity α where
  slots := List.replicate capacity none
  length_eq := length_replicate

variable (array : SlotArray capacity α)

/-- The held values in slot order. -/
def entries : List α :=
  array.slots.reduceOption

/-- The value held by a slot; `none` for an empty slot and past the end. -/
def get? (index : Nat) : Option α :=
  array.slots[index]?.join

/-- The occupied slots with their indices, in slot order. -/
def indexed : List (Nat × α) :=
  array.slots.zipIdx.filterMap fun (slot, index) => slot.map (index, ·)

/-- Overwrite one slot; nothing happens past the end. -/
def set (array : SlotArray capacity α) (index : Nat) (value : Option α) : SlotArray capacity α where
  slots := array.slots.set index value
  length_eq := by rw [length_set, array.length_eq]

def firstEmpty? : Option Nat :=
  array.slots.findIdx? Option.isNone

/-- The first occupied slot whose value passes the test, with that value. -/
def findFirst? (test : α → Bool) : Option (Nat × α) :=
  (array.slots.findIdx? (·.any test)).bind fun index =>
    (array.get? index).map (index, ·)

/-- Put a value into the first empty slot. -/
def fillFirst? (value : α) : Option (SlotArray capacity α) :=
  array.firstEmpty?.map fun index => array.set index (some value)

/-- Empty occupied slots from the front until `limit` values are taken. -/
def drainSlots : List (Option α) → Nat → List α × List (Option α)
  | [], _ => ([], [])
  | slots, 0 => ([], slots)
  | none :: rest, limit + 1 =>
    let (taken, left) := drainSlots rest (limit + 1)
    (taken, none :: left)
  | some value :: rest, limit + 1 =>
    let (taken, left) := drainSlots rest limit
    (value :: taken, none :: left)

theorem length_drainSlots (slots : List (Option α)) (limit : Nat) :
    (drainSlots slots limit).2.length = slots.length := by
  induction slots generalizing limit with
  | nil => rfl
  | cons slot rest ih =>
    cases limit with
    | zero => rfl
    | succ limit =>
      cases slot with
      | _ => simp [drainSlots, ih]

/-- At most `limit` values, taken out in slot order. -/
def drain (limit : Nat) : List α × SlotArray capacity α :=
  ((drainSlots array.slots limit).1,
    { slots := (drainSlots array.slots limit).2
      length_eq := by rw [length_drainSlots, array.length_eq] })

def mapSlots (change : α → Option α) : SlotArray capacity α where
  slots := array.slots.map (·.bind change)
  length_eq := by rw [length_map, array.length_eq]

@[simp]
theorem slots_set (index : Nat) (value : Option α) :
    (array.set index value).slots = array.slots.set index value :=
  rfl

@[simp]
theorem entries_empty : (empty capacity α).entries = [] := by
  simp [entries, empty]

variable {array : SlotArray capacity α} {value : α}

theorem mem_entries : value ∈ array.entries ↔ some value ∈ array.slots :=
  reduceOption_mem_iff

theorem mem_entries_iff_get? : value ∈ array.entries ↔ ∃ index, array.get? index = some value := by
  rw [mem_entries, mem_iff_getElem?]
  simp only [get?, join_eq_some_iff]

variable {index : Nat}

theorem mem_entries_of_get? (held : array.get? index = some value) : value ∈ array.entries :=
  mem_entries_iff_get?.mpr ⟨index, held⟩

theorem lt_of_get? (held : array.get? index = some value) : index < capacity := by
  rw [get?, join_eq_some_iff] at held
  rw [← array.length_eq]
  exact (List.getElem?_eq_some_iff.mp held).1

theorem entries_length_le (array : SlotArray capacity α) : array.entries.length ≤ capacity := by
  have bound := reduceOption_length_le array.slots
  rwa [array.length_eq] at bound

theorem get?_set (array : SlotArray capacity α) (index other : Nat) (value : Option α) :
    (array.set index value).get? other =
      if index = other ∧ other < capacity then value else array.get? other := by
  unfold get?
  rw [slots_set, getElem?_set, array.length_eq]
  by_cases same : index = other
  · subst other
    by_cases inside : index < capacity
    · simp [inside]
    have outside : array.slots[index]? = none := by
      rw [getElem?_eq_none_iff, array.length_eq]
      omega
    simp [inside, outside]
  simp [same]

theorem get?_set_self (inside : index < capacity) (value : Option α) :
    (array.set index value).get? index = value := by
  simp [get?_set, inside]

theorem get?_set_of_ne {other : Nat} (different : index ≠ other) (value : Option α) :
    (array.set index value).get? other = array.get? other := by
  simp [get?_set, different]

@[simp]
theorem mem_indexed : (index, value) ∈ array.indexed ↔ array.get? index = some value := by
  unfold indexed get?
  rw [mem_filterMap, join_eq_some_iff]
  constructor
  · intro listed
    rcases listed with ⟨⟨slot, place⟩, member, mapped⟩
    obtain ⟨held, occupied, pair⟩ := Option.map_eq_some_iff.mp mapped
    cases pair
    have read := mk_mem_zipIdx_iff_getElem?.mp member
    rw [read, occupied]
  intro read
  exact ⟨(some value, index), mk_mem_zipIdx_iff_getElem?.mpr read, rfl⟩

theorem indexed_pairwise (array : SlotArray capacity α) :
    array.indexed.Pairwise (fun earlier later => earlier.1 < later.1) := by
  have places : array.slots.zipIdx.Pairwise (fun earlier later => earlier.2 < later.2) := by
    have mapped : (array.slots.zipIdx.map Prod.snd).Pairwise (· < ·) := by
      rw [zipIdx_map_snd]
      exact pairwise_lt_range'
    exact pairwise_map.mp mapped
  refine pairwise_filterMap.mpr (places.imp ?_)
  rintro ⟨_, earlier⟩ ⟨_, later⟩ ordered left leftMapped right rightMapped
  obtain ⟨_, _, rfl⟩ := Option.map_eq_some_iff.mp leftMapped
  obtain ⟨_, _, rfl⟩ := Option.map_eq_some_iff.mp rightMapped
  exact ordered

theorem indexed_nodup (array : SlotArray capacity α) : array.indexed.Nodup := by
  refine array.indexed_pairwise.imp ?_
  rintro left right ordered rfl
  exact Nat.lt_irrefl _ ordered

theorem map_snd_indexed (array : SlotArray capacity α) :
    array.indexed.map Prod.snd = array.entries := by
  have values : array.indexed.map Prod.snd = array.slots.zipIdx.filterMap fun pair => pair.1 := by
    rw [indexed, map_filterMap]
    apply filterMap_congr
    intro pair _
    rcases pair with ⟨slot, index⟩
    cases slot <;> rfl
  have dropped : (array.slots.zipIdx.filterMap fun pair => pair.1) =
      (array.slots.zipIdx.map Prod.fst).filterMap id := by
    rw [filterMap_map]
    rfl
  rw [values, dropped, zipIdx_map_fst]
  rfl

theorem set_get? {value : Option α} (same : array.slots[index]? = some value) :
    array.set index value = array := by
  apply SlotArray.ext
  obtain ⟨inside, read⟩ := List.getElem?_eq_some_iff.mp same
  rw [slots_set, ← read, set_getElem_self]

@[simp]
theorem set_set (array : SlotArray capacity α) (index : Nat) (first second : Option α) :
    (array.set index first).set index second = array.set index second := by
  apply SlotArray.ext
  simp

theorem exists_split (array : SlotArray capacity α) (inside : index < capacity) : ∃ before after,
      array.slots = before ++ array.get? index :: after ∧
        ∀ value, (array.set index value).slots = before ++ value :: after := by
  have bound : index < array.slots.length := by rwa [array.length_eq]
  refine ⟨array.slots.take index, array.slots.drop (index + 1), ?_, fun value => ?_⟩
  · have here : array.get? index = array.slots[index] := by
      simp [get?, getElem?_eq_getElem bound]
    rw [here, getElem_cons_drop, take_append_drop]
  exact set_eq_take_append_cons_drop.trans (if_pos bound)

private theorem reduceOption_middle (before after : List (Option α)) (value : Option α) :
    (before ++ value :: after).reduceOption.Perm
      (value.toList ++ (before.reduceOption ++ after.reduceOption)) := by
  rcases value with _ | held
  · rw [reduceOption_append]
    exact List.Perm.refl _
  rw [reduceOption_append]
  exact perm_middle

theorem exists_rest (array : SlotArray capacity α) (inside : index < capacity) : ∃ rest : List α,
      array.entries.Perm ((array.get? index).toList ++ rest) ∧
        ∀ value, (array.set index value).entries.Perm (value.toList ++ rest) := by
  obtain ⟨before, after, whole, written⟩ := array.exists_split inside
  refine ⟨before.reduceOption ++ after.reduceOption, ?_, fun value => ?_⟩
  · rw [entries, whole]
    exact reduceOption_middle before after _
  rw [entries, written]
  exact reduceOption_middle before after value

theorem entries_set_none (held : array.get? index = some value) :
    array.entries.Perm (value :: (array.set index none).entries) := by
  obtain ⟨rest, whole, written⟩ := array.exists_rest (lt_of_get? held)
  rw [held] at whole
  exact whole.trans ((written none).symm.cons value)

theorem indexed_set_none (held : array.get? index = some value) :
    array.indexed.Perm ((index, value) :: (array.set index none).indexed) := by
  have inside := lt_of_get? held
  have cleared : (array.set index none).get? index = none :=
    get?_set_self inside none
  refine (perm_ext_iff_of_nodup array.indexed_nodup ?_).mpr ?_
  · refine nodup_cons.mpr ⟨?_, indexed_nodup _⟩
    rw [mem_indexed, cleared]
    simp
  intro elsewhere
  rcases elsewhere with ⟨place, other⟩
  rw [mem_cons, mem_indexed, mem_indexed]
  by_cases same : index = place
  · subst place
    rw [held, cleared]
    simp [eq_comm]
  rw [get?_set_of_ne same]
  simp [Ne.symm same]

theorem entries_set_some (inside : index < capacity) (free : array.get? index = none) (value : α) :
    (array.set index (some value)).entries.Perm (value :: array.entries) := by
  obtain ⟨rest, whole, written⟩ := array.exists_rest inside
  rw [free] at whole
  exact (written (some value)).trans (whole.symm.cons value)

theorem length_entries_replace (held : array.get? index = some value) (changed : α) :
    (array.set index (some changed)).entries.length = array.entries.length := by
  obtain ⟨rest, whole, written⟩ := array.exists_rest (lt_of_get? held)
  rw [held] at whole
  rw [whole.length_eq, (written (some changed)).length_eq]
  rfl

/-- The sum of the weights of the held values. -/
def total (weight : α → Nat) (array : SlotArray capacity α) : Nat :=
  (array.entries.map weight).sum

theorem total_set (weight : α → Nat) (array : SlotArray capacity α) (inside : index < capacity)
    (value : Option α) :
    (array.set index value).total weight + ((array.get? index).map weight).getD 0 =
      array.total weight + (value.map weight).getD 0 := by
  obtain ⟨rest, whole, written⟩ := array.exists_rest inside
  have split : ∀ slot : Option α,
      ((slot.toList ++ rest).map weight).sum = (slot.map weight).getD 0 + (rest.map weight).sum := by
    intro slot
    rw [map_append, sum_append]
    cases slot with
    | none => rfl
    | some held => simp
  have before := (whole.map weight).sum_eq
  have after := ((written value).map weight).sum_eq
  rw [split] at before after
  rw [total, total]
  omega

theorem mem_entries_set_some {other : α} (member : other ∈ (array.set index (some value)).entries) :
    other = value ∨ other ∈ array.entries := by
  obtain ⟨slot, held⟩ := mem_entries_iff_get?.mp member
  rw [get?_set] at held
  split at held
  · exact Or.inl (some.inj held).symm
  exact Or.inr (mem_entries_of_get? held)

theorem mem_entries_set_none {other : α} (member : other ∈ (array.set index none).entries) :
    other ∈ array.entries := by
  obtain ⟨slot, held⟩ := mem_entries_iff_get?.mp member
  rw [get?_set] at held
  split at held
  · cases held
  exact mem_entries_of_get? held

theorem entries_mapSlots (array : SlotArray capacity α) (change : α → Option α) :
    (array.mapSlots change).entries = array.entries.filterMap change := by
  simp only [entries, mapSlots, List.reduceOption, filterMap_map, filterMap_filterMap]
  apply filterMap_congr
  intro slot _
  cases slot <;> rfl

theorem firstEmpty?_eq_some (found : array.firstEmpty? = some index) :
    index < capacity ∧ array.slots[index]? = some none := by
  obtain ⟨inside, isEmpty, _⟩ := findIdx?_eq_some_iff_getElem.mp found
  refine ⟨array.length_eq ▸ inside, ?_⟩
  rw [getElem?_eq_getElem inside, Option.isNone_iff_eq_none.mp isEmpty]

theorem firstEmpty?_get? (found : array.firstEmpty? = some index) : array.get? index = none := by
  simp [get?, (firstEmpty?_eq_some found).2]

theorem firstEmpty?_eq_none_iff : array.firstEmpty? = none ↔ array.entries.length = capacity := by
  have full := reduceOption_length_eq_iff (l := array.slots)
  rw [array.length_eq] at full
  rw [firstEmpty?, entries, full]
  constructor
  · simpa using occupied slot member
  simpa using occupied slot member

theorem firstEmpty?_isSome_iff : array.firstEmpty?.isSome ↔ array.entries.length < capacity := by
  have bound := array.entries_length_le
  rw [isSome_iff_ne_none, Ne, firstEmpty?_eq_none_iff]
  omega

theorem fillFirst?_isSome_iff {array : SlotArray capacity α} {value : α} :
    (array.fillFirst? value).isSome ↔ array.entries.length < capacity := by
  rw [fillFirst?, isSome_map, firstEmpty?_isSome_iff]

theorem fillFirst?_entries {filled : SlotArray capacity α}
    (found : array.fillFirst? value = some filled) :
    filled.entries.Perm (value :: array.entries) := by
  obtain ⟨index, free, rfl⟩ := Option.map_eq_some_iff.mp found
  exact entries_set_some (firstEmpty?_eq_some free).1 (firstEmpty?_get? free) value

variable {test : α → Bool}

theorem findFirst?_eq_some (found : array.findFirst? test = some (index, value)) :
    array.get? index = some value ∧ test value = true ∧
      ∀ earlier, earlier < index → ∀ other, array.get? earlier = some other →
        test other = false := by
  obtain ⟨place, located, read⟩ := Option.bind_eq_some_iff.mp found
  obtain ⟨held, here, pair⟩ := Option.map_eq_some_iff.mp read
  cases pair
  obtain ⟨inside, passes, first⟩ := findIdx?_eq_some_iff_getElem.mp located
  have slot : array.slots[index] = some value := by
    rw [get?, getElem?_eq_getElem inside] at here
    simpa using here
  refine ⟨here, by simpa [slot] using passes, ?_⟩
  intro earlier before other otherHeld
  have fails := first earlier before
  rw [get?, getElem?_eq_getElem (by omega)] at otherHeld
  have otherSlot : array.slots[earlier] = some other := by simpa using otherHeld
  simpa [otherSlot] using fails

theorem findFirst?_eq_none_iff :
    array.findFirst? test = none ↔ ∀ value ∈ array.entries, test value = false := by
  constructor
  · intro missing value member
    rw [findFirst?, bind_eq_none_iff] at missing
    rcases located : array.slots.findIdx? (·.any test) with _ | place
    · have fails := findIdx?_eq_none_iff.mp located (some value) (mem_entries.mp member)
      simpa using fails
    obtain ⟨inside, passes, _⟩ := findIdx?_eq_some_iff_getElem.mp located
    have absent := missing place located
    rw [get?, getElem?_eq_getElem inside] at absent
    have slot : array.slots[place] = none := by simpa using absent
    simp [slot] at passes
  intro fails
  rw [findFirst?, bind_eq_none_iff]
  intro place located
  obtain ⟨inside, passes, _⟩ := findIdx?_eq_some_iff_getElem.mp located
  rcases slot : array.slots[place] with _ | value
  · simp [slot] at passes
  have member : value ∈ array.entries :=
    mem_entries.mpr (slot ▸ getElem_mem inside)
  simp [slot, fails value member] at passes

theorem getElem_slots (array : SlotArray capacity α) (inside : index < array.slots.length) :
    array.slots[index] = array.get? index := by
  simp [get?, getElem?_eq_getElem inside]

theorem set_eq_self_iff (inside : index < capacity) {value : Option α} :
    array.set index value = array ↔ array.get? index = value := by
  constructor
  · intro same
    rw [← same]
    exact get?_set_self inside value
  intro same
  have bound : index < array.slots.length := by rwa [array.length_eq]
  apply set_get?
  rw [getElem?_eq_getElem bound, array.getElem_slots bound, same]

theorem firstEmpty?_eq_some_iff : array.firstEmpty? = some index ↔
      index < capacity ∧ array.get? index = none ∧
        ∀ earlier, earlier < index → array.get? earlier ≠ none := by
  rw [firstEmpty?, findIdx?_eq_some_iff_getElem]
  constructor
  · intro place
    rcases place with ⟨inside, isEmpty, first⟩
    refine ⟨array.length_eq ▸ inside, ?_, ?_⟩
    · rw [array.getElem_slots inside] at isEmpty
      exact Option.isNone_iff_eq_none.mp isEmpty
    intro earlier before free
    have occupied := first earlier before
    rw [array.getElem_slots (by omega), free] at occupied
    exact occupied rfl
  intro place
  rcases place with ⟨inside, isEmpty, first⟩
  have bound : index < array.slots.length := by rwa [array.length_eq]
  refine ⟨bound, ?_, ?_⟩
  · rw [array.getElem_slots bound, isEmpty]
    rfl
  intro earlier before free
  rw [array.getElem_slots (by omega)] at free
  exact first earlier before (Option.isNone_iff_eq_none.mp free)

theorem firstEmpty?_eq_none_iff_get? :
    array.firstEmpty? = none ↔ ∀ index, index < capacity → array.get? index ≠ none := by
  rw [firstEmpty?, findIdx?_eq_none_iff]
  constructor
  · intro occupied index inside free
    have bound : index < array.slots.length := by rwa [array.length_eq]
    have notEmpty := occupied _ (getElem_mem bound)
    rw [array.getElem_slots bound, free] at notEmpty
    cases notEmpty
  intro occupied slot member
  rcases getElem_of_mem member with ⟨index, bound, read⟩
  rw [array.getElem_slots bound] at read
  have notEmpty := occupied index (array.length_eq ▸ bound)
  rw [read] at notEmpty
  cases slot with
  | none => exact absurd rfl notEmpty
  | some value => rfl

theorem findFirst?_of_first (held : array.get? index = some value) (passes : test value = true)
    (first : ∀ earlier, earlier < index → ∀ other, array.get? earlier = some other →
      test other = false) :
    array.findFirst? test = some (index, value) := by
  rcases found : array.findFirst? test with _ | stop
  · have fails := findFirst?_eq_none_iff.mp found value (mem_entries_of_get? held)
    rw [passes] at fails
    cases fails
  obtain ⟨stopHeld, stopPasses, stopFirst⟩ := findFirst?_eq_some found
  have notBefore : ¬ stop.1 < index := by
    intro before
    rw [first stop.1 before stop.2 stopHeld] at stopPasses
    cases stopPasses
  have notAfter : ¬ index < stop.1 := by
    intro before
    rw [stopFirst index before value held] at passes
    cases passes
  have place : stop.1 = index := by
    omega
  rw [place, held] at stopHeld
  cases stopHeld
  rw [← place]

private theorem drainSlots_all {slots : List (Option α)} {limit : Nat}
    (enough : slots.reduceOption.length ≤ limit) :
    drainSlots slots limit = (slots.reduceOption, List.replicate slots.length none) := by
  induction slots generalizing limit with
  | nil => rfl
  | cons slot rest ih =>
    cases slot with
    | none =>
      rw [reduceOption_cons_of_none] at enough ⊢
      cases limit with
      | zero =>
        have noneLeft := ih enough
        have unchanged : drainSlots rest 0 = ([], rest) := by
          cases rest <;> rfl
        rw [unchanged, Prod.mk.injEq] at noneLeft
        simp only [drainSlots, length_cons, replicate_succ, ← noneLeft.1]
        rw [← noneLeft.2]
      | succ limit =>
        simp only [drainSlots, ih enough, length_cons, replicate_succ]
    | some value =>
      rw [reduceOption_cons_of_some] at enough ⊢
      cases limit with
      | zero => simp at enough
      | succ limit =>
        have restEnough : rest.reduceOption.length ≤ limit := by
          simpa using enough
        simp only [drainSlots, ih restEnough, length_cons, replicate_succ]

theorem drain_all {limit : Nat} (enough : array.entries.length ≤ limit) :
    array.drain limit = (array.entries, empty capacity α) := by
  have drained := drainSlots_all enough
  rw [array.length_eq] at drained
  refine Prod.ext ?_ (ext ?_)
  · change (drainSlots array.slots limit).1 = array.slots.reduceOption
    rw [drained]
  change (drainSlots array.slots limit).2 = List.replicate capacity none
  rw [drained]

end SlotArray

end Eidolon.Library
