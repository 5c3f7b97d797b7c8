import Eidolon.Core.ItemGraph

/-!
# Slots of a container

What the operations on a container do to its slots, and the units of each item type in
it.
-/

namespace Eidolon.Core

open Function Library List Option

namespace Container

variable {container : Container} {slotIdx : UInt16} {slot : ContainerSlot}

theorem slotIndex_of_getSlot (found : container.getSlot slotIdx = some slot) :
    slot.slotIndex = slotIdx :=
  UInt16.toNat_inj.mp (container.slotIndex_eq slotIdx.toNat slot found)

theorem getSlot_of_mem (member : slot ∈ container.slots) :
    container.getSlot slot.slotIndex = some slot := by
  rcases getElem?_of_mem member with ⟨index, found⟩
  rw [getSlot, container.slotIndex_eq index slot found, found]

theorem mem_of_getSlot (found : container.getSlot slotIdx = some slot) : slot ∈ container.slots :=
  mem_of_getElem? found

theorem getSlot_setItem (container : Container) (slotIdx other : UInt16)
    (item : Option ItemInstance) :
    (container.setItem slotIdx item).getSlot other =
      if slotIdx = other then
        (container.getSlot other).map fun slot => { slot with item := item }
      else
        container.getSlot other := by
  simp only [getSlot, setItem, getElem?_modify, UInt16.toNat_inj]
  by_cases same : slotIdx = other
  · simp [same]
  simp [same]

theorem getSlot_setLocked (container : Container) (slotIdx other : UInt16) (isLocked : Bool) :
    (container.setLocked slotIdx isLocked).getSlot other =
      if slotIdx = other then
        (container.getSlot other).map fun slot => { slot with isLocked := isLocked }
      else
        container.getSlot other := by
  simp only [getSlot, setLocked, getElem?_modify, UInt16.toNat_inj]
  by_cases same : slotIdx = other
  · simp [same]
  simp [same]

theorem setItem_setItem (container : Container) (slotIdx : UInt16)
    (first second : Option ItemInstance) :
    (container.setItem slotIdx first).setItem slotIdx second =
      container.setItem slotIdx second := by
  simp [setItem, modify_modify_eq, comp_def]

theorem setLocked_setLocked (container : Container) (slotIdx : UInt16) (first second : Bool) :
    (container.setLocked slotIdx first).setLocked slotIdx second =
      container.setLocked slotIdx second := by
  simp [setLocked, modify_modify_eq, comp_def]

private theorem modify_eq_self {slots : List ContainerSlot} {index : Nat}
    {change : ContainerSlot → ContainerSlot}
    (same : ∀ slot, slots[index]? = some slot → change slot = slot) :
    slots.modify index change = slots := by
  apply ext_getElem?
  intro place
  rw [getElem?_modify]
  rcases found : slots[place]? with _ | slot
  · rfl
  by_cases here : index = place
  · subst here
    simp [same slot found]
  simp [here]

theorem setItem_eq_self (found : container.getSlot slotIdx = some slot) :
    container.setItem slotIdx slot.item = container := by
  have same : container.slots.modify slotIdx.toNat (fun other => { other with item := slot.item })
      = container.slots := by
    apply modify_eq_self
    intro other otherFound
    rw [getSlot] at found
    rw [found] at otherFound
    cases otherFound
    rfl
  ext1 <;> simp only [setItem, same]

theorem setLocked_eq_self (found : container.getSlot slotIdx = some slot) :
    container.setLocked slotIdx slot.isLocked = container := by
  have same : container.slots.modify slotIdx.toNat
      (fun other => { other with isLocked := slot.isLocked }) = container.slots := by
    apply modify_eq_self
    intro other otherFound
    rw [getSlot] at found
    rw [found] at otherFound
    cases otherFound
    rfl
  ext1 <;> simp only [setLocked, same]

def Vacant (container : Container) (slotIdx : UInt16) : Prop :=
  ∃ slot, container.getSlot slotIdx = some slot ∧ slot.item = none ∧ slot.isLocked = false

theorem vacant_of_findFirstEmptySlot (found : container.findFirstEmptySlot = some slotIdx) :
    container.Vacant slotIdx := by
  rcases Option.map_eq_some_iff.mp found with ⟨slot, first, rfl⟩
  have vacant := find?_some first
  simp only [Bool.and_eq_true, isNone_iff_eq_none, Bool.not_eq_true'] at vacant
  exact ⟨slot, getSlot_of_mem (mem_of_find?_eq_some first), vacant.1, vacant.2⟩

theorem findFirstEmptySlot_eq_none_iff :
    container.findFirstEmptySlot = none ↔ ∀ slotIdx, ¬ container.Vacant slotIdx := by
  rw [findFirstEmptySlot, map_eq_none_iff, find?_eq_none]
  constructor
  · intro occupied slotIdx vacant
    rcases vacant with ⟨slot, found, empty, unlocked⟩
    exact occupied slot (mem_of_getSlot found) (by simp [empty, unlocked])
  intro noneVacant slot member vacant
  simp only [Bool.and_eq_true, isNone_iff_eq_none, Bool.not_eq_true'] at vacant
  exact noneVacant slot.slotIndex ⟨slot, getSlot_of_mem member, vacant.1, vacant.2⟩

variable {targetSlot : Option UInt16}

theorem vacant_of_insertionSlot (found : container.insertionSlot targetSlot = .ok slotIdx) :
    container.Vacant slotIdx := by
  unfold insertionSlot at found
  rcases targetSlot with _ | target
  · rcases first : container.findFirstEmptySlot with _ | place
    · rw [first] at found
      cases found
    rw [first] at found
    cases found
    exact vacant_of_findFirstEmptySlot first
  simp only at found
  rcases read : container.getSlot target with _ | slot
  · rw [read] at found
    cases found
  rw [read] at found
  simp only at found
  split at found
  · cases found
  split at found
  · cases found
  rename_i unlocked empty
  cases found
  exact ⟨slot, read, by simpa using empty, by simpa using unlocked⟩

theorem insertionSlot_of_vacant (vacant : container.Vacant slotIdx) :
    container.insertionSlot (some slotIdx) = .ok slotIdx := by
  rcases vacant with ⟨slot, found, empty, unlocked⟩
  simp [insertionSlot, found, empty, unlocked]

def put (container : Container) (slotIdx : UInt16) (item : ItemInstance)
    (itemWeightGrams : UInt32) : Container :=
  { container.setItem slotIdx (some item) with
    currentWeightGrams := saturatingAdd32 container.currentWeightGrams itemWeightGrams }

theorem insertItem_cases (container : Container) (item : ItemInstance)
    (targetSlot : Option UInt16) (itemWeightGrams : UInt32) :
    (∃ error, container.insertItem item targetSlot itemWeightGrams = (.error error, container)) ∨
    ∃ slotIdx, container.insertItem item targetSlot itemWeightGrams =
      (.ok slotIdx, container.put slotIdx item itemWeightGrams) ∧
      container.Vacant slotIdx := by
  unfold insertItem
  split
  · exact .inl ⟨_, rfl⟩
  split
  · exact .inl ⟨_, rfl⟩
  split
  · exact .inl ⟨_, rfl⟩
  rename_i slotIdx found
  exact .inr ⟨slotIdx, rfl, vacant_of_insertionSlot found⟩

theorem getSlot_put (container : Container) (slotIdx other : UInt16) (item : ItemInstance)
    (itemWeightGrams : UInt32) :
    (container.put slotIdx item itemWeightGrams).getSlot other =
      if slotIdx = other then
        (container.getSlot other).map fun slot => { slot with item := some item }
      else
        container.getSlot other :=
  getSlot_setItem container slotIdx other (some item)

variable {itemWeightGrams : UInt32}

theorem admitsWeight_iff : container.admitsWeight itemWeightGrams = true ↔
      container.maxWeightGrams = 0 ∨
        min (container.currentWeightGrams.toNat + itemWeightGrams.toNat) (2 ^ 32 - 1) ≤
          container.maxWeightGrams.toNat := by
  rw [admitsWeight, Bool.or_eq_true, decide_eq_true_iff, decide_eq_true_iff,
    UInt32.le_iff_toNat_le, toNat_saturatingAdd32]

/-- Whether an insertion finds a slot. -/
def HasRoom (container : Container) (targetSlot : Option UInt16) : Prop :=
  match targetSlot with
  | some slotIdx => container.Vacant slotIdx
  | none => ∃ slotIdx, container.Vacant slotIdx

theorem insertionSlot_of_hasRoom (room : container.HasRoom targetSlot) :
    ∃ slotIdx, container.insertionSlot targetSlot = .ok slotIdx := by
  cases targetSlot with
  | some slotIdx => exact ⟨slotIdx, insertionSlot_of_vacant room⟩
  | none =>
    cases first : container.findFirstEmptySlot with
    | none =>
      rcases room with ⟨slotIdx, vacant⟩
      exact absurd vacant (findFirstEmptySlot_eq_none_iff.mp first slotIdx)
    | some slotIdx => exact ⟨slotIdx, by simp only [insertionSlot, first]⟩

theorem hasRoom_of_insertionSlot (found : container.insertionSlot targetSlot = .ok slotIdx) :
    container.HasRoom targetSlot := by
  have vacant := vacant_of_insertionSlot found
  rcases targetSlot with _ | target
  · exact ⟨slotIdx, vacant⟩
  have same : slotIdx = target := by
    simp only [insertionSlot] at found
    split at found
    · cases found
    split at found
    · cases found
    split at found
    · cases found
    cases found
    rfl
  rw [← same]
  exact vacant

theorem insertItem_ok_iff {container : Container} {item : ItemInstance}
    {targetSlot : Option UInt16} {itemWeightGrams : UInt32} :
    (∃ slotIdx, (container.insertItem item targetSlot itemWeightGrams).1 = .ok slotIdx) ↔
      item.nestedContainerId ≠ some container.containerId ∧
        container.admitsWeight itemWeightGrams = true ∧ container.HasRoom targetSlot := by
  unfold insertItem
  by_cases nested : item.nestedContainerId = some container.containerId
  · simp [nested]
  by_cases admitted : container.admitsWeight itemWeightGrams = true
  · simp only [admitted, Bool.not_true, Bool.false_eq_true, if_false, ne_eq,
      nested, not_false_eq_true, true_and]
    constructor
    · intro accepted
      rcases accepted with ⟨slotIdx, inserted⟩
      cases found : container.insertionSlot targetSlot with
      | error error =>
        rw [found] at inserted
        cases inserted
      | ok place => exact hasRoom_of_insertionSlot found
    intro room
    rcases insertionSlot_of_hasRoom room with ⟨slotIdx, found⟩
    rw [found]
    exact ⟨slotIdx, rfl⟩
  simp [if_neg nested, admitted]

theorem insertItem_cases_of_admitted {item : ItemInstance}
    (notNested : item.nestedContainerId ≠ some container.containerId)
    (admitted : container.admitsWeight itemWeightGrams = true) (targetSlot : Option UInt16) :
    (¬ container.HasRoom targetSlot ∧ ∃ error,
      container.insertItem item targetSlot itemWeightGrams = (.error error, container)) ∨
    (container.HasRoom targetSlot ∧ ∃ slotIdx,
      container.insertItem item targetSlot itemWeightGrams =
        (.ok slotIdx, container.put slotIdx item itemWeightGrams) ∧
      container.Vacant slotIdx) := by
  rcases container.insertItem_cases item targetSlot itemWeightGrams with
    ⟨error, failed⟩ | ⟨slotIdx, inserted, vacant⟩
  · refine .inl ⟨?_, error, failed⟩
    intro room
    rcases insertItem_ok_iff.mpr ⟨notNested, admitted, room⟩ with ⟨slotIdx, accepted⟩
    rw [failed] at accepted
    cases accepted
  have room := (insertItem_ok_iff.mp ⟨slotIdx, congrArg Prod.fst inserted⟩).2.2
  exact .inr ⟨room, slotIdx, inserted, vacant⟩

theorem insertItem_some_ok {item : ItemInstance} {target : UInt16}
    (inserted : (container.insertItem item (some target) itemWeightGrams).1 = .ok slotIdx) :
    (container.insertItem item (some target) itemWeightGrams).2 =
      container.put target item itemWeightGrams := by
  rcases insertItem_ok_iff.mp ⟨slotIdx, inserted⟩ with ⟨notNested, admitted, room⟩
  simp only [insertItem, if_neg notNested, admitted, Bool.not_true, Bool.false_eq_true,
    if_false, insertionSlot_of_vacant room]
  rfl

def Unlocked (container : Container) (slotIdx : UInt16) : Prop :=
  ∃ slot, container.getSlot slotIdx = some slot ∧ slot.isLocked = false

section

variable (unlocked : container.Unlocked slotIdx)
include unlocked

theorem lockSlot_of_unlocked :
    container.lockSlot slotIdx = (.ok (), container.setLocked slotIdx true) := by
  rcases unlocked with ⟨slot, found, isUnlocked⟩
  simp [lockSlot, found, isUnlocked]

theorem unlockSlot_eq_self : container.unlockSlot slotIdx = container := by
  rcases unlocked with ⟨slot, found, isUnlocked⟩
  have same := setLocked_eq_self found
  rwa [isUnlocked] at same

theorem unlockSlot_setLocked :
    (container.setLocked slotIdx true).unlockSlot slotIdx = container := by
  rw [unlockSlot, setLocked_setLocked]
  exact unlockSlot_eq_self unlocked

theorem Unlocked.setItem (other : UInt16) (item : Option ItemInstance) :
    (container.setItem other item).Unlocked slotIdx := by
  rcases unlocked with ⟨slot, found, isUnlocked⟩
  rw [Unlocked, getSlot_setItem, found]
  by_cases same : other = slotIdx
  · rw [if_pos same]
    exact ⟨_, rfl, isUnlocked⟩
  rw [if_neg same]
  exact ⟨slot, rfl, isUnlocked⟩

theorem Unlocked.put (other : UInt16) (item : ItemInstance) (itemWeightGrams : UInt32) :
    (container.put other item itemWeightGrams).Unlocked slotIdx :=
  unlocked.setItem other (some item)

theorem Unlocked.insertItem (item : ItemInstance) (targetSlot : Option UInt16)
    (itemWeightGrams : UInt32) :
    (container.insertItem item targetSlot itemWeightGrams).2.Unlocked slotIdx := by
  rcases container.insertItem_cases item targetSlot itemWeightGrams with
    ⟨error, failed⟩ | ⟨place, inserted, _⟩
  · rw [failed]
    exact unlocked
  rw [inserted]
  exact unlocked.put place item itemWeightGrams

end

theorem containerId_insertItem (container : Container) (item : ItemInstance)
    (targetSlot : Option UInt16) (itemWeightGrams : UInt32) :
    (container.insertItem item targetSlot itemWeightGrams).2.containerId =
      container.containerId := by
  rcases container.insertItem_cases item targetSlot itemWeightGrams with
    ⟨error, failed⟩ | ⟨place, inserted, _⟩
  · rw [failed]
  rw [inserted]
  rfl

def itemUnits (typeId : UInt32) : Option ItemInstance → Nat
  | some item => if item.typeId = typeId then item.quantity.toNat else 0
  | none => 0

def units (container : Container) (typeId : UInt32) : Nat :=
  (container.slots.map fun slot => itemUnits typeId slot.item).sum

private theorem sum_map_modify (slots : List ContainerSlot) (index : Nat)
    (change : ContainerSlot → ContainerSlot) (weight : ContainerSlot → Nat)
    (found : slots[index]? = some slot) :
    ((slots.modify index change).map weight).sum + weight slot =
      (slots.map weight).sum + weight (change slot) := by
  induction slots generalizing index with
  | nil => cases found
  | cons first rest ih =>
    cases index with
    | zero =>
      cases found
      simp only [modify_zero_cons, map_cons, sum_cons]
      omega
    | succ index =>
      have tail := ih index found
      simp only [modify_succ_cons, map_cons, sum_cons]
      omega

theorem units_setItem (found : container.getSlot slotIdx = some slot) (item : Option ItemInstance)
    (typeId : UInt32) :
    (container.setItem slotIdx item).units typeId + itemUnits typeId slot.item =
      container.units typeId + itemUnits typeId item :=
  sum_map_modify container.slots slotIdx.toNat _ _ found

theorem units_put (vacant : container.Vacant slotIdx) (item : ItemInstance)
    (itemWeightGrams : UInt32) (typeId : UInt32) :
    (container.put slotIdx item itemWeightGrams).units typeId =
      container.units typeId + itemUnits typeId (some item) := by
  rcases vacant with ⟨slot, found, empty, _⟩
  have exchanged := units_setItem found (some item) typeId
  rw [empty] at exchanged
  exact exchanged

def NestsAt (container : Container) (slotIdx : UInt16) (inner : UInt64) : Prop :=
  ∃ slot item, container.getSlot slotIdx = some slot ∧ slot.item = some item ∧
    item.nestedContainerId = some inner

/-- The container holds a bag that wraps the container of this identifier. -/
def Nests (container : Container) (inner : UInt64) : Prop :=
  ∃ slotIdx, container.NestsAt slotIdx inner

theorem nests_iff_mem {inner : UInt64} : container.Nests inner ↔
      inner ∈ container.slots.filterMap fun slot =>
        slot.item.bind ItemInstance.nestedContainerId := by
  simp only [mem_filterMap, bind_eq_some_iff]
  constructor
  · intro nests
    rcases nests with ⟨slotIdx, slot, item, found, occupied, nested⟩
    exact ⟨slot, mem_of_getSlot found, item, occupied, nested⟩
  intro listed
  rcases listed with ⟨slot, member, item, occupied, nested⟩
  exact ⟨slot.slotIndex, slot, item, getSlot_of_mem member, occupied, nested⟩

instance (container : Container) (inner : UInt64) : Decidable (container.Nests inner) :=
  decidable_of_iff _ nests_iff_mem.symm

theorem not_nests_new (containerId ownerId : UInt64) (containerType : ContainerType)
    (capacity : UInt16) (maxWeightGrams : UInt32) (inner : UInt64) :
    ¬ (new containerId ownerId containerType capacity maxWeightGrams).Nests inner := by
  rw [nests_iff_mem, mem_filterMap]
  intro listed
  rcases listed with ⟨slot, member, nested⟩
  rcases mem_map.mp member with ⟨index, _, rfl⟩
  cases nested

theorem nestsAt_setItem (found : container.getSlot slotIdx = some slot) (item : ItemInstance)
    (inner : UInt64) :
    (container.setItem slotIdx (some item)).NestsAt slotIdx inner ↔
      item.nestedContainerId = some inner := by
  rw [NestsAt, getSlot_setItem, found]
  simp

theorem nestsAt_setItem_of_ne {other : UInt16} (different : slotIdx ≠ other)
    (item : Option ItemInstance) (inner : UInt64) :
    (container.setItem slotIdx item).NestsAt other inner ↔ container.NestsAt other inner := by
  rw [NestsAt, getSlot_setItem, if_neg different, NestsAt]

theorem nests_of_setItem {container : Container} {slotIdx : UInt16} {item : Option ItemInstance}
    {inner : UInt64} (nests : (container.setItem slotIdx item).Nests inner) :
    container.Nests inner ∨ ∃ new, item = some new ∧ new.nestedContainerId = some inner := by
  rcases nests with ⟨other, at_other⟩
  by_cases same : slotIdx = other
  · rw [NestsAt, getSlot_setItem, if_pos same] at at_other
    rcases at_other with ⟨slot, new, found, occupied, nested⟩
    rcases Option.map_eq_some_iff.mp found with ⟨before, _, rfl⟩
    exact .inr ⟨new, occupied, nested⟩
  exact .inl ⟨other, (nestsAt_setItem_of_ne same item inner).mp at_other⟩

theorem nests_put_iff (vacant : container.Vacant slotIdx) (item : ItemInstance)
    (itemWeightGrams : UInt32) (inner : UInt64) :
    (container.put slotIdx item itemWeightGrams).Nests inner ↔
      container.Nests inner ∨ item.nestedContainerId = some inner := by
  rcases vacant with ⟨slot, found, empty, _⟩
  constructor
  · intro nests
    rcases nests_of_setItem nests with before | ⟨new, same, nested⟩
    · exact .inl before
    cases same
    exact .inr nested
  rintro (⟨other, at_other⟩ | nested)
  · refine ⟨other, (nestsAt_setItem_of_ne ?_ (some item) inner).mpr at_other⟩
    rintro rfl
    rcases at_other with ⟨occupiedSlot, held, read, occupied, _⟩
    rw [found] at read
    cases read
    rw [empty] at occupied
    cases occupied
  exact ⟨slotIdx, (nestsAt_setItem found item inner).mpr nested⟩

end Container

end Eidolon.Core
