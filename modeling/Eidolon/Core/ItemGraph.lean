import Mathlib.Data.List.Range
import Eidolon.Library.MachineInt

/-!
# The item graph

Item instances and the bounded, slotted containers that hold them.  An item that is a
bag names the container nested in it.  Every slot of a container carries its own place
as its index, which the structure keeps.
-/

namespace Eidolon.Core

open Library Option

def itemFlagSoulbound : UInt16 := 1

def itemFlagContainer : UInt16 := 8

inductive ContainerError where
  | slotOutOfRange
  | slotNotEmpty
  | slotEmpty
  | slotLocked
  | capacityFull
  | weightLimitExceeded
  | itemTypeMismatch
  | stackLimitExceeded
  | invalidQuantity
  | itemNotFound
  | recursiveNestingNotAllowed
  deriving DecidableEq

structure ItemInstance where
  instanceId : UInt64
  typeId : UInt32
  quantity : UInt32
  durability : UInt16
  maxDurability : UInt16
  flags : UInt16
  creatorId : Option UInt64
  nestedContainerId : Option UInt64
  deriving DecidableEq

namespace ItemInstance

def new (instanceId : UInt64) (typeId quantity : UInt32) (maxDurability : UInt16) :
    ItemInstance where
  instanceId := instanceId
  typeId := typeId
  quantity := if quantity < 1 then 1 else quantity
  durability := maxDurability
  maxDurability := maxDurability
  flags := 0
  creatorId := none
  nestedContainerId := none

def newContainer (instanceId : UInt64) (typeId : UInt32) (maxDurability : UInt16)
    (nestedContainerId : UInt64) : ItemInstance where
  instanceId := instanceId
  typeId := typeId
  quantity := 1
  durability := maxDurability
  maxDurability := maxDurability
  flags := itemFlagContainer
  creatorId := none
  nestedContainerId := some nestedContainerId

end ItemInstance

inductive ContainerType where
  | playerInventory
  | playerEquipment
  | nestedBag
  | bankVault
  | structureChest
  | vendorKiosk
  | corpseLoot
  deriving DecidableEq

structure ContainerSlot where
  slotIndex : UInt16
  item : Option ItemInstance
  isLocked : Bool
  deriving DecidableEq

@[ext]
structure Container where
  containerId : UInt64
  ownerId : UInt64
  containerType : ContainerType
  capacity : UInt16
  maxWeightGrams : UInt32
  currentWeightGrams : UInt32
  slots : List ContainerSlot
  slotIndex_eq : ∀ index (slot : ContainerSlot), slots[index]? = some slot →
    slot.slotIndex.toNat = index
  deriving DecidableEq

namespace Container

def new (containerId ownerId : UInt64) (containerType : ContainerType) (capacity : UInt16)
    (maxWeightGrams : UInt32) : Container where
  containerId := containerId
  ownerId := ownerId
  containerType := containerType
  capacity := capacity
  maxWeightGrams := maxWeightGrams
  currentWeightGrams := 0
  slots := (List.range capacity.toNat).map fun index =>
    { slotIndex := UInt16.ofNat index, item := none, isLocked := false }
  slotIndex_eq := by
    intro index slot found
    rw [List.getElem?_map, map_eq_some_iff] at found
    rcases found with ⟨place, inRange, rfl⟩
    rcases List.getElem?_eq_some_iff.mp inRange with ⟨inside, rfl⟩
    have bound := capacity.toNat_lt
    rw [List.length_range] at inside
    simp only [List.getElem_range, UInt16.toNat_ofNat']
    omega

variable (container : Container)

def freeSlotCount : Nat :=
  container.slots.countP fun slot => slot.item.isNone

def findFirstEmptySlot : Option UInt16 :=
  (container.slots.find? fun slot => slot.item.isNone && !slot.isLocked).map ContainerSlot.slotIndex

variable (slotIdx : UInt16)

def getSlot : Option ContainerSlot :=
  container.slots[slotIdx.toNat]?

def setItem (item : Option ItemInstance) :
    Container :=
  { container with
    slots := container.slots.modify slotIdx.toNat fun slot => { slot with item := item }
    slotIndex_eq := by
      intro index slot found
      rw [List.getElem?_modify, Option.map_eq_map, map_eq_some_iff] at found
      rcases found with ⟨before, isBefore, rfl⟩
      have same := container.slotIndex_eq index before isBefore
      split <;> exact same }

def setLocked (isLocked : Bool) : Container :=
  { container with
    slots := container.slots.modify slotIdx.toNat fun slot => { slot with isLocked := isLocked }
    slotIndex_eq := by
      intro index slot found
      rw [List.getElem?_modify, Option.map_eq_map, map_eq_some_iff] at found
      rcases found with ⟨before, isBefore, rfl⟩
      have same := container.slotIndex_eq index before isBefore
      split <;> exact same }

def lockSlot : Except ContainerError Unit × Container :=
  match container.getSlot slotIdx with
  | none => (.error .slotOutOfRange, container)
  | some slot =>
    if slot.isLocked then
      (.error .slotLocked, container)
    else
      (.ok (), container.setLocked slotIdx true)

def unlockSlot : Container :=
  container.setLocked slotIdx false

variable (itemWeightGrams : UInt32)

def admitsWeight : Bool :=
  decide (container.maxWeightGrams = 0) ||
    decide (saturatingAdd32 container.currentWeightGrams itemWeightGrams ≤ container.maxWeightGrams)

def insertionSlot (targetSlot : Option UInt16) : Except ContainerError UInt16 :=
  match targetSlot with
  | some slotIdx =>
    match container.getSlot slotIdx with
    | none => .error .slotOutOfRange
    | some slot =>
      if slot.isLocked then
        .error .slotLocked
      else if slot.item.isSome then
        .error .slotNotEmpty
      else
        .ok slotIdx
  | none =>
    match container.findFirstEmptySlot with
    | none => .error .capacityFull
    | some slotIdx => .ok slotIdx

def insertItem (item : ItemInstance) (targetSlot : Option UInt16) (itemWeightGrams : UInt32) :
    Except ContainerError UInt16 × Container :=
  if item.nestedContainerId = some container.containerId then
    (.error .recursiveNestingNotAllowed, container)
  else if !container.admitsWeight itemWeightGrams then
    (.error .weightLimitExceeded, container)
  else
    match container.insertionSlot targetSlot with
    | .error error => (.error error, container)
    | .ok slotIdx =>
      (.ok slotIdx,
        { container.setItem slotIdx (some item) with
          currentWeightGrams :=
            saturatingAdd32 container.currentWeightGrams itemWeightGrams })

def removeItem : Except ContainerError ItemInstance × Container :=
  match container.getSlot slotIdx with
  | none => (.error .slotOutOfRange, container)
  | some slot =>
    if slot.isLocked then
      (.error .slotLocked, container)
    else
      match slot.item with
      | none => (.error .slotEmpty, container)
      | some item =>
        (.ok item,
          { container.setItem slotIdx none with
            currentWeightGrams :=
              saturatingSub32 container.currentWeightGrams itemWeightGrams })

def splitStack (splitAmount : UInt32) (newInstanceId : UInt64) :
    Except ContainerError ItemInstance × Container :=
  if splitAmount = 0 then
    (.error .invalidQuantity, container)
  else
    match container.getSlot slotIdx with
    | none => (.error .slotOutOfRange, container)
    | some slot =>
      if slot.isLocked then
        (.error .slotLocked, container)
      else
        match slot.item with
        | none => (.error .slotEmpty, container)
        | some item =>
          if item.quantity ≤ splitAmount then
            (.error .invalidQuantity, container)
          else
            let left := { item with quantity := item.quantity - splitAmount }
            (.ok { left with instanceId := newInstanceId, quantity := splitAmount },
              container.setItem slotIdx (some left))

def commitRemoveItem : Except ContainerError ItemInstance × Container :=
  (container.unlockSlot slotIdx).removeItem slotIdx itemWeightGrams

def commitSplitStack (splitAmount : UInt32) (newInstanceId : UInt64) :
    Except ContainerError ItemInstance × Container :=
  (container.unlockSlot slotIdx).splitStack slotIdx splitAmount newInstanceId

end Container

end Eidolon.Core
