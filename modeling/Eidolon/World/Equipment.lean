import Eidolon.Core.Item
import Eidolon.Library.SlotArray
import Eidolon.World.Error

/-!
# Equipped gear

The container of equipped items and the slot rules of equipping.
-/

namespace Eidolon.World

open Core Library

structure EquipmentContainer where
  slots : SlotArray numEquipmentSlots UInt32
  deriving DecidableEq

namespace EquipmentContainer

def new : EquipmentContainer where
  slots := SlotArray.empty _ _

def get (equipment : EquipmentContainer) (slot : EquipmentSlot) : Option UInt32 :=
  equipment.slots.get? slot.asU8.toNat

def isCompatible (slot allowedSlot : EquipmentSlot) : Bool :=
  match slot, allowedSlot with
  | .ring1, .ring1 | .ring1, .ring2 | .ring2, .ring1 | .ring2, .ring2 => true
  | a, b => decide (a = b)

variable (equipment : EquipmentContainer)

def equip (slot : EquipmentSlot) (itemId : UInt32) :
    Except WorldError (Option UInt32) × EquipmentContainer :=
  match getItemDefinition itemId with
  | none => (.error (.itemNotFound itemId), equipment)
  | some definition =>
    match definition.equipSlot with
    | none => (.error (.transactionAborted "Item cannot be equipped"), equipment)
    | some allowedSlot =>
      if isCompatible slot allowedSlot then
        (.ok (equipment.get slot), { slots := equipment.slots.set slot.asU8.toNat (some itemId) })
      else
        (.error (.transactionAborted "Incompatible equipment slot"), equipment)

/-- Takes the item out of a slot.  A slot index is always in range, so this cannot
fail as the source's signature allows. -/
def unequip (slot : EquipmentSlot) : Option UInt32 × EquipmentContainer :=
  (equipment.get slot, { slots := equipment.slots.set slot.asU8.toNat none })

def computeStats : StatBlock :=
  equipment.slots.entries.foldl (fun total itemId =>
      match itemStats itemId with
      | some stats => total.saturatingAdd stats
      | none => total)
    StatBlock.zero

end EquipmentContainer

end Eidolon.World
