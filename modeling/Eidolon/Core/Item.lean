import Mathlib.Tactic.IntervalCases
import Eidolon.Library.MachineInt

/-!
# Items and equipment slots

The nine equipment slots and the built-in item definitions, of which the slot rules
read the identifier and the slot an item is worn in.
-/

namespace Eidolon.Core

open Library

def numEquipmentSlots : Nat := 9

inductive EquipmentSlot where
  | head
  | chest
  | mainHand
  | offHand
  | legs
  | feet
  | ring1
  | ring2
  | amulet
  deriving DecidableEq

namespace EquipmentSlot

def fromU8 (val : UInt8) : Option EquipmentSlot :=
  match val.toNat with
  | 0 => some head
  | 1 => some chest
  | 2 => some mainHand
  | 3 => some offHand
  | 4 => some legs
  | 5 => some feet
  | 6 => some ring1
  | 7 => some ring2
  | 8 => some amulet
  | _ => none

def asU8 : EquipmentSlot → UInt8
  | head => 0
  | chest => 1
  | mainHand => 2
  | offHand => 3
  | legs => 4
  | feet => 5
  | ring1 => 6
  | ring2 => 7
  | amulet => 8

theorem fromU8_asU8 (slot : EquipmentSlot) : fromU8 slot.asU8 = some slot := by
  cases slot <;> rfl

theorem asU8_of_fromU8 {val : UInt8} {slot : EquipmentSlot} (named : fromU8 val = some slot) :
    slot.asU8 = val := by
  unfold fromU8 at named
  split at named
  all_goals
    first
      | (cases named; apply UInt8.toNat.inj; simp only [asU8, *]; rfl)
      | cases named

theorem fromU8_isSome_iff (val : UInt8) : (fromU8 val).isSome ↔ val.toNat < numEquipmentSlots := by
  constructor
  · intro named
    obtain ⟨slot, slotEq⟩ := Option.isSome_iff_exists.mp named
    rw [← asU8_of_fromU8 slotEq]
    cases slot <;> decide
  intro small
  simp only [numEquipmentSlots] at small
  unfold fromU8
  interval_cases val.toNat
  all_goals rfl

theorem asU8_lt (slot : EquipmentSlot) : slot.asU8.toNat < numEquipmentSlots := by
  cases slot <;> decide

end EquipmentSlot

structure ItemDefinition where
  itemId : UInt32
  equipSlot : Option EquipmentSlot
  deriving DecidableEq

def getItemDefinition (itemId : UInt32) : Option ItemDefinition :=
  match itemId.toNat with
  | 1001 => some { itemId := 1001, equipSlot := some .mainHand }
  | 1002 => some { itemId := 1002, equipSlot := some .offHand }
  | 2001 => some { itemId := 2001, equipSlot := some .head }
  | 2002 => some { itemId := 2002, equipSlot := some .chest }
  | 2003 => some { itemId := 2003, equipSlot := some .legs }
  | 2004 => some { itemId := 2004, equipSlot := some .feet }
  | 3001 => some { itemId := 3001, equipSlot := some .ring1 }
  | 3002 => some { itemId := 3002, equipSlot := some .amulet }
  | 4001 => some { itemId := 4001, equipSlot := none }
  | 4002 => some { itemId := 4002, equipSlot := none }
  | _ => none

structure StatBlock where
  attackPower : UInt32
  armor : UInt32
  deriving DecidableEq

namespace StatBlock

def zero : StatBlock where
  attackPower := 0
  armor := 0

def saturatingAdd (self rhs : StatBlock) : StatBlock where
  attackPower := saturatingAdd32 self.attackPower rhs.attackPower
  armor := saturatingAdd32 self.armor rhs.armor

end StatBlock

def itemStats (itemId : UInt32) : Option StatBlock :=
  match itemId.toNat with
  | 1001 => some { attackPower := 25, armor := 0 }
  | 1002 => some { attackPower := 0, armor := 30 }
  | 2001 => some { attackPower := 0, armor := 20 }
  | 2002 => some { attackPower := 5, armor := 50 }
  | 2003 => some { attackPower := 0, armor := 25 }
  | 2004 => some { attackPower := 0, armor := 10 }
  | 3001 => some { attackPower := 15, armor := 0 }
  | 3002 => some { attackPower := 0, armor := 5 }
  | 4001 => some StatBlock.zero
  | 4002 => some StatBlock.zero
  | _ => none

end Eidolon.Core
