import Eidolon.World.ItemTransfer

/-!
# The weight of two containers across a transfer

An insertion adds the transferred weight to the target and a removal takes it off the
source, both saturating; splitting a stack takes no weight off the source.  A transfer
between two containers keeps the sum of their weights exactly if what the source gives
up is what the target takes up.
-/

namespace Eidolon.World

open Core Library

namespace ItemTransactionCoordinator

variable (coordinator : ItemTransactionCoordinator)

/-- The weight a registered container records, and 0 for one that is not registered. -/
def weightOf (containerId : UInt64) : Nat :=
  match coordinator.getContainer containerId with
  | none => 0
  | some container => container.currentWeightGrams.toNat

variable (intent : ItemTransferIntent)

/-- What the two containers of a transfer weigh together. -/
def weightBetween :
    Nat :=
  coordinator.weightOf intent.sourceContainerId + coordinator.weightOf intent.targetContainerId

/-- The transfer leaves the weight of its two containers together as it was. -/
def ConservesWeight :
    Prop :=
  (coordinator.executeTransfer intent).2.weightBetween intent = coordinator.weightBetween intent

/-- Each container's weight is the sum of what its items were inserted with. -/
def Weighed (insertedWith : UInt64 → UInt16 → UInt32) : Prop :=
  ∀ id container, coordinator.getContainer id = some container →
    container.currentWeightGrams.toNat = (container.slots.map fun slot =>
        if slot.item.isSome then (insertedWith id slot.slotIndex).toNat else 0).sum

def givenUp (src : Container) (item : ItemInstance) (intent : ItemTransferIntent) : Nat :=
  if item.quantity = intent.quantity then
    min intent.itemWeightGrams.toNat src.currentWeightGrams.toNat
  else
    0

def takenUp (dst : Container) (intent : ItemTransferIntent) : Nat :=
  min intent.itemWeightGrams.toNat (2 ^ 32 - 1 - dst.currentWeightGrams.toNat)

/-- The source of the intent gives up what its target takes up. -/
def Balanced : Prop :=
  ∃ src dst slot item, coordinator.getContainer intent.sourceContainerId = some src ∧
      coordinator.getContainer intent.targetContainerId = some dst ∧
      src.getSlot intent.sourceSlot = some slot ∧ slot.item = some item ∧
      givenUp src item intent = takenUp dst intent

theorem weight_leftBehind (src : Container) (item : ItemInstance) (intent : ItemTransferIntent) :
    (leftBehind src intent item intent.itemWeightGrams).currentWeightGrams.toNat +
      givenUp src item intent = src.currentWeightGrams.toNat := by
  unfold leftBehind givenUp
  split
  · rw [toNat_saturatingSub32]
    omega
  rfl

theorem weight_put (dst : Container) (slotIdx : UInt16) (item : ItemInstance)
    (intent : ItemTransferIntent) :
    (dst.put slotIdx item intent.itemWeightGrams).currentWeightGrams.toNat =
      dst.currentWeightGrams.toNat + takenUp dst intent := by
  have bound := dst.currentWeightGrams.toNat_lt
  unfold Container.put takenUp
  rw [toNat_saturatingAdd32]
  omega

section Prepared

variable {coordinator : ItemTransactionCoordinator} {intent : ItemTransferIntent}
variable {src dst : Container} {item : ItemInstance}

section

variable (prepared : Prepared coordinator intent src dst item)
include prepared

theorem Prepared.balanced_iff :
    coordinator.Balanced intent ↔ givenUp src item intent = takenUp dst intent := by
  constructor
  · intro balanced
    rcases balanced with ⟨otherSrc, otherDst, slot, otherItem, source, target, held, occupied, even⟩
    cases source.symm.trans prepared.source
    cases target.symm.trans prepared.target
    cases held.symm.trans prepared.held
    cases occupied
    exact even
  intro even
  exact ⟨src, dst, _, item, prepared.source, prepared.target, prepared.held, rfl, even⟩

theorem Prepared.weightBetween_eq : coordinator.weightBetween intent =
      src.currentWeightGrams.toNat + dst.currentWeightGrams.toNat := by
  rw [weightBetween, weightOf, weightOf, prepared.source, prepared.target]

/-- After a success the two containers weigh what they did, less what was given up and
with what was taken up. -/
theorem Prepared.weightBetween_executeTransfer
    (different : intent.sourceContainerId ≠ intent.targetContainerId)
    {result : ItemTransferResult}
    (succeeded : (coordinator.executeTransfer intent).1 = .ok result) :
    (coordinator.executeTransfer intent).2.weightBetween intent + givenUp src item intent =
      coordinator.weightBetween intent + takenUp dst intent := by
  rcases prepared.executeTransfer_between different with
    ⟨_, ⟨error, outcome⟩, _⟩ | ⟨_, slotIdx, _, _, containers⟩
  · rw [outcome] at succeeded
    cases succeeded
  have source : (coordinator.executeTransfer intent).2.getContainer intent.sourceContainerId =
      some (leftBehind src intent item intent.itemWeightGrams) := by
    rw [getContainer, containers, Finmap.lookup_insert_of_ne _ different, Finmap.lookup_insert]
  have target : (coordinator.executeTransfer intent).2.getContainer intent.targetContainerId =
      some (dst.put slotIdx (movedItem intent item coordinator.nextInstanceId)
        intent.itemWeightGrams) := by
    rw [getContainer, containers, Finmap.lookup_insert]
  have left := weight_leftBehind src item intent
  have put := weight_put dst slotIdx (movedItem intent item coordinator.nextInstanceId) intent
  rw [prepared.weightBetween_eq, weightBetween, weightOf, weightOf, source, target]
  simp only
  omega

end

end Prepared

/-- A successful transfer between two containers keeps their weight together exactly if
the source gives up what the target takes up. -/
theorem executeTransfer_conservesWeight_iff (coordinator : ItemTransactionCoordinator)
    (intent : ItemTransferIntent) (result : ItemTransferResult)
    (different : intent.sourceContainerId ≠ intent.targetContainerId)
    (succeeded : (coordinator.executeTransfer intent).1 = .ok result) :
    coordinator.ConservesWeight intent ↔ coordinator.Balanced intent := by
  cases valid : coordinator.validateTransfer intent with
  | error error =>
    rw [executeTransfer_of_invalid valid] at succeeded
    cases succeeded
  | ok =>
    rcases prepared_of_validateTransfer valid with ⟨src, dst, item, prepared⟩
    have after := prepared.weightBetween_executeTransfer different succeeded
    rw [prepared.balanced_iff, ConservesWeight]
    omega

/-- A pouch of one slot with a stack of five, inserted with 500 grams. -/
def weighedPouch : Container :=
  ((Container.new 1 10 .playerInventory 1 0).insertItem (ItemInstance.new 100 7 5 0) none 500).2

def pouchAndChest : ItemTransactionCoordinator :=
  (new.registerContainer weighedPouch).registerContainer (Container.new 2 10 .structureChest 1 0)

def intoChest (quantity itemWeightGrams : UInt32) : ItemTransferIntent where
  transactionId := 1
  sourceContainerId := 1
  sourceSlot := 0
  itemInstanceId := 100
  targetContainerId := 2
  targetSlot := none
  quantity := quantity
  itemWeightGrams := itemWeightGrams

/-- The whole stack of five takes its 500 grams along. -/
theorem executeTransfer_conservesWeight_iff_whole_stack :
    pouchAndChest.ConservesWeight (intoChest 5 500) ↔ pouchAndChest.Balanced (intoChest 5 500) :=
  executeTransfer_conservesWeight_iff pouchAndChest (intoChest 5 500)
    ((intoChest 5 500).result 0) (by decide) (by decide +kernel)

theorem weighed_pouchAndChest : pouchAndChest.Weighed fun _ _ => 500 := by
  have pouch : weighedPouch.currentWeightGrams.toNat =
      (weighedPouch.slots.map fun slot => if slot.item.isSome then 500 else 0).sum := by
    decide +kernel
  intro id container found
  rw [pouchAndChest, getContainer_registerContainer, getContainer_registerContainer] at found
  split at found
  · cases found
    rfl
  split at found
  · cases found
    exact pouch
  cases found

/-- Splitting two units of 100 grams each off the stack of 500 grams: the chest records
200 grams and the pouch still 500. -/
theorem not_conservesWeight_split : (pouchAndChest.Weighed fun _ _ => 500) ∧
      (pouchAndChest.executeTransfer (intoChest 2 200)).1 = .ok ((intoChest 2 200).result 0) ∧
      pouchAndChest.weightBetween (intoChest 2 200) = 500 ∧
      (pouchAndChest.executeTransfer (intoChest 2 200)).2.weightBetween (intoChest 2 200) = 700 ∧
      ¬ pouchAndChest.ConservesWeight (intoChest 2 200) := by
  have before : pouchAndChest.weightBetween (intoChest 2 200) = 500 := by
    decide +kernel
  have after : (pouchAndChest.executeTransfer (intoChest 2 200)).2.weightBetween
      (intoChest 2 200) = 700 := by
    decide +kernel
  refine ⟨weighed_pouchAndChest, by decide +kernel, before, after, ?_⟩
  intro conserves
  rw [ConservesWeight, after] at conserves
  cases conserves

end ItemTransactionCoordinator

end Eidolon.World
