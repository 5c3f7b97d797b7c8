import Mathlib.Data.Finmap
import Eidolon.Core.ItemGraph

/-!
# The item transaction coordinator

Atomic transfers of items between the slots of registered containers: a transfer is
validated, its source slot is locked, the item is moved and the slot is unlocked.

A container is registered under its own identifier, which the structure keeps.  A
container that is changed in place is written back under it.
-/

namespace Eidolon.World

open Core Library

def maxTxDedupCapacity : Nat := 2048

inductive ItemTransactionError where
  | sourceContainerNotFound
  | targetContainerNotFound
  | itemNotFound
  | slotLocked
  | insufficientQuantity
  | targetContainerFull
  | targetWeightLimitExceeded
  | soulboundItemUntransferable
  | recursiveNestingNotAllowed
  | duplicateTransactionId
  | targetSlotNotEmpty
  | itemTypeMismatch
  deriving DecidableEq

def ItemTransactionError.ofContainerError : ContainerError → ItemTransactionError
  | .slotLocked => slotLocked
  | .capacityFull => targetContainerFull
  | .weightLimitExceeded => targetWeightLimitExceeded
  | .slotNotEmpty => targetSlotNotEmpty
  | .itemTypeMismatch => itemTypeMismatch
  | .recursiveNestingNotAllowed => recursiveNestingNotAllowed
  | _ => itemNotFound

/-- A transfer; without a target slot it goes to the first available one. -/
structure ItemTransferIntent where
  transactionId : UInt64
  sourceContainerId : UInt64
  sourceSlot : UInt16
  itemInstanceId : UInt64
  targetContainerId : UInt64
  targetSlot : Option UInt16
  quantity : UInt32
  itemWeightGrams : UInt32
  deriving DecidableEq

/-- A committed transfer. -/
structure ItemTransferResult where
  transactionId : UInt64
  sourceContainerId : UInt64
  targetContainerId : UInt64
  targetSlot : UInt16
  itemInstanceId : UInt64
  quantity : UInt32
  deriving DecidableEq

def ItemTransferIntent.result (intent : ItemTransferIntent) (resultingSlot : UInt16) :
    ItemTransferResult where
  transactionId := intent.transactionId
  sourceContainerId := intent.sourceContainerId
  targetContainerId := intent.targetContainerId
  targetSlot := resultingSlot
  itemInstanceId := intent.itemInstanceId
  quantity := intent.quantity

structure ItemTransactionCoordinator where
  containers : Finmap fun _ : UInt64 => Container
  processedTransactions : List UInt64
  dedupCursor : Fin maxTxDedupCapacity
  nextInstanceId : UInt64
  containerId_eq : ∀ id (container : Container), containers.lookup id = some container →
    container.containerId = id
  processedTransactions_length : processedTransactions.length = maxTxDedupCapacity

namespace ItemTransactionCoordinator

def new : ItemTransactionCoordinator where
  containers := ∅
  processedTransactions := List.replicate maxTxDedupCapacity 0
  dedupCursor := ⟨0, by decide⟩
  nextInstanceId := 100000
  containerId_eq := by
    intro id container found
    rw [Finmap.lookup_empty] at found
    cases found
  processedTransactions_length := List.length_replicate

variable (coordinator : ItemTransactionCoordinator)

def getContainer (containerId : UInt64) : Option Container :=
  coordinator.containers.lookup containerId

def registerContainer (container : Container) :
    ItemTransactionCoordinator :=
  { coordinator with
    containers := coordinator.containers.insert container.containerId container
    containerId_eq := by
      intro id other found
      by_cases same : id = container.containerId
      · rw [same, Finmap.lookup_insert] at found
        cases found
        exact same.symm
      rw [Finmap.lookup_insert_of_ne _ same] at found
      exact coordinator.containerId_eq id other found }

def allocateInstanceId : UInt64 × ItemTransactionCoordinator :=
  (coordinator.nextInstanceId,
    { coordinator with nextInstanceId := saturatingAdd64 coordinator.nextInstanceId 1 })

def isTransactionProcessed (txId : UInt64) : Bool :=
  coordinator.processedTransactions.contains txId

def recordTransaction (txId : UInt64) :
    ItemTransactionCoordinator :=
  { coordinator with
    processedTransactions := coordinator.processedTransactions.set coordinator.dedupCursor txId
    dedupCursor := ⟨(coordinator.dedupCursor + 1) % maxTxDedupCapacity, Nat.mod_lt _ (by decide)⟩
    processedTransactions_length := by
      rw [List.length_set, coordinator.processedTransactions_length] }

variable (intent : ItemTransferIntent)

def validateTransfer : Except ItemTransactionError Unit :=
  if coordinator.isTransactionProcessed intent.transactionId then
    .error .duplicateTransactionId
  else
    match coordinator.getContainer intent.sourceContainerId with
    | none => .error .sourceContainerNotFound
    | some src =>
      match coordinator.getContainer intent.targetContainerId with
      | none => .error .targetContainerNotFound
      | some dst =>
        match src.getSlot intent.sourceSlot with
        | none => .error .itemNotFound
        | some slot =>
          if slot.isLocked then
            .error .slotLocked
          else
            match slot.item with
            | none => .error .itemNotFound
            | some item =>
              if item.instanceId ≠ intent.itemInstanceId then
                .error .itemNotFound
              else if intent.quantity = 0 ∨ item.quantity < intent.quantity then
                .error .insufficientQuantity
              else if item.flags &&& itemFlagSoulbound ≠ 0 ∧ src.ownerId ≠ dst.ownerId then
                .error .soulboundItemUntransferable
              else if item.nestedContainerId = some intent.targetContainerId then
                .error .recursiveNestingNotAllowed
              else if !dst.admitsWeight intent.itemWeightGrams then
                .error .targetWeightLimitExceeded
              else
                match intent.targetSlot with
                | some targetSlot =>
                  match dst.getSlot targetSlot with
                  | none => .error .targetSlotNotEmpty
                  | some slot =>
                    if slot.isLocked then
                      .error .slotLocked
                    else if slot.item.isSome then
                      .error .targetSlotNotEmpty
                    else
                      .ok ()
                | none =>
                  if dst.freeSlotCount = 0 ∧
                      intent.sourceContainerId ≠ intent.targetContainerId then
                    .error .targetContainerFull
                  else
                    .ok ()

def takeItem (src : Container) (intent : ItemTransferIntent) (itemWeightGrams : UInt32)
    (newSplitId : UInt64) : Except ItemTransactionError ItemInstance × Container :=
  match (src.getSlot intent.sourceSlot).bind ContainerSlot.item with
  | none => (.error .itemNotFound, src)
  | some item =>
    let (result, src) :=
      if item.quantity = intent.quantity then
        src.commitRemoveItem intent.sourceSlot itemWeightGrams
      else
        src.commitSplitStack intent.sourceSlot intent.quantity newSplitId
    match result with
    | .error error => (.error (.ofContainerError error), src)
    | .ok item => (.ok item, src)

def commitTransfer : Except ItemTransactionError ItemTransferResult × ItemTransactionCoordinator :=
  let (newSplitId, coordinator) := coordinator.allocateInstanceId
  match coordinator.getContainer intent.sourceContainerId with
  | none => (.error .sourceContainerNotFound, coordinator)
  | some src =>
    if intent.sourceContainerId = intent.targetContainerId then
      match takeItem src intent 0 newSplitId with
      | (.error error, src) => (.error error, coordinator.registerContainer src)
      | (.ok itemToMove, src) =>
        match src.insertItem itemToMove intent.targetSlot 0 with
        | (.error error, src) =>
          (.error (.ofContainerError error), coordinator.registerContainer src)
        | (.ok resultingSlot, src) =>
          (.ok (intent.result resultingSlot), coordinator.registerContainer src)
    else
      match takeItem src intent intent.itemWeightGrams newSplitId with
      | (.error error, src) => (.error error, coordinator.registerContainer src)
      | (.ok itemToMove, src) =>
        let coordinator := coordinator.registerContainer src
        match coordinator.getContainer intent.targetContainerId with
        | none => (.error .targetContainerNotFound, coordinator)
        | some dst =>
          match dst.insertItem itemToMove intent.targetSlot intent.itemWeightGrams with
          | (.ok resultingSlot, dst) =>
            (.ok (intent.result resultingSlot), coordinator.registerContainer dst)
          | (.error error, dst) =>
            let coordinator := coordinator.registerContainer dst
            match coordinator.getContainer intent.sourceContainerId with
            | none => (.error (.ofContainerError error), coordinator)
            | some src =>
              -- the result of the rollback is not looked at
              let (_, src) :=
                src.insertItem itemToMove (some intent.sourceSlot) intent.itemWeightGrams
              (.error (.ofContainerError error), coordinator.registerContainer src)

def executeTransfer : Except ItemTransactionError ItemTransferResult × ItemTransactionCoordinator :=
  match coordinator.validateTransfer intent with
  | .error error => (.error error, coordinator)
  | .ok () =>
    match coordinator.getContainer intent.sourceContainerId with
    | none => (.error .sourceContainerNotFound, coordinator)
    | some src =>
      match src.lockSlot intent.sourceSlot with
      | (.error error, src) => (.error (.ofContainerError error), coordinator.registerContainer src)
      | (.ok (), src) =>
        let (result, coordinator) :=
          (coordinator.registerContainer src).commitTransfer intent
        let coordinator :=
          match coordinator.getContainer intent.sourceContainerId with
          | none => coordinator
          | some src => coordinator.registerContainer (src.unlockSlot intent.sourceSlot)
        match result with
        | .error error => (.error error, coordinator)
        | .ok result => (.ok result, coordinator.recordTransaction intent.transactionId)

end ItemTransactionCoordinator

end Eidolon.World
