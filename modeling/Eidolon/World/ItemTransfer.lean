import Eidolon.Core.ItemGraphSlots
import Eidolon.Library.FiniteMap
import Eidolon.World.ItemTransaction

/-!
# What a transfer does

A transfer that does not validate changes nothing.  One that does takes the item out of
the source slot and inserts it; the containers afterwards are given here in terms of
that one insertion.
-/

namespace Eidolon.World

open Core Library

namespace ItemTransactionCoordinator

structure Prepared (coordinator : ItemTransactionCoordinator) (intent : ItemTransferIntent)
    (src dst : Container) (item : ItemInstance) : Prop where
  fresh : coordinator.isTransactionProcessed intent.transactionId = false
  source : coordinator.getContainer intent.sourceContainerId = some src
  target : coordinator.getContainer intent.targetContainerId = some dst
  held : src.getSlot intent.sourceSlot =
    some { slotIndex := intent.sourceSlot, item := some item, isLocked := false }
  sameInstance : item.instanceId = intent.itemInstanceId
  positive : intent.quantity ≠ 0
  enough : ¬ item.quantity < intent.quantity
  transferable : ¬ (item.flags &&& itemFlagSoulbound ≠ 0 ∧ src.ownerId ≠ dst.ownerId)
  notNested : item.nestedContainerId ≠ some intent.targetContainerId
  admitted : dst.admitsWeight intent.itemWeightGrams = true
  targetVacant : ∀ targetSlot, intent.targetSlot = some targetSlot → dst.Vacant targetSlot
  targetFree : intent.targetSlot = none →
    ¬ (dst.freeSlotCount = 0 ∧ intent.sourceContainerId ≠ intent.targetContainerId)

variable {coordinator : ItemTransactionCoordinator} {intent : ItemTransferIntent}

theorem prepared_of_validateTransfer (valid : coordinator.validateTransfer intent = .ok ()) :
    ∃ src dst item, Prepared coordinator intent src dst item := by
  unfold validateTransfer at valid
  by_cases fresh : coordinator.isTransactionProcessed intent.transactionId = true
  · rw [if_pos fresh] at valid
    cases valid
  rw [if_neg fresh] at valid
  rcases source : coordinator.getContainer intent.sourceContainerId with _ | src
  · rw [source] at valid
    cases valid
  rcases target : coordinator.getContainer intent.targetContainerId with _ | dst
  · rw [source, target] at valid
    cases valid
  rcases found : src.getSlot intent.sourceSlot with _ | slot
  · rw [source, target] at valid
    dsimp only at valid
    rw [found] at valid
    cases valid
  rw [source, target] at valid
  dsimp only at valid
  rw [found] at valid
  dsimp only at valid
  split at valid
  · cases valid
  rename_i unlocked
  split at valid
  · cases valid
  rename_i item occupied
  split at valid
  · cases valid
  rename_i sameInstance
  split at valid
  · cases valid
  rename_i quantity
  split at valid
  · cases valid
  rename_i transferable
  split at valid
  · cases valid
  rename_i notNested
  split at valid
  · cases valid
  rename_i admitted
  have sameIndex := Container.slotIndex_of_getSlot found
  have held : src.getSlot intent.sourceSlot =
      some { slotIndex := intent.sourceSlot, item := some item, isLocked := false } := by
    rw [found, ← sameIndex, ← occupied, ← Bool.eq_false_iff.mpr unlocked]
  rw [not_or] at quantity
  refine ⟨src, dst, item,
    { fresh := Bool.eq_false_iff.mpr fresh
      source := source
      target := target
      held := held
      sameInstance := not_not.mp sameInstance
      positive := quantity.1
      enough := quantity.2
      transferable := transferable
      notNested := notNested
      admitted := by simpa using admitted
      targetVacant := ?_
      targetFree := ?_ }⟩
  · intro targetSlot given
    rw [given] at valid
    simp only at valid
    split at valid
    · cases valid
    rename_i slot found
    split at valid
    · cases valid
    rename_i unlocked
    split at valid
    · cases valid
    rename_i empty
    exact ⟨slot, found, by simpa using empty, Bool.eq_false_iff.mpr unlocked⟩
  intro given
  rw [given] at valid
  simp only at valid
  split at valid
  · cases valid
  rename_i free
  exact free

theorem validateTransfer_of_prepared {src dst : Container} {item : ItemInstance}
    (prepared : Prepared coordinator intent src dst item) :
    coordinator.validateTransfer intent = .ok () := by
  have quantity : ¬ (intent.quantity = 0 ∨ item.quantity < intent.quantity) :=
    not_or.mpr ⟨prepared.positive, prepared.enough⟩
  unfold validateTransfer
  simp only [prepared.fresh, prepared.source, prepared.target, prepared.held,
    prepared.sameInstance, prepared.admitted, prepared.notNested, prepared.transferable,
    quantity, Bool.false_eq_true, if_false, ne_eq, not_true_eq_false, Bool.not_true]
  rcases given : intent.targetSlot with _ | targetSlot
  · simp only [if_neg (prepared.targetFree given)]
  rcases prepared.targetVacant targetSlot given with ⟨slot, found, empty, unlocked⟩
  simp [found, empty, unlocked]

theorem executeTransfer_of_invalid {error : ItemTransactionError}
    (invalid : coordinator.validateTransfer intent = .error error) :
    coordinator.executeTransfer intent = (.error error, coordinator) := by
  simp only [executeTransfer, invalid]

theorem getContainer_registerContainer (coordinator : ItemTransactionCoordinator)
    (container : Container) (id : UInt64) :
    (coordinator.registerContainer container).getContainer id =
      if id = container.containerId then some container else coordinator.getContainer id := by
  rw [getContainer, registerContainer]
  by_cases same : id = container.containerId
  · rw [if_pos same, same, Finmap.lookup_insert]
  rw [if_neg same, Finmap.lookup_insert_of_ne _ same]
  rfl

theorem containers_registerContainer (coordinator : ItemTransactionCoordinator)
    (container : Container) :
    (coordinator.registerContainer container).containers =
      coordinator.containers.insert container.containerId container :=
  rfl

/-- The source without what is moved: an emptied slot, or a smaller stack. -/
def leftBehind (src : Container) (intent : ItemTransferIntent) (item : ItemInstance)
    (itemWeightGrams : UInt32) : Container :=
  if item.quantity = intent.quantity then
    { src.setItem intent.sourceSlot none with
      currentWeightGrams := saturatingSub32 src.currentWeightGrams itemWeightGrams }
  else
    src.setItem intent.sourceSlot (some { item with quantity := item.quantity - intent.quantity })

def movedItem (intent : ItemTransferIntent) (item : ItemInstance) (newSplitId : UInt64) :
    ItemInstance :=
  if item.quantity = intent.quantity then
    item
  else
    { item with instanceId := newSplitId, quantity := intent.quantity }

theorem containerId_leftBehind (src : Container) (intent : ItemTransferIntent)
    (item : ItemInstance) (itemWeightGrams : UInt32) :
    (leftBehind src intent item itemWeightGrams).containerId = src.containerId := by
  unfold leftBehind
  split <;> rfl

theorem nestedContainerId_movedItem (intent : ItemTransferIntent) (item : ItemInstance)
    (newSplitId : UInt64) :
    (movedItem intent item newSplitId).nestedContainerId = item.nestedContainerId := by
  unfold movedItem
  split <;> rfl

section Prepared

variable {coordinator : ItemTransactionCoordinator} {intent : ItemTransferIntent}
variable {src dst : Container} {item : ItemInstance}

section

variable (prepared : Prepared coordinator intent src dst item)
include prepared

theorem Prepared.sourceId : src.containerId = intent.sourceContainerId :=
  coordinator.containerId_eq _ src prepared.source

theorem Prepared.targetId : dst.containerId = intent.targetContainerId :=
  coordinator.containerId_eq _ dst prepared.target

theorem Prepared.unlocked : src.Unlocked intent.sourceSlot :=
  ⟨_, prepared.held, rfl⟩

theorem Prepared.unlocked_leftBehind (itemWeightGrams : UInt32) :
    (leftBehind src intent item itemWeightGrams).Unlocked intent.sourceSlot := by
  unfold leftBehind
  split
  · exact prepared.unlocked.setItem intent.sourceSlot none
  exact prepared.unlocked.setItem intent.sourceSlot _

theorem Prepared.takeItem_eq (itemWeightGrams : UInt32) (newSplitId : UInt64) :
    takeItem (src.setLocked intent.sourceSlot true) intent itemWeightGrams newSplitId =
      (.ok (movedItem intent item newSplitId), leftBehind src intent item itemWeightGrams) := by
  have lockedSlot : (src.setLocked intent.sourceSlot true).getSlot intent.sourceSlot =
      some { slotIndex := intent.sourceSlot, item := some item, isLocked := true } := by
    rw [Container.getSlot_setLocked, if_pos rfl, prepared.held]
    rfl
  have unlocked := Container.unlockSlot_setLocked prepared.unlocked
  by_cases whole : item.quantity = intent.quantity
  · simp [takeItem, lockedSlot, whole, Container.commitRemoveItem, unlocked,
      Container.removeItem, prepared.held, movedItem, leftBehind]
  have less : ¬ item.quantity ≤ intent.quantity := by
    intro le
    have notLess := prepared.enough
    rw [UInt32.lt_iff_toNat_lt] at notLess
    rw [UInt32.le_iff_toNat_le] at le
    exact whole (UInt32.toNat_inj.mp (by omega))
  simp only [takeItem, lockedSlot, Option.bind_some, if_neg whole,
    Container.commitSplitStack, unlocked, Container.splitStack, if_neg prepared.positive,
    prepared.held, Bool.false_eq_true, if_false, if_neg less, movedItem, leftBehind]

theorem Prepared.eq_of_prepared {otherSrc otherDst : Container} {otherItem : ItemInstance}
    (other : Prepared coordinator intent otherSrc otherDst otherItem) :
    otherSrc = src ∧ otherDst = dst ∧ otherItem = item := by
  cases other.source.symm.trans prepared.source
  cases other.target.symm.trans prepared.target
  cases other.held.symm.trans prepared.held
  exact ⟨rfl, rfl, rfl⟩

theorem Prepared.target_eq_source (same : intent.sourceContainerId = intent.targetContainerId) :
    dst = src := by
  have target := prepared.target
  rw [← same, prepared.source] at target
  exact (Option.some.inj target).symm

theorem Prepared.movedItem_notNested (newSplitId : UInt64) :
    (movedItem intent item newSplitId).nestedContainerId ≠ some dst.containerId := by
  rw [nestedContainerId_movedItem, prepared.targetId]
  exact prepared.notNested

theorem Prepared.admitsWeight_leftBehind
    (same : intent.sourceContainerId = intent.targetContainerId) :
    (leftBehind src intent item 0).admitsWeight 0 = true := by
  have admitted := prepared.admitted
  rw [prepared.target_eq_source same, Container.admitsWeight_iff] at admitted
  have weight : (leftBehind src intent item 0).currentWeightGrams.toNat =
      src.currentWeightGrams.toNat := by
    unfold leftBehind
    split
    · rw [toNat_saturatingSub32, UInt32.toNat_zero, Nat.sub_zero]
    rfl
  have limit : (leftBehind src intent item 0).maxWeightGrams = src.maxWeightGrams := by
    unfold leftBehind
    split <;> rfl
  rw [Container.admitsWeight_iff, limit, UInt32.toNat_zero]
  rcases admitted with unlimited | within
  · exact .inl unlimited
  exact .inr (by omega)

end

theorem registerContainer_eq_self {container : Container}
    (registered : coordinator.getContainer container.containerId = some container) :
    (coordinator.registerContainer container).containers = coordinator.containers :=
  FiniteMap.insert_of_lookup registered

def locked (coordinator : ItemTransactionCoordinator) (intent : ItemTransferIntent)
    (src : Container) : ItemTransactionCoordinator :=
  (coordinator.registerContainer (src.setLocked intent.sourceSlot true)).allocateInstanceId.2

theorem Prepared.getContainer_locked (prepared : Prepared coordinator intent src dst item)
    (id : UInt64) :
    (locked coordinator intent src).getContainer id =
      if id = intent.sourceContainerId then
        some (src.setLocked intent.sourceSlot true)
      else
        coordinator.getContainer id := by
  rw [← prepared.sourceId]
  exact getContainer_registerContainer coordinator (src.setLocked intent.sourceSlot true) id

variable {final : Container}

theorem Prepared.executeTransfer_of_commit (prepared : Prepared coordinator intent src dst item)
    {result : Except ItemTransactionError ItemTransferResult} {after : ItemTransactionCoordinator}
    (committed : (coordinator.registerContainer
      (src.setLocked intent.sourceSlot true)).commitTransfer intent = (result, after))
    (source : after.getContainer intent.sourceContainerId = some final)
    (unlocked : final.Unlocked intent.sourceSlot) :
    (coordinator.executeTransfer intent).1 = result ∧
      (coordinator.executeTransfer intent).2.containers = after.containers := by
  have finalId := after.containerId_eq _ final source
  have same : (after.registerContainer final).containers = after.containers := by
    apply registerContainer_eq_self
    rw [finalId, source]
  simp only [executeTransfer, validateTransfer_of_prepared prepared, prepared.source,
    Container.lockSlot_of_unlocked prepared.unlocked, committed, source,
    Container.unlockSlot_eq_self unlocked]
  cases result with
  | _ => exact ⟨rfl, same⟩

theorem getContainer_registered {written : ItemTransactionCoordinator} {id : UInt64}
    (finalId : final.containerId = id) :
    (written.registerContainer final).getContainer id = some final := by
  rw [getContainer_registerContainer, finalId, if_pos rfl]

section

variable (prepared : Prepared coordinator intent src dst item)
include prepared

theorem Prepared.containers_written (finalId : final.containerId = intent.sourceContainerId) :
    ((locked coordinator intent src).registerContainer final).containers =
      coordinator.containers.insert intent.sourceContainerId final := by
  rw [containers_registerContainer, finalId]
  change (coordinator.containers.insert src.containerId _).insert _ final = _
  rw [prepared.sourceId, Finmap.insert_insert]

theorem Prepared.commitTransfer_within
    (same : intent.sourceContainerId = intent.targetContainerId) :
    (coordinator.registerContainer (src.setLocked intent.sourceSlot true)).commitTransfer intent =
      match (leftBehind src intent item 0).insertItem
          (movedItem intent item coordinator.nextInstanceId) intent.targetSlot 0 with
      | (.error error, final) =>
        (.error (.ofContainerError error), (locked coordinator intent src).registerContainer final)
      | (.ok slotIdx, final) =>
        (.ok (intent.result slotIdx), (locked coordinator intent src).registerContainer final) := by
  have source := prepared.getContainer_locked intent.sourceContainerId
  rw [if_pos rfl] at source
  have taken : takeItem (src.setLocked intent.sourceSlot true) intent 0
      (coordinator.registerContainer (src.setLocked intent.sourceSlot true)).nextInstanceId =
      (.ok (movedItem intent item coordinator.nextInstanceId), leftBehind src intent item 0) :=
    prepared.takeItem_eq 0 coordinator.nextInstanceId
  simp only [locked, allocateInstanceId] at source
  cases inserted : (leftBehind src intent item 0).insertItem
      (movedItem intent item coordinator.nextInstanceId) intent.targetSlot 0 with
  | mk result final =>
    cases result with
    | _ =>
      simp only [commitTransfer, allocateInstanceId, source, if_pos same, taken, inserted, locked]

theorem Prepared.getContainer_target
    (different : intent.sourceContainerId ≠ intent.targetContainerId) (itemWeightGrams : UInt32) :
    ((locked coordinator intent src).registerContainer
      (leftBehind src intent item itemWeightGrams)).getContainer intent.targetContainerId =
        some dst := by
  rw [getContainer_registerContainer, containerId_leftBehind, prepared.sourceId,
    if_neg different.symm, prepared.getContainer_locked, if_neg different.symm,
    prepared.target]

theorem Prepared.commitTransfer_between
    (different : intent.sourceContainerId ≠ intent.targetContainerId) :
    (coordinator.registerContainer (src.setLocked intent.sourceSlot true)).commitTransfer intent =
      match dst.insertItem (movedItem intent item coordinator.nextInstanceId)
          intent.targetSlot intent.itemWeightGrams with
      | (.ok slotIdx, final) =>
        (.ok (intent.result slotIdx), ((locked coordinator intent src).registerContainer
            (leftBehind src intent item intent.itemWeightGrams)).registerContainer final)
      | (.error error, final) =>
        (.error (.ofContainerError error), (((locked coordinator intent src).registerContainer
            (leftBehind src intent item intent.itemWeightGrams)).registerContainer
              final).registerContainer
                ((leftBehind src intent item intent.itemWeightGrams).insertItem
                  (movedItem intent item coordinator.nextInstanceId)
                  (some intent.sourceSlot) intent.itemWeightGrams).2) := by
  have source := prepared.getContainer_locked intent.sourceContainerId
  rw [if_pos rfl] at source
  have target := prepared.getContainer_target different intent.itemWeightGrams
  have taken : takeItem (src.setLocked intent.sourceSlot true) intent intent.itemWeightGrams
      (coordinator.registerContainer (src.setLocked intent.sourceSlot true)).nextInstanceId =
      (.ok (movedItem intent item coordinator.nextInstanceId),
        leftBehind src intent item intent.itemWeightGrams) :=
    prepared.takeItem_eq intent.itemWeightGrams coordinator.nextInstanceId
  have finalId := dst.containerId_insertItem
    (movedItem intent item coordinator.nextInstanceId) intent.targetSlot
    intent.itemWeightGrams
  cases inserted : dst.insertItem (movedItem intent item coordinator.nextInstanceId)
      intent.targetSlot intent.itemWeightGrams with
  | mk result final =>
    cases result with
    | ok slotIdx =>
      simp only [locked, allocateInstanceId] at source target
      simp only [commitTransfer, allocateInstanceId, source, if_neg different, taken,
        target, inserted, locked]
    | error error =>
      rw [inserted] at finalId
      have sourceAgain : (((locked coordinator intent src).registerContainer
          (leftBehind src intent item intent.itemWeightGrams)).registerContainer
            final).getContainer intent.sourceContainerId =
          some (leftBehind src intent item intent.itemWeightGrams) := by
        rw [getContainer_registerContainer, finalId, prepared.targetId,
          if_neg different, getContainer_registerContainer, containerId_leftBehind,
          prepared.sourceId, if_pos rfl]
      simp only [locked, allocateInstanceId] at source target sourceAgain
      simp only [commitTransfer, allocateInstanceId, source, if_neg different, taken,
        target, inserted, sourceAgain, locked]

theorem Prepared.executeTransfer_within
    (same : intent.sourceContainerId = intent.targetContainerId) :
    let left := leftBehind src intent item 0
    let moved := movedItem intent item coordinator.nextInstanceId
    (¬ left.HasRoom intent.targetSlot ∧
      (∃ error, (coordinator.executeTransfer intent).1 = .error error) ∧
      (coordinator.executeTransfer intent).2.containers =
        coordinator.containers.insert intent.sourceContainerId left) ∨
    (left.HasRoom intent.targetSlot ∧ ∃ slotIdx, left.Vacant slotIdx ∧
      (coordinator.executeTransfer intent).1 = .ok (intent.result slotIdx) ∧
      (coordinator.executeTransfer intent).2.containers =
        coordinator.containers.insert intent.sourceContainerId (left.put slotIdx moved 0)) := by
  intro left moved
  have leftId : left.containerId = intent.sourceContainerId :=
    (containerId_leftBehind src intent item 0).trans prepared.sourceId
  have leftUnlocked : left.Unlocked intent.sourceSlot := prepared.unlocked_leftBehind 0
  have committed := prepared.commitTransfer_within same
  have notNested : moved.nestedContainerId ≠ some left.containerId := by
    rw [leftId, same, ← prepared.targetId]
    exact prepared.movedItem_notNested coordinator.nextInstanceId
  rcases Container.insertItem_cases_of_admitted notNested
    (prepared.admitsWeight_leftBehind same) intent.targetSlot with
    ⟨noRoom, error, failed⟩ | ⟨room, slotIdx, inserted, vacant⟩
  · rw [failed] at committed
    rcases prepared.executeTransfer_of_commit committed
      (getContainer_registered leftId) leftUnlocked with ⟨outcome, containers⟩
    exact .inl ⟨noRoom, ⟨_, outcome⟩, containers.trans (prepared.containers_written leftId)⟩
  have putId : (left.put slotIdx moved 0).containerId = intent.sourceContainerId := leftId
  rw [inserted] at committed
  rcases prepared.executeTransfer_of_commit committed
    (getContainer_registered putId) (leftUnlocked.put slotIdx moved 0) with
    ⟨outcome, containers⟩
  exact .inr ⟨room, slotIdx, vacant, outcome,
    containers.trans (prepared.containers_written putId)⟩

/-- Between two containers: the item is inserted into the target, or, if that fails, the
source is what an insertion back into its slot makes of it. -/
theorem Prepared.executeTransfer_between
    (different : intent.sourceContainerId ≠ intent.targetContainerId) :
    let left := leftBehind src intent item intent.itemWeightGrams
    let moved := movedItem intent item coordinator.nextInstanceId
    (¬ dst.HasRoom intent.targetSlot ∧
      (∃ error, (coordinator.executeTransfer intent).1 = .error error) ∧
      (coordinator.executeTransfer intent).2.containers =
        coordinator.containers.insert intent.sourceContainerId
          (left.insertItem moved (some intent.sourceSlot) intent.itemWeightGrams).2) ∨
    (dst.HasRoom intent.targetSlot ∧ ∃ slotIdx, dst.Vacant slotIdx ∧
      (coordinator.executeTransfer intent).1 = .ok (intent.result slotIdx) ∧
      (coordinator.executeTransfer intent).2.containers =
        (coordinator.containers.insert intent.sourceContainerId left).insert
          intent.targetContainerId (dst.put slotIdx moved intent.itemWeightGrams)) := by
  intro left moved
  have leftId : left.containerId = intent.sourceContainerId :=
    (containerId_leftBehind src intent item intent.itemWeightGrams).trans prepared.sourceId
  have leftUnlocked : left.Unlocked intent.sourceSlot :=
    prepared.unlocked_leftBehind intent.itemWeightGrams
  have committed := prepared.commitTransfer_between different
  rcases Container.insertItem_cases_of_admitted
    (prepared.movedItem_notNested coordinator.nextInstanceId) prepared.admitted
    intent.targetSlot with ⟨noRoom, error, failed⟩ | ⟨room, slotIdx, inserted, vacant⟩
  · rw [failed] at committed
    have backId : (left.insertItem moved (some intent.sourceSlot)
        intent.itemWeightGrams).2.containerId = intent.sourceContainerId := by
      rw [Container.containerId_insertItem, leftId]
    rcases prepared.executeTransfer_of_commit committed (getContainer_registered backId)
      (leftUnlocked.insertItem moved (some intent.sourceSlot) intent.itemWeightGrams) with
      ⟨outcome, containers⟩
    refine .inl ⟨noRoom, ⟨_, outcome⟩, containers.trans ?_⟩
    rw [containers_registerContainer, backId, containers_registerContainer, prepared.targetId,
      prepared.containers_written leftId, Finmap.insert_insert_of_ne _ different,
      Finmap.insert_insert]
    exact congrArg (Finmap.insert _ _) (FiniteMap.insert_of_lookup prepared.target)
  rw [inserted] at committed
  have putId : (dst.put slotIdx moved intent.itemWeightGrams).containerId =
      intent.targetContainerId := prepared.targetId
  have source : (((locked coordinator intent src).registerContainer left).registerContainer
      (dst.put slotIdx moved intent.itemWeightGrams)).getContainer
        intent.sourceContainerId = some left := by
    rw [getContainer_registerContainer, putId, if_neg different, getContainer_registered leftId]
  rcases prepared.executeTransfer_of_commit committed source leftUnlocked with
    ⟨outcome, containers⟩
  refine .inr ⟨room, slotIdx, vacant, outcome, containers.trans ?_⟩
  rw [containers_registerContainer, putId, prepared.containers_written leftId]

end

end Prepared

end ItemTransactionCoordinator

end Eidolon.World
