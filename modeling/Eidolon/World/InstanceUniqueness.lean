import Eidolon.Library.Placement
import Eidolon.Library.Run
import Eidolon.World.ItemConservation

/-!
# Unique item instances

A transfer moves the instance it names, or puts a new one into the target, whose identifier
the coordinator takes from a counter of its own.  The counter knows nothing of the items
that the registered containers brought along, so the identifiers of a run stay unique
exactly if no split takes one that is in use.
-/

namespace Eidolon.Core.Container

open Option Function

def instanceAt (container : Container) (slotIdx : UInt16) : Option UInt64 :=
  (container.getSlot slotIdx).bind fun slot => slot.item.map ItemInstance.instanceId

theorem instanceAt_of_vacant {container : Container} {slotIdx : UInt16}
    (vacant : container.Vacant slotIdx) : container.instanceAt slotIdx = none := by
  rcases vacant with ⟨slot, found, empty, _⟩
  rw [instanceAt, found, bind_some, empty]
  rfl

theorem instanceAt_put {container : Container} {slotIdx : UInt16}
    (vacant : container.Vacant slotIdx) (item : ItemInstance) (itemWeightGrams : UInt32)
    (other : UInt16) :
    (container.put slotIdx item itemWeightGrams).instanceAt other =
      if slotIdx = other then some item.instanceId else container.instanceAt other := by
  rw [instanceAt, getSlot_put]
  by_cases here : slotIdx = other
  · rcases vacant with ⟨slot, found, _⟩
    rw [if_pos here, if_pos here, ← here, found]
    rfl
  rw [if_neg here, if_neg here]
  rfl

theorem instanceAt_new (containerId ownerId : UInt64) (containerType : ContainerType)
    (capacity : UInt16) (maxWeightGrams : UInt32) (slotIdx : UInt16) :
    (new containerId ownerId containerType capacity maxWeightGrams).instanceAt slotIdx = none := by
  cases found : (new containerId ownerId containerType capacity maxWeightGrams).getSlot slotIdx with
  | none =>
    rw [instanceAt, found]
    rfl
  | some slot =>
    rcases List.mem_map.mp (mem_of_getSlot found) with ⟨index, _, slotIs⟩
    rw [instanceAt, found, ← slotIs]
    rfl

end Eidolon.Core.Container

namespace Eidolon.World

open Core Function Library Option

namespace ItemTransactionCoordinator

abbrev Place := UInt64 × UInt16

def instanceAt (coordinator : ItemTransactionCoordinator) (place : Place) : Option UInt64 :=
  (coordinator.getContainer place.1).bind fun container => container.instanceAt place.2

variable (coordinator : ItemTransactionCoordinator)

/-- Every identifier stands in at most one slot over all containers. -/
def UniqueInstances : Prop :=
  UniquePlaces coordinator.instanceAt

/-- The calls that a coordinator serves. -/
inductive CoordinatorCall where
  | executeTransfer (intent : ItemTransferIntent)
  | allocateInstanceId

def step (coordinator : ItemTransactionCoordinator) : CoordinatorCall → ItemTransactionCoordinator
  | .executeTransfer intent => (coordinator.executeTransfer intent).2
  | .allocateInstanceId => coordinator.allocateInstanceId.2

variable (intent : ItemTransferIntent)

def SplitsIntoUsed :
    Prop :=
  ∃ src dst item, Prepared coordinator intent src dst item ∧
    item.quantity ≠ intent.quantity ∧ dst.HasRoom intent.targetSlot ∧
    ∃ place, coordinator.instanceAt place = some coordinator.nextInstanceId

def TakesUnused (coordinator : ItemTransactionCoordinator) : CoordinatorCall → Prop
  | .executeTransfer intent => ¬ SplitsIntoUsed coordinator intent
  | .allocateInstanceId => True

theorem instanceAt_of_containers {coordinator after : ItemTransactionCoordinator}
    {id : UInt64} {final : Container}
    (containers : after.containers = coordinator.containers.insert id final) (place : Place) :
    after.instanceAt place =
      if place.1 = id then final.instanceAt place.2 else coordinator.instanceAt place := by
  rw [instanceAt, getContainer, containers]
  by_cases same : place.1 = id
  · rw [if_pos same, same, Finmap.lookup_insert]
    rfl
  rw [if_neg same, Finmap.lookup_insert_of_ne _ same]
  rfl

def takenOut (item : ItemInstance) : Place → Option UInt64 :=
  if item.quantity = intent.quantity then
    Function.update coordinator.instanceAt (intent.sourceContainerId, intent.sourceSlot) none
  else
    coordinator.instanceAt

section Prepared

variable {coordinator : ItemTransactionCoordinator} {intent : ItemTransferIntent}
variable {src dst : Container} {item : ItemInstance}

variable {place : Place}

theorem takenOut_of_ne (elsewhere : place ≠ (intent.sourceContainerId, intent.sourceSlot)) :
    takenOut coordinator intent item place = coordinator.instanceAt place := by
  unfold takenOut
  split
  · rw [update_of_ne elsewhere]
  rfl

theorem takenOut_of_container_ne (elsewhere : place.1 ≠ intent.sourceContainerId) :
    takenOut coordinator intent item place = coordinator.instanceAt place :=
  takenOut_of_ne fun same => elsewhere (congrArg Prod.fst same)

theorem takenOut_fewer {id : UInt64} (stands : takenOut coordinator intent item place = some id) :
    coordinator.instanceAt place = some id := by
  by_cases isSource : place = (intent.sourceContainerId, intent.sourceSlot)
  · unfold takenOut at stands
    split at stands
    · rw [isSource, update_self] at stands
      cases stands
    exact stands
  rwa [takenOut_of_ne isSource] at stands

section

variable (prepared : Prepared coordinator intent src dst item)
include prepared

theorem Prepared.instanceAt_source (slotIdx : UInt16) :
    coordinator.instanceAt (intent.sourceContainerId, slotIdx) = src.instanceAt slotIdx := by
  rw [instanceAt, prepared.source]
  rfl

theorem Prepared.instanceAt_held :
    coordinator.instanceAt (intent.sourceContainerId, intent.sourceSlot) =
      some item.instanceId := by
  rw [prepared.instanceAt_source, Container.instanceAt, prepared.held]
  rfl

theorem Prepared.instanceAt_leftBehind (itemWeightGrams : UInt32) (slotIdx : UInt16) :
    (leftBehind src intent item itemWeightGrams).instanceAt slotIdx =
      takenOut coordinator intent item (intent.sourceContainerId, slotIdx) := by
  by_cases here : intent.sourceSlot = slotIdx
  · rw [← here, Container.instanceAt, prepared.getSlot_leftBehind, takenOut]
    by_cases whole : item.quantity = intent.quantity
    · rw [if_pos whole, if_pos whole, update_self]
      rfl
    rw [if_neg whole, if_neg whole, prepared.instanceAt_held]
    rfl
  have elsewhere : (intent.sourceContainerId, slotIdx) ≠
      (intent.sourceContainerId, intent.sourceSlot) :=
    fun same => here (congrArg Prod.snd same).symm
  rw [takenOut_of_ne elsewhere, prepared.instanceAt_source, Container.instanceAt,
    getSlot_leftBehind_of_ne src intent item itemWeightGrams here]
  rfl

end

/-- A transfer finds a slot if the target has one, or if a whole stack stays in its own
container. -/
def FindsSlot (intent : ItemTransferIntent) (dst : Container) (item : ItemInstance) : Prop :=
  dst.HasRoom intent.targetSlot ∨
    (intent.sourceContainerId = intent.targetContainerId ∧ item.quantity = intent.quantity)

section

variable (prepared : Prepared coordinator intent src dst item)
include prepared

theorem Prepared.instanceAt_putBack {id : UInt64} (isSource : place.1 = intent.sourceContainerId)
    (stands : ((leftBehind src intent item intent.itemWeightGrams).insertItem
      (movedItem intent item coordinator.nextInstanceId) (some intent.sourceSlot)
      intent.itemWeightGrams).2.instanceAt place.2 = some id) :
    coordinator.instanceAt place = some id := by
  have placeIs : place = (intent.sourceContainerId, place.2) := by
    rw [← isSource]
  rcases (leftBehind src intent item intent.itemWeightGrams).insertItem_cases
    (movedItem intent item coordinator.nextInstanceId) (some intent.sourceSlot)
    intent.itemWeightGrams with ⟨error, failed⟩ | ⟨slotIdx, inserted, vacant⟩
  · rw [failed, prepared.instanceAt_leftBehind, ← placeIs] at stands
    exact takenOut_fewer stands
  -- what goes back into its own slot is the whole stack
  have putBack := Container.insertItem_some_ok (congrArg Prod.fst inserted)
  have room := (Container.insertItem_ok_iff.mp ⟨slotIdx, congrArg Prod.fst inserted⟩).2.2
  rw [putBack, Container.instanceAt_put room] at stands
  split at stands
  · rename_i here
    have whole : item.quantity = intent.quantity := by
      rcases (prepared.vacant_leftBehind_iff _ _).mp room with occupied | ⟨whole, _⟩
      · exact absurd rfl (prepared.slot_ne occupied)
      exact whole
    rw [movedItem, if_pos whole] at stands
    rw [placeIs, ← here, prepared.instanceAt_held]
    exact stands
  rw [prepared.instanceAt_leftBehind, ← placeIs] at stands
  exact takenOut_fewer stands

/-- What a valid transfer puts at a free place, or, when it finds no slot, at most what was
there before. -/
theorem Prepared.instanceAt_executeTransfer : (¬ FindsSlot intent dst item ∧ ∀ place id,
      (coordinator.executeTransfer intent).2.instanceAt place = some id →
        coordinator.instanceAt place = some id) ∨
    (FindsSlot intent dst item ∧ ∃ target, takenOut coordinator intent item target = none ∧
        (coordinator.executeTransfer intent).2.instanceAt =
          Function.update (takenOut coordinator intent item) target
            (some (movedItem intent item coordinator.nextInstanceId).instanceId)) := by
  by_cases same : intent.sourceContainerId = intent.targetContainerId
  · have rooms := prepared.hasRoom_leftBehind_iff same 0
    rcases prepared.executeTransfer_within same with
      ⟨noRoom, _, containers⟩ | ⟨room, slotIdx, vacant, _, containers⟩
    · rw [rooms, not_or] at noRoom
      refine Or.inl ⟨fun finds => finds.elim noRoom.1 fun whole => noRoom.2 whole.2, ?_⟩
      intro place id stands
      rw [instanceAt_of_containers containers] at stands
      split at stands
      · rename_i isSource
        rw [prepared.instanceAt_leftBehind, ← isSource] at stands
        exact takenOut_fewer stands
      exact stands
    rw [rooms] at room
    refine Or.inr ⟨room.imp id fun whole => ⟨same, whole⟩,
      (intent.sourceContainerId, slotIdx), ?_, ?_⟩
    · rw [← prepared.instanceAt_leftBehind 0, Container.instanceAt_of_vacant vacant]
    funext place
    rw [instanceAt_of_containers containers]
    by_cases isSource : place.1 = intent.sourceContainerId
    · rw [if_pos isSource, Container.instanceAt_put vacant]
      have placeIs : place = (intent.sourceContainerId, place.2) := by
        rw [← isSource]
      by_cases here : slotIdx = place.2
      · rw [if_pos here, here, ← placeIs, update_self]
      have elsewhere : place ≠ (intent.sourceContainerId, slotIdx) :=
        fun isTarget => here (congrArg Prod.snd isTarget).symm
      rw [if_neg here, update_of_ne elsewhere, prepared.instanceAt_leftBehind, ← placeIs]
    have elsewhere : place ≠ (intent.sourceContainerId, slotIdx) :=
      fun isTarget => isSource (congrArg Prod.fst isTarget)
    rw [if_neg isSource, update_of_ne elsewhere, takenOut_of_container_ne isSource]
  have finds : FindsSlot intent dst item ↔ dst.HasRoom intent.targetSlot := by
    simp [FindsSlot, same]
  rw [finds]
  rcases prepared.executeTransfer_between same with
    ⟨noRoom, _, containers⟩ | ⟨room, slotIdx, vacant, _, containers⟩
  · refine Or.inl ⟨noRoom, ?_⟩
    intro place id stands
    rw [instanceAt_of_containers containers] at stands
    split at stands
    · rename_i isSource
      exact prepared.instanceAt_putBack isSource stands
    exact stands
  have targetPlace : (intent.targetContainerId, slotIdx).1 ≠ intent.sourceContainerId :=
    Ne.symm same
  have atTarget : ∀ other, coordinator.instanceAt (intent.targetContainerId, other) =
      dst.instanceAt other := by
    intro other
    rw [instanceAt, prepared.target]
    rfl
  refine Or.inr ⟨room, (intent.targetContainerId, slotIdx), ?_, ?_⟩
  · rw [takenOut_of_container_ne targetPlace, atTarget, Container.instanceAt_of_vacant vacant]
  funext place
  rw [instanceAt, getContainer, containers]
  by_cases isTarget : place.1 = intent.targetContainerId
  · have placeIs : place = (intent.targetContainerId, place.2) := by
      rw [← isTarget]
    rw [isTarget, Finmap.lookup_insert, bind_some, Container.instanceAt_put vacant]
    by_cases here : slotIdx = place.2
    · rw [if_pos here, here, ← placeIs, update_self]
    have elsewhere : place ≠ (intent.targetContainerId, slotIdx) :=
      fun isPlace => here (congrArg Prod.snd isPlace).symm
    have notSource : place.1 ≠ intent.sourceContainerId := by
      rw [isTarget]
      exact Ne.symm same
    rw [if_neg here, update_of_ne elsewhere,
      takenOut_of_container_ne notSource, ← atTarget, ← placeIs]
  have elsewhere : place ≠ (intent.targetContainerId, slotIdx) :=
    fun isPlace => isTarget (congrArg Prod.fst isPlace)
  rw [Finmap.lookup_insert_of_ne _ isTarget, update_of_ne elsewhere]
  by_cases isSource : place.1 = intent.sourceContainerId
  · have placeIs : place = (intent.sourceContainerId, place.2) := by
      rw [← isSource]
    rw [isSource, Finmap.lookup_insert, bind_some, prepared.instanceAt_leftBehind, ← placeIs]
  rw [Finmap.lookup_insert_of_ne _ isSource, takenOut_of_container_ne isSource]
  rfl

theorem splitsIntoUsed_iff : SplitsIntoUsed coordinator intent ↔
      item.quantity ≠ intent.quantity ∧ dst.HasRoom intent.targetSlot ∧
        ∃ place, coordinator.instanceAt place = some coordinator.nextInstanceId := by
  constructor
  · intro splits
    rcases splits with ⟨otherSrc, otherDst, otherItem, other, split⟩
    rcases prepared.eq_of_prepared other with ⟨rfl, rfl, rfl⟩
    exact split
  intro split
  exact ⟨src, dst, item, prepared, split⟩

theorem Prepared.uniqueInstances_iff (unique : coordinator.UniqueInstances) :
    (coordinator.executeTransfer intent).2.UniqueInstances ↔
      ¬ SplitsIntoUsed coordinator intent := by
  rw [splitsIntoUsed_iff prepared]
  rcases prepared.instanceAt_executeTransfer with ⟨noSlot, fewer⟩ | ⟨finds, target, free, after⟩
  · apply iff_of_true (unique.mono fewer)
    intro splits
    exact noSlot (Or.inl splits.2.1)
  rw [UniqueInstances, after]
  by_cases whole : item.quantity = intent.quantity
  · have removed : takenOut coordinator intent item = Function.update coordinator.instanceAt
          (intent.sourceContainerId, intent.sourceSlot) none := if_pos whole
    rw [removed] at free ⊢
    rw [movedItem, if_pos whole, uniquePlaces_update_iff (unique.remove _) free]
    exact iff_of_true (unique.remove_ne prepared.instanceAt_held) fun splits =>
      splits.1 whole
  have same : takenOut coordinator intent item = coordinator.instanceAt := if_neg whole
  have room : dst.HasRoom intent.targetSlot :=
    finds.elim id fun stays => absurd stays.2 whole
  rw [same] at free ⊢
  rw [movedItem, if_neg whole, uniquePlaces_update_iff unique free]
  constructor
  · intro unused splits
    rcases splits with ⟨_, _, place, used⟩
    exact unused place used
  intro notUsed place used
  exact notUsed ⟨whole, room, place, used⟩

end

end Prepared

theorem uniqueInstances_step_iff {coordinator : ItemTransactionCoordinator}
    (unique : coordinator.UniqueInstances) (call : CoordinatorCall) :
    (coordinator.step call).UniqueInstances ↔ coordinator.TakesUnused call := by
  cases call with
  | allocateInstanceId => exact iff_of_true unique trivial
  | executeTransfer intent =>
    cases valid : coordinator.validateTransfer intent with
    | error error =>
      have unchanged := executeTransfer_of_invalid valid
      apply iff_of_true
      · rw [step, unchanged]
        exact unique
      intro splits
      rcases splits with ⟨src, dst, item, prepared, _⟩
      rw [validateTransfer_of_prepared prepared] at valid
      cases valid
    | ok =>
      rcases prepared_of_validateTransfer valid with ⟨src, dst, item, prepared⟩
      exact prepared.uniqueInstances_iff unique

/-- A run keeps identifiers unique exactly if no split takes one that is in use. -/
theorem uniqueInstances_throughout_iff {coordinator : ItemTransactionCoordinator}
    (unique : coordinator.UniqueInstances) (calls : List CoordinatorCall) :
    Throughout step UniqueInstances coordinator calls ↔
      EachStep step TakesUnused coordinator calls := by
  apply throughout_iff_eachStep_of_exact unique
  intro state call uniqueState
  exact uniqueInstances_step_iff uniqueState call

variable (instanceId : UInt64)

/-- A container of two slots, the first filled with a stack of five under an identifier. -/
def stackPouch : Container :=
  ((Container.new 1 10 .playerInventory 2 0).insertItem
    (ItemInstance.new instanceId 7 5 0) none 0).2

def splitStack : ItemTransferIntent where
  transactionId := 1
  sourceContainerId := 1
  sourceSlot := 0
  itemInstanceId := instanceId
  targetContainerId := 1
  targetSlot := none
  quantity := 2
  itemWeightGrams := 0

theorem uniqueInstances_stackPouch :
    (new.registerContainer (stackPouch instanceId)).UniqueInstances := by
  have inFirst : ∀ place id,
      (new.registerContainer (stackPouch instanceId)).instanceAt place = some id →
        ∃ container, (Container.insertItem (Container.new 1 10 .playerInventory 2 0)
          (ItemInstance.new instanceId 7 5 0) none 0).2 = container ∧
          place.1 = container.containerId ∧ container.instanceAt place.2 = some id := by
    intro place id stands
    rw [instanceAt, getContainer_registerContainer] at stands
    split at stands
    · rename_i isPouch
      exact ⟨_, rfl, isPouch, stands⟩
    cases stands
  intro place other id here there
  rcases inFirst place id here with ⟨_, rfl, placeIs, here⟩
  rcases inFirst other id there with ⟨_, rfl, otherIs, there⟩
  apply Prod.ext (placeIs.trans otherIs.symm)
  rcases (Container.new 1 10 .playerInventory 2 0).insertItem_cases
    (ItemInstance.new instanceId 7 5 0) none 0 with
    ⟨error, failed⟩ | ⟨slotIdx, inserted, vacant⟩
  · rw [failed, Container.instanceAt_new] at here
    cases here
  rw [inserted, Container.instanceAt_put vacant, Container.instanceAt_new] at here there
  by_cases placeHere : slotIdx = place.2
  · by_cases otherHere : slotIdx = other.2
    · rw [← placeHere, otherHere]
    rw [if_neg otherHere] at there
    cases there
  rw [if_neg placeHere] at here
  cases here

theorem uniqueInstances_throughout_iff_stackPouch :
    (new.registerContainer (stackPouch 100)).UniqueInstances ∧
      (Throughout step UniqueInstances (new.registerContainer (stackPouch 100))
          [.executeTransfer (splitStack 100), .allocateInstanceId] ↔
        EachStep step TakesUnused (new.registerContainer (stackPouch 100))
          [.executeTransfer (splitStack 100), .allocateInstanceId]) :=
  ⟨uniqueInstances_stackPouch 100, uniqueInstances_throughout_iff (uniqueInstances_stackPouch 100)
      [.executeTransfer (splitStack 100), .allocateInstanceId]⟩

/-- The counter starts at 100000.  A stack that already has this identifier shares it with
what is split off. -/
theorem executeTransfer_repeats_instance :
    ((new.registerContainer (stackPouch 100000)).executeTransfer (splitStack 100000)).1 =
        .ok ((splitStack 100000).result 1) ∧
      ¬ ∀ (coordinator : ItemTransactionCoordinator) (calls : List CoordinatorCall),
        coordinator.UniqueInstances → Throughout step UniqueInstances coordinator calls := by
  refine ⟨by decide +kernel, ?_⟩
  intro always
  rcases always _ [.executeTransfer (splitStack 100000)]
    (uniqueInstances_stackPouch 100000) with ⟨_, unique⟩
  have first : ((new.registerContainer (stackPouch 100000)).step
      (.executeTransfer (splitStack 100000))).instanceAt (1, 0) = some 100000 := by
    decide +kernel
  have second : ((new.registerContainer (stackPouch 100000)).step
      (.executeTransfer (splitStack 100000))).instanceAt (1, 1) = some 100000 := by
    decide +kernel
  have same := unique (1, 0) (1, 1) 100000 first second
  exact absurd (congrArg Prod.snd same) (by decide)

end ItemTransactionCoordinator

end Eidolon.World
