import Eidolon.World.ItemTransfer

/-!
# Conservation of items

A transfer keeps the units of every item type over all registered containers, and one
that fails keeps every container as it was, except in the cases where the item has been
taken out of its slot and neither the insertion nor the rollback finds a place for it.
-/

namespace Eidolon.World

open Core Library

namespace ItemTransactionCoordinator

def units (coordinator : ItemTransactionCoordinator) (typeId : UInt32) : Nat :=
  FiniteMap.total (fun container => container.units typeId) coordinator.containers

/-- The units are as before, and a failed transfer leaves every container as it was. -/
structure ConservesItems (coordinator : ItemTransactionCoordinator)
    (intent : ItemTransferIntent) : Prop where
  units_eq : ∀ typeId,
    (coordinator.executeTransfer intent).2.units typeId = coordinator.units typeId
  unchanged : ∀ error, (coordinator.executeTransfer intent).1 = .error error →
    (coordinator.executeTransfer intent).2.containers = coordinator.containers

def ReturnsToSource (src : Container) (intent : ItemTransferIntent) (item : ItemInstance) :
    Prop :=
  item.nestedContainerId ≠ some intent.sourceContainerId ∧
    intent.itemWeightGrams ≤ src.currentWeightGrams ∧
    (src.maxWeightGrams = 0 ∨ src.currentWeightGrams ≤ src.maxWeightGrams)

/-- A valid transfer without a target slot finds no vacant slot, and splits a stack, or
moves one between containers that does not come back. -/
def StrandsItem (coordinator : ItemTransactionCoordinator) (intent : ItemTransferIntent) :
    Prop :=
  ∃ src dst item, Prepared coordinator intent src dst item ∧ intent.targetSlot = none ∧
    (∀ slotIdx, ¬ dst.Vacant slotIdx) ∧
    (item.quantity ≠ intent.quantity ∨ (intent.sourceContainerId ≠ intent.targetContainerId ∧
        ¬ ReturnsToSource src intent item))

section Prepared

variable {coordinator : ItemTransactionCoordinator} {intent : ItemTransferIntent}
variable {src dst : Container} {item : ItemInstance}

section

variable (prepared : Prepared coordinator intent src dst item)
include prepared

theorem strandsItem_iff : StrandsItem coordinator intent ↔ ¬ dst.HasRoom intent.targetSlot ∧
        (item.quantity ≠ intent.quantity ∨ (intent.sourceContainerId ≠ intent.targetContainerId ∧
            ¬ ReturnsToSource src intent item)) := by
  constructor
  · intro strands
    rcases strands with ⟨otherSrc, otherDst, otherItem, other, noTarget, noneVacant, stranded⟩
    rcases prepared.eq_of_prepared other with ⟨rfl, rfl, rfl⟩
    refine ⟨?_, stranded⟩
    rw [noTarget]
    intro room
    rcases room with ⟨slotIdx, vacant⟩
    exact noneVacant slotIdx vacant
  intro stranded
  rcases stranded with ⟨noRoom, stranded⟩
  refine ⟨src, dst, item, prepared, ?_⟩
  rcases given : intent.targetSlot with _ | targetSlot
  · rw [given] at noRoom
    refine ⟨rfl, ?_, stranded⟩
    intro slotIdx vacant
    exact noRoom ⟨slotIdx, vacant⟩
  rw [given] at noRoom
  exact absurd (prepared.targetVacant targetSlot given) noRoom

theorem Prepared.slot_ne {other : UInt16} (vacant : src.Vacant other) :
    intent.sourceSlot ≠ other := by
  intro same
  rcases vacant with ⟨slot, found, empty, _⟩
  rw [← same, prepared.held] at found
  cases found
  cases empty

theorem Prepared.getSlot_leftBehind (itemWeightGrams : UInt32) :
    (leftBehind src intent item itemWeightGrams).getSlot intent.sourceSlot = some
        { slotIndex := intent.sourceSlot
          item :=
            if item.quantity = intent.quantity then none
            else some { item with quantity := item.quantity - intent.quantity }
          isLocked := false } := by
  unfold leftBehind
  split
  · refine (Container.getSlot_setItem src intent.sourceSlot intent.sourceSlot none).trans ?_
    rw [if_pos rfl, prepared.held]
    rfl
  rw [Container.getSlot_setItem, if_pos rfl, prepared.held]
  rfl

end

theorem getSlot_leftBehind_of_ne (src : Container) (intent : ItemTransferIntent)
    (item : ItemInstance) (itemWeightGrams : UInt32) {slotIdx : UInt16}
    (elsewhere : intent.sourceSlot ≠ slotIdx) :
    (leftBehind src intent item itemWeightGrams).getSlot slotIdx = src.getSlot slotIdx := by
  unfold leftBehind
  split
  · refine (Container.getSlot_setItem src intent.sourceSlot slotIdx none).trans ?_
    rw [if_neg elsewhere]
  rw [Container.getSlot_setItem, if_neg elsewhere]

section

variable (prepared : Prepared coordinator intent src dst item)
include prepared

theorem Prepared.leftBehind_ne (itemWeightGrams : UInt32) :
    leftBehind src intent item itemWeightGrams ≠ src := by
  intro same
  have read := prepared.getSlot_leftBehind itemWeightGrams
  rw [same, prepared.held] at read
  split at read
  · cases read
  apply prepared.positive
  grind

theorem Prepared.units_leftBehind (itemWeightGrams : UInt32) (newSplitId : UInt64)
    (typeId : UInt32) :
    (leftBehind src intent item itemWeightGrams).units typeId +
        Container.itemUnits typeId (some (movedItem intent item newSplitId)) =
      src.units typeId := by
  unfold leftBehind movedItem
  split
  · exact Container.units_setItem prepared.held none typeId
  have exchanged := Container.units_setItem prepared.held
    (some { item with quantity := item.quantity - intent.quantity }) typeId
  have enough := prepared.enough
  rw [UInt32.lt_iff_toNat_lt] at enough
  have difference := UInt32.toNat_sub_of_le item.quantity intent.quantity
    (UInt32.le_iff_toNat_le.mpr (by omega))
  simp only [Container.itemUnits] at exchanged ⊢
  by_cases sameType : item.typeId = typeId
  · rw [if_pos sameType, if_pos sameType] at exchanged
    rw [if_pos sameType]
    omega
  rw [if_neg sameType, if_neg sameType] at exchanged
  rw [if_neg sameType]
  omega

theorem Prepared.vacant_leftBehind_iff (itemWeightGrams : UInt32) (slotIdx : UInt16) :
    (leftBehind src intent item itemWeightGrams).Vacant slotIdx ↔ src.Vacant slotIdx ∨
        (item.quantity = intent.quantity ∧ slotIdx = intent.sourceSlot) := by
  by_cases here : slotIdx = intent.sourceSlot
  · have occupied : ¬ src.Vacant slotIdx :=
      fun vacant => prepared.slot_ne vacant here.symm
    rw [Container.Vacant, here, prepared.getSlot_leftBehind]
    rw [here] at occupied
    by_cases whole : item.quantity = intent.quantity
    · simp [whole]
    simp [whole, occupied]
  simp only [Container.Vacant, getSlot_leftBehind_of_ne src intent item itemWeightGrams
    (Ne.symm here), here, and_false, or_false]

theorem Prepared.hasRoom_leftBehind_iff
    (same : intent.sourceContainerId = intent.targetContainerId) (itemWeightGrams : UInt32) :
    (leftBehind src intent item itemWeightGrams).HasRoom intent.targetSlot ↔
      dst.HasRoom intent.targetSlot ∨ item.quantity = intent.quantity := by
  have sameContainer := prepared.target_eq_source same
  cases given : intent.targetSlot with
  | some targetSlot =>
    have vacant := prepared.targetVacant targetSlot given
    refine iff_of_true ?_ (.inl vacant)
    rw [sameContainer] at vacant
    exact (prepared.vacant_leftBehind_iff itemWeightGrams targetSlot).mpr (.inl vacant)
  | none =>
    rw [sameContainer]
    simp only [Container.HasRoom, prepared.vacant_leftBehind_iff]
    constructor
    · intro room
      rcases room with ⟨slotIdx, vacant | ⟨whole, _⟩⟩
      · exact .inl ⟨slotIdx, vacant⟩
      exact .inr whole
    rintro (⟨slotIdx, vacant⟩ | whole)
    · exact ⟨slotIdx, .inl vacant⟩
    exact ⟨intent.sourceSlot, .inr ⟨whole, rfl⟩⟩

end

theorem units_of_containers {after : ItemTransactionCoordinator} {id : UInt64}
    {container final : Container} (registered : coordinator.getContainer id = some container)
    (containers : after.containers = coordinator.containers.insert id final) (typeId : UInt32) :
    after.units typeId + container.units typeId =
      coordinator.units typeId + final.units typeId := by
  rw [units, containers]
  exact FiniteMap.total_insert _ registered final

theorem Prepared.not_conservesItems (prepared : Prepared coordinator intent src dst item)
    {error : ItemTransactionError} {final : Container} (changed : final ≠ src)
    (outcome : (coordinator.executeTransfer intent).1 = .error error)
    (containers : (coordinator.executeTransfer intent).2.containers =
      coordinator.containers.insert intent.sourceContainerId final) :
    ¬ ConservesItems coordinator intent := by
  intro conserves
  have unchanged := conserves.unchanged error outcome
  rw [containers] at unchanged
  have source := prepared.source
  rw [getContainer, ← unchanged, Finmap.lookup_insert] at source
  exact changed (Option.some.inj source)

theorem Prepared.conservesItems_within_iff (prepared : Prepared coordinator intent src dst item)
    (same : intent.sourceContainerId = intent.targetContainerId) :
    ConservesItems coordinator intent ↔ ¬ StrandsItem coordinator intent := by
  have rooms := prepared.hasRoom_leftBehind_iff same 0
  rw [strandsItem_iff prepared]
  rcases prepared.executeTransfer_within same with
    ⟨noRoom, ⟨error, outcome⟩, containers⟩ | ⟨room, slotIdx, vacant, outcome, containers⟩
  · rw [rooms] at noRoom
    rw [not_or] at noRoom
    refine iff_of_false ?_ ?_
    · exact prepared.not_conservesItems (prepared.leftBehind_ne 0) outcome containers
    intro conserved
    exact conserved ⟨noRoom.1, .inl noRoom.2⟩
  rw [rooms] at room
  refine iff_of_true ⟨?_, ?_⟩ ?_
  · intro typeId
    have exchanged := units_of_containers prepared.source containers typeId
    have put := Container.units_put vacant
      (movedItem intent item coordinator.nextInstanceId) 0 typeId
    have left := prepared.units_leftBehind 0 coordinator.nextInstanceId typeId
    omega
  · intro error failed
    rw [outcome] at failed
    cases failed
  intro strands
  rcases strands with ⟨noRoom, split | ⟨different, _⟩⟩
  · exact room.elim noRoom split
  exact different same

private theorem saturating_back_iff (current weight : UInt32) :
    saturatingAdd32 (saturatingSub32 current weight) weight = current ↔ weight ≤ current := by
  have bound := current.toNat_lt
  have weightBound := weight.toNat_lt
  rw [← UInt32.toNat_inj, toNat_saturatingAdd32, toNat_saturatingSub32, UInt32.le_iff_toNat_le]
  omega

section

variable (prepared : Prepared coordinator intent src dst item)
include prepared

theorem Prepared.put_leftBehind_iff (whole : item.quantity = intent.quantity) :
    (leftBehind src intent item intent.itemWeightGrams).put intent.sourceSlot item
        intent.itemWeightGrams = src ↔
      intent.itemWeightGrams ≤ src.currentWeightGrams := by
  rw [← saturating_back_iff]
  have slots : ((src.setItem intent.sourceSlot none).setItem intent.sourceSlot
      (some item)).slots = src.slots := by
    rw [Container.setItem_setItem]
    exact congrArg Container.slots (Container.setItem_eq_self prepared.held)
  constructor
  · intro restored
    have weight := congrArg Container.currentWeightGrams restored
    simpa [leftBehind, whole, Container.put] using weight
  intro weight
  ext1
  all_goals simp only [leftBehind, if_pos whole, Container.put]
  · rfl
  · rfl
  · rfl
  · rfl
  · rfl
  · exact weight
  exact slots

theorem Prepared.admitsWeight_back_iff (whole : item.quantity = intent.quantity)
    (weight : intent.itemWeightGrams ≤ src.currentWeightGrams) :
    (leftBehind src intent item intent.itemWeightGrams).admitsWeight intent.itemWeightGrams = true ↔
      src.maxWeightGrams = 0 ∨ src.currentWeightGrams ≤ src.maxWeightGrams := by
  have restored := congrArg Container.currentWeightGrams
    ((prepared.put_leftBehind_iff whole).mpr weight)
  have limit : (leftBehind src intent item intent.itemWeightGrams).maxWeightGrams =
      src.maxWeightGrams := by
    rw [leftBehind, if_pos whole]
    rfl
  rw [Container.admitsWeight, limit, Bool.or_eq_true, decide_eq_true_iff, decide_eq_true_iff]
  exact iff_of_eq (congrArg (fun current => _ ∨ current ≤ src.maxWeightGrams) restored)

theorem Prepared.rollback_eq_iff : ((leftBehind src intent item intent.itemWeightGrams).insertItem
        (movedItem intent item coordinator.nextInstanceId) (some intent.sourceSlot)
        intent.itemWeightGrams).2 = src ↔
      item.quantity = intent.quantity ∧ ReturnsToSource src intent item := by
  have ok_iff := @Container.insertItem_ok_iff (leftBehind src intent item intent.itemWeightGrams)
    (movedItem intent item coordinator.nextInstanceId) (some intent.sourceSlot)
    intent.itemWeightGrams
  rw [nestedContainerId_movedItem, containerId_leftBehind, prepared.sourceId,
    Container.HasRoom, prepared.vacant_leftBehind_iff] at ok_iff
  have occupied : ¬ src.Vacant intent.sourceSlot :=
    fun vacant => prepared.slot_ne vacant rfl
  rcases (leftBehind src intent item intent.itemWeightGrams).insertItem_cases
    (movedItem intent item coordinator.nextInstanceId) (some intent.sourceSlot)
    intent.itemWeightGrams with ⟨error, failed⟩ | ⟨slotIdx, inserted, _⟩
  · rw [failed] at ok_iff ⊢
    refine iff_of_false (prepared.leftBehind_ne _) ?_
    intro returns
    rcases returns with ⟨whole, notNested, weight, limit⟩
    rcases ok_iff.mpr ⟨notNested, (prepared.admitsWeight_back_iff whole weight).mpr limit,
      .inr ⟨whole, rfl⟩⟩ with ⟨slotIdx, accepted⟩
    cases accepted
  have accepted := ok_iff.mp ⟨slotIdx, by rw [inserted]⟩
  rcases accepted with ⟨notNested, admitted, vacant⟩
  have whole : item.quantity = intent.quantity := (vacant.resolve_left occupied).1
  have moved : movedItem intent item coordinator.nextInstanceId = item := by
    rw [movedItem, if_pos whole]
  have filled := Container.insertItem_some_ok (congrArg Prod.fst inserted)
  rw [filled, moved, prepared.put_leftBehind_iff whole]
  constructor
  · intro weight
    exact ⟨whole, notNested, weight, (prepared.admitsWeight_back_iff whole weight).mp admitted⟩
  intro returns
  rcases returns with ⟨_, _, weight, _⟩
  exact weight

theorem Prepared.conservesItems_between_iff
    (different : intent.sourceContainerId ≠ intent.targetContainerId) :
    ConservesItems coordinator intent ↔ ¬ StrandsItem coordinator intent := by
  rw [strandsItem_iff prepared]
  rcases prepared.executeTransfer_between different with
    ⟨noRoom, ⟨error, outcome⟩, containers⟩ | ⟨room, slotIdx, vacant, outcome, containers⟩
  · have stranded_iff : (¬ dst.HasRoom intent.targetSlot ∧ (item.quantity ≠ intent.quantity ∨
          (intent.sourceContainerId ≠ intent.targetContainerId ∧
            ¬ ReturnsToSource src intent item))) ↔
        ¬ (item.quantity = intent.quantity ∧ ReturnsToSource src intent item) := by
      simp only [noRoom, not_false_eq_true, true_and, ne_eq, different]
      exact not_and_or.symm
    rw [stranded_iff, not_not, ← prepared.rollback_eq_iff]
    constructor
    · intro conserves
      by_contra changed
      exact prepared.not_conservesItems changed outcome containers conserves
    intro restored
    rw [restored] at containers
    have unchanged : (coordinator.executeTransfer intent).2.containers =
        coordinator.containers := by
      rw [containers]
      exact FiniteMap.insert_of_lookup prepared.source
    refine ⟨?_, fun _ _ => unchanged⟩
    intro typeId
    rw [units, unchanged]
    rfl
  refine iff_of_true ⟨?_, ?_⟩ ?_
  · intro typeId
    have targetStill : (coordinator.containers.insert intent.sourceContainerId
        (leftBehind src intent item intent.itemWeightGrams)).lookup
          intent.targetContainerId = some dst := by
      rw [Finmap.lookup_insert_of_ne _ different.symm]
      exact prepared.target
    have first := FiniteMap.total_insert (fun container => container.units typeId)
      prepared.source (leftBehind src intent item intent.itemWeightGrams)
    have second := FiniteMap.total_insert (fun container => container.units typeId)
      targetStill (dst.put slotIdx (movedItem intent item coordinator.nextInstanceId)
        intent.itemWeightGrams)
    have put := Container.units_put vacant
      (movedItem intent item coordinator.nextInstanceId) intent.itemWeightGrams typeId
    have left := prepared.units_leftBehind intent.itemWeightGrams coordinator.nextInstanceId typeId
    rw [units, containers, units]
    omega
  · intro error failed
    rw [outcome] at failed
    cases failed
  intro strands
  rcases strands with ⟨noRoom, _⟩
  exact noRoom room

end

end Prepared

/-- A transfer conserves items exactly if it does not strand its item. -/
theorem executeTransfer_conservesItems_iff (coordinator : ItemTransactionCoordinator)
    (intent : ItemTransferIntent) :
    ConservesItems coordinator intent ↔ ¬ StrandsItem coordinator intent := by
  cases valid : coordinator.validateTransfer intent with
  | error error =>
    have unchanged := executeTransfer_of_invalid valid
    refine iff_of_true ⟨?_, ?_⟩ ?_
    · intro typeId
      rw [unchanged]
    · intro _ _
      rw [unchanged]
    intro strands
    rcases strands with ⟨src, dst, item, prepared, _⟩
    rw [validateTransfer_of_prepared prepared] at valid
    cases valid
  | ok =>
    rcases prepared_of_validateTransfer valid with ⟨src, dst, item, prepared⟩
    by_cases same : intent.sourceContainerId = intent.targetContainerId
    · exact prepared.conservesItems_within_iff same
    exact prepared.conservesItems_between_iff same

def filledPouch : Container :=
  ((Container.new 1 10 .playerInventory 1 0).insertItem (ItemInstance.new 100 7 5 0) none 0).2

/-- Splitting two units off the stack into the first free slot of the same pouch. -/
def splitInPouch : ItemTransferIntent where
  transactionId := 1
  sourceContainerId := 1
  sourceSlot := 0
  itemInstanceId := 100
  targetContainerId := 1
  targetSlot := none
  quantity := 2
  itemWeightGrams := 0

/-- The split fails for lack of a slot, and two of the five units are gone. -/
theorem executeTransfer_loses_units : (new.registerContainer filledPouch).units 7 = 5 ∧
      ((new.registerContainer filledPouch).executeTransfer splitInPouch).1 =
        .error .targetContainerFull ∧
      ((new.registerContainer filledPouch).executeTransfer splitInPouch).2.units 7 = 3 ∧
      ¬ ConservesItems (new.registerContainer filledPouch) splitInPouch := by
  have before : (new.registerContainer filledPouch).units 7 = 5 := by
    decide +kernel
  have outcome : ((new.registerContainer filledPouch).executeTransfer splitInPouch).1 =
      .error .targetContainerFull := by
    decide +kernel
  have lost : ((new.registerContainer filledPouch).executeTransfer splitInPouch).2.units 7 = 3 := by
    decide +kernel
  refine ⟨before, outcome, lost, ?_⟩
  intro conserves
  have same := conserves.units_eq 7
  rw [lost] at same
  cases same

end ItemTransactionCoordinator

end Eidolon.World
