import Eidolon.Library.Acyclic
import Eidolon.Library.Run
import Eidolon.World.ItemTransfer

/-!
# Nesting of containers

A container nests another if one of its slots holds a bag that wraps the other.  The
transfer and the insertion refuse a bag only in the very container it wraps, so that a
run of transfers keeps the nesting acyclic exactly if none of them moves a bag into a
container that lies deeper in it.
-/

namespace Eidolon.World

open Eidolon.Core Eidolon.Library Relation

namespace ItemTransactionCoordinator

/-- A registered container holds a bag that wraps the other container. -/
def Nests (coordinator : ItemTransactionCoordinator) (outer inner : UInt64) : Prop :=
  ∃ container, coordinator.getContainer outer = some container ∧ container.Nests inner

instance (coordinator : ItemTransactionCoordinator) (outer inner : UInt64) :
    Decidable (coordinator.Nests outer inner) :=
  inferInstanceAs (Decidable (∃ container, container ∈ coordinator.getContainer outer ∧
    container.Nests inner))

variable (coordinator : ItemTransactionCoordinator)

/-- No container is reachable from itself at any depth. -/
def AcyclicNesting : Prop :=
  Acyclic coordinator.Nests

variable (intent : ItemTransferIntent)

def transferStep :
    ItemTransactionCoordinator :=
  (coordinator.executeTransfer intent).2

/-- A valid transfer between two containers that finds a slot and moves a bag into a
container that the bag holds at some depth. -/
def ClosesCycle :
    Prop :=
  ∃ src dst item inner, Prepared coordinator intent src dst item ∧
    intent.sourceContainerId ≠ intent.targetContainerId ∧
    dst.HasRoom intent.targetSlot ∧ item.nestedContainerId = some inner ∧
    ReflTransGen coordinator.Nests inner intent.targetContainerId

theorem nests_of_containers {coordinator after : ItemTransactionCoordinator} {id : UInt64}
    {final : Container} (containers : after.containers = coordinator.containers.insert id final)
    (outer inner : UInt64) :
    after.Nests outer inner ↔
      if outer = id then final.Nests inner else coordinator.Nests outer inner := by
  rw [Nests, getContainer, containers]
  by_cases same : outer = id
  · rw [same]
    simp
  rw [if_neg same, Finmap.lookup_insert_of_ne _ same]
  rfl

section Prepared

variable {coordinator : ItemTransactionCoordinator} {intent : ItemTransferIntent}
variable {src dst : Container} {item : ItemInstance}

theorem closesCycle_iff (prepared : Prepared coordinator intent src dst item) :
    ClosesCycle coordinator intent ↔ intent.sourceContainerId ≠ intent.targetContainerId ∧
        dst.HasRoom intent.targetSlot ∧
        ∃ inner, item.nestedContainerId = some inner ∧
          ReflTransGen coordinator.Nests inner intent.targetContainerId := by
  constructor
  · intro closes
    rcases closes with ⟨otherSrc, otherDst, otherItem, inner, other, different, room, nested, path⟩
    rcases prepared.eq_of_prepared other with ⟨rfl, rfl, rfl⟩
    exact ⟨different, room, inner, nested, path⟩
  intro closes
  rcases closes with ⟨different, room, inner, nested, path⟩
  exact ⟨src, dst, item, inner, prepared, different, room, nested, path⟩

variable {inner : UInt64}

section

variable (prepared : Prepared coordinator intent src dst item)
include prepared

theorem Prepared.nests_source (nested : item.nestedContainerId = some inner) : src.Nests inner :=
  ⟨intent.sourceSlot, _, item, prepared.held, rfl, nested⟩

theorem Prepared.nests_of_leftBehind {itemWeightGrams : UInt32}
    (nests : (leftBehind src intent item itemWeightGrams).Nests inner) :
    src.Nests inner := by
  unfold leftBehind at nests
  split at nests
  · rcases @Container.nests_of_setItem src _ none inner nests with before | ⟨_, absent, _⟩
    · exact before
    cases absent
  rcases Container.nests_of_setItem nests with before | ⟨new, same, nested⟩
  · exact before
  cases same
  exact prepared.nests_source nested

theorem Prepared.nests_leftBehind (itemWeightGrams : UInt32) (nests : src.Nests inner) :
    (leftBehind src intent item itemWeightGrams).Nests inner ∨
      item.nestedContainerId = some inner := by
  rcases nests with ⟨slotIdx, at_slot⟩
  by_cases here : intent.sourceSlot = slotIdx
  · rw [← here, Container.NestsAt, prepared.held] at at_slot
    rcases at_slot with ⟨slot, held, found, occupied, nested⟩
    cases found
    cases occupied
    exact Or.inr nested
  refine Or.inl ⟨slotIdx, ?_⟩
  unfold leftBehind
  split
  · exact (Container.nestsAt_setItem_of_ne here none inner).mpr at_slot
  exact (Container.nestsAt_setItem_of_ne here _ inner).mpr at_slot

end

variable {slotIdx : UInt16}

theorem Prepared.nests_of_put_leftBehind (prepared : Prepared coordinator intent src dst item)
    {itemWeightGrams weight : UInt32} {newSplitId : UInt64}
    (vacant : (leftBehind src intent item itemWeightGrams).Vacant slotIdx)
    (nests : ((leftBehind src intent item itemWeightGrams).put slotIdx
      (movedItem intent item newSplitId) weight).Nests inner) : src.Nests inner := by
  rcases (Container.nests_put_iff vacant _ _ _).mp nests with before | nested
  · exact prepared.nests_of_leftBehind before
  rw [nestedContainerId_movedItem] at nested
  exact prepared.nests_source nested

variable {after : ItemTransactionCoordinator}

theorem Prepared.nests_of_source (prepared : Prepared coordinator intent src dst item)
    {final : Container}
    (containers : after.containers = coordinator.containers.insert intent.sourceContainerId final)
    (fewer : ∀ inner, final.Nests inner → src.Nests inner) (outer inner : UInt64)
    (nests : after.Nests outer inner) : coordinator.Nests outer inner := by
  rw [nests_of_containers containers] at nests
  by_cases same : outer = intent.sourceContainerId
  · rw [if_pos same] at nests
    rw [same]
    exact ⟨src, prepared.source, fewer inner nests⟩
  rwa [if_neg same] at nests

theorem Prepared.acyclic_within_iff (prepared : Prepared coordinator intent src dst item)
    (same : intent.sourceContainerId = intent.targetContainerId)
    (acyclic : AcyclicNesting coordinator) :
    AcyclicNesting (coordinator.transferStep intent) ↔ ¬ ClosesCycle coordinator intent := by
  rw [closesCycle_iff prepared]
  refine iff_of_true ?_ (fun closes => closes.1 same)
  rcases prepared.executeTransfer_within same with
    ⟨_, _, containers⟩ | ⟨_, slotIdx, vacant, _, containers⟩
  · apply Acyclic.mono acyclic
    apply prepared.nests_of_source containers
    intro inner nests
    exact prepared.nests_of_leftBehind nests
  apply Acyclic.mono acyclic
  apply prepared.nests_of_source containers
  intro inner nests
  exact prepared.nests_of_put_leftBehind vacant nests

def Moved (coordinator after : ItemTransactionCoordinator) (intent : ItemTransferIntent)
    (src dst : Container) (item : ItemInstance) (slotIdx : UInt16) : Prop :=
  after.containers = (coordinator.containers.insert intent.sourceContainerId
      (leftBehind src intent item intent.itemWeightGrams)).insert intent.targetContainerId
        (dst.put slotIdx (movedItem intent item coordinator.nextInstanceId) intent.itemWeightGrams)

section

variable (prepared : Prepared coordinator intent src dst item)
include prepared

section

variable (different : intent.sourceContainerId ≠ intent.targetContainerId)
include different

theorem Prepared.nests_moved_iff (vacant : dst.Vacant slotIdx)
    (moved : Moved coordinator after intent src dst item slotIdx) (outer inner : UInt64) :
    after.Nests outer inner ↔
      if outer = intent.sourceContainerId then
        (leftBehind src intent item intent.itemWeightGrams).Nests inner
      else
        coordinator.Nests outer inner ∨
          (outer = intent.targetContainerId ∧ item.nestedContainerId = some inner) := by
  rw [Nests, getContainer, moved]
  by_cases isTarget : outer = intent.targetContainerId
  · rw [isTarget, if_neg different.symm, Nests, prepared.target]
    simp [Container.nests_put_iff vacant, nestedContainerId_movedItem]
  rw [Finmap.lookup_insert_of_ne _ isTarget]
  by_cases isSource : outer = intent.sourceContainerId
  · rw [isSource]
    simp
  rw [Finmap.lookup_insert_of_ne _ isSource, if_neg isSource]
  simp [isTarget, Nests, getContainer]

theorem Prepared.nests_of_moved (vacant : dst.Vacant slotIdx)
    (moved : Moved coordinator after intent src dst item slotIdx) (outer inner : UInt64)
    (nests : after.Nests outer inner) :
    coordinator.Nests outer inner ∨
      (outer = intent.targetContainerId ∧ item.nestedContainerId = some inner) := by
  rw [prepared.nests_moved_iff different vacant moved] at nests
  by_cases isSource : outer = intent.sourceContainerId
  · rw [if_pos isSource] at nests
    rw [isSource]
    exact Or.inl ⟨src, prepared.source, prepared.nests_of_leftBehind nests⟩
  rwa [if_neg isSource] at nests

theorem Prepared.nests_moved (vacant : dst.Vacant slotIdx)
    (moved : Moved coordinator after intent src dst item slotIdx) (outer inner : UInt64)
    (nests : coordinator.Nests outer inner) :
    after.Nests outer inner ∨
      (outer = intent.sourceContainerId ∧ item.nestedContainerId = some inner) := by
  rw [prepared.nests_moved_iff different vacant moved]
  by_cases isSource : outer = intent.sourceContainerId
  · rcases nests with ⟨container, found, nests⟩
    rw [isSource, prepared.source] at found
    cases found
    rw [if_pos isSource]
    exact (prepared.nests_leftBehind _ nests).imp id (fun nested => ⟨isSource, nested⟩)
  rw [if_neg isSource]
  exact Or.inl (Or.inl nests)

theorem Prepared.acyclic_between_iff (acyclic : AcyclicNesting coordinator) :
    AcyclicNesting (coordinator.transferStep intent) ↔ ¬ ClosesCycle coordinator intent := by
  rw [closesCycle_iff prepared]
  rcases prepared.executeTransfer_between different with
    ⟨noRoom, _, containers⟩ | ⟨room, slotIdx, vacant, _, containers⟩
  · refine iff_of_true ?_ (fun closes => noRoom closes.2.1)
    apply Acyclic.mono acyclic
    apply prepared.nests_of_source containers
    intro inner nests
    rcases (leftBehind src intent item intent.itemWeightGrams).insertItem_cases
      (movedItem intent item coordinator.nextInstanceId) (some intent.sourceSlot)
      intent.itemWeightGrams with ⟨error, failed⟩ | ⟨slotIdx, inserted, vacant⟩
    · rw [failed] at nests
      exact prepared.nests_of_leftBehind nests
    rw [inserted] at nests
    exact prepared.nests_of_put_leftBehind vacant nests
  have added := prepared.nests_of_moved different vacant containers
  have kept := prepared.nests_moved different vacant containers
  cases nested : item.nestedContainerId with
  | none =>
    refine iff_of_true (Acyclic.mono acyclic ?_) ?_
    · intro outer inner nests
      rcases added outer inner nests with before | ⟨_, wrapped⟩
      · exact before
      rw [nested] at wrapped
      cases wrapped
    intro closes
    rcases closes with ⟨_, _, inner, wrapped, _⟩
    cases wrapped
  | some wrapped =>
    have new : (coordinator.transferStep intent).Nests intent.targetContainerId
        wrapped := by
      rw [transferStep, prepared.nests_moved_iff different vacant containers, if_neg different.symm]
      exact Or.inr ⟨rfl, nested⟩
    simp only [nested, Option.some.injEq, @eq_comm _ wrapped] at added kept
    refine (Acyclic.moved_iff acyclic added kept new).trans ?_
    simp [different, room]

end

end

end Prepared

theorem acyclic_transferStep_iff {coordinator : ItemTransactionCoordinator}
    (acyclic : AcyclicNesting coordinator) (intent : ItemTransferIntent) :
    AcyclicNesting (coordinator.transferStep intent) ↔ ¬ ClosesCycle coordinator intent := by
  cases valid : coordinator.validateTransfer intent with
  | error error =>
    have unchanged := executeTransfer_of_invalid valid
    refine iff_of_true ?_ ?_
    · rw [transferStep, unchanged]
      exact acyclic
    intro closes
    rcases closes with ⟨src, dst, item, inner, prepared, _⟩
    rw [validateTransfer_of_prepared prepared] at valid
    cases valid
  | ok =>
    rcases prepared_of_validateTransfer valid with ⟨src, dst, item, prepared⟩
    by_cases same : intent.sourceContainerId = intent.targetContainerId
    · exact prepared.acyclic_within_iff same acyclic
    exact prepared.acyclic_between_iff same acyclic

/-- A run of transfers keeps the nesting acyclic exactly if none of them closes a cycle. -/
theorem acyclic_throughout_iff {coordinator : ItemTransactionCoordinator}
    (acyclic : AcyclicNesting coordinator) (intents : List ItemTransferIntent) :
    Throughout transferStep AcyclicNesting coordinator intents ↔
      EachStep transferStep (fun state intent => ¬ ClosesCycle state intent)
        coordinator intents := by
  apply throughout_iff_eachStep_of_exact acyclic
  intro state intent acyclicState
  exact acyclic_transferStep_iff acyclicState intent

/-- A container of two slots that holds one bag, which wraps another container. -/
def wrapping (containerId inner : UInt64) : Container :=
  ((Container.new containerId 10 .nestedBag 2 0).insertItem
    (ItemInstance.newContainer 100 7 0 inner) none 0).2

/-- A bag in container 3 wraps container 1, where a bag wraps the empty container 2. -/
def nestedBags : ItemTransactionCoordinator :=
  ((new.registerContainer (Container.new 2 10 .nestedBag 2 0)).registerContainer
    (wrapping 1 2)).registerContainer (wrapping 3 1)

/-- Moving the bag in container 3 into container 2. -/
def outerIntoInner : ItemTransferIntent where
  transactionId := 1
  sourceContainerId := 3
  sourceSlot := 0
  itemInstanceId := 100
  targetContainerId := 2
  targetSlot := none
  quantity := 1
  itemWeightGrams := 0

theorem nests_wrapping {containerId wrapped inner : UInt64}
    (nests : (wrapping containerId wrapped).Nests inner) : inner = wrapped := by
  rw [wrapping] at nests
  rcases (Container.new containerId 10 .nestedBag 2 0).insertItem_cases
    (ItemInstance.newContainer 100 7 0 wrapped) none 0 with
    ⟨error, failed⟩ | ⟨slotIdx, inserted, vacant⟩
  · rw [failed] at nests
    exact absurd nests (Container.not_nests_new _ _ _ _ _ inner)
  rw [inserted] at nests
  rcases (Container.nests_put_iff vacant _ _ _).mp nests with before | nested
  · exact absurd before (Container.not_nests_new _ _ _ _ _ inner)
  cases nested
  rfl

theorem acyclicNesting_nestedBags : AcyclicNesting nestedBags := by
  apply Acyclic.of_rank (fun id => if id = 3 then 2 else if id = 1 then 1 else 0)
  intro outer inner nests
  rcases nests with ⟨container, found, nests⟩
  simp only [nestedBags, getContainer_registerContainer] at found
  split at found
  · rename_i isThird
    cases found
    rw [isThird, nests_wrapping nests]
    decide
  split at found
  · rename_i isFirst
    cases found
    rw [isFirst, nests_wrapping nests]
    decide
  split at found
  · cases found
    exact absurd nests (Container.not_nests_new _ _ _ _ _ inner)
  cases found

theorem acyclic_throughout_iff_nestedBags : AcyclicNesting nestedBags ∧
      (Throughout transferStep AcyclicNesting nestedBags [outerIntoInner] ↔
        EachStep transferStep (fun state intent => ¬ ClosesCycle state intent)
          nestedBags [outerIntoInner]) :=
  ⟨acyclicNesting_nestedBags, acyclic_throughout_iff acyclicNesting_nestedBags [outerIntoInner]⟩

/-- The move succeeds, and container 1 is reachable from itself through container 2. -/
theorem executeTransfer_closes_cycle : AcyclicNesting nestedBags ∧
      (nestedBags.executeTransfer outerIntoInner).1 = .ok (outerIntoInner.result 0) ∧
      ¬ Throughout transferStep AcyclicNesting nestedBags [outerIntoInner] := by
  refine ⟨acyclicNesting_nestedBags, by decide +kernel, ?_⟩
  intro throughout
  rcases throughout with ⟨_, acyclic⟩
  have down : (nestedBags.transferStep outerIntoInner).Nests 1 2 := by
    decide +kernel
  have up : (nestedBags.transferStep outerIntoInner).Nests 2 1 := by
    decide +kernel
  exact acyclic 1 ((TransGen.single down).tail up)

end ItemTransactionCoordinator

end Eidolon.World
