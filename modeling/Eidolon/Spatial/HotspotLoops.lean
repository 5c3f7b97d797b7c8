import Eidolon.Spatial.HotspotLinks

/-!
# Loops of the hotspot manager with links

Splitting a cell, merging it and dropping it go along lists whose links they change.  Each loop
reads its next link before it changes anything, and so it goes through the entities that the
list held at its start.
-/

namespace Eidolon.Spatial

open Core Function Library List Option

namespace Refines

variable {linked : LinkedManager} {manager : HotspotManager} {hIdx : Nat}
  {hotspot : HotspotCell} {entityId : UInt32}

/-- The rest of a list that is being taken apart: its elements are in no list any more, but
the links still lead from one to the next. -/
structure Waiting (rest : List UInt32) (current : UInt32) (linked : LinkedManager)
    (manager : HotspotManager) : Prop where
  refines : Refines linked manager
  follows : Links.Follows linked.links.next quadtreeEmpty current rest
  distinct : rest.Nodup
  free : ∀ entityId ∈ rest, ∀ slot, entityId ∉ manager.listAt slot

theorem startWaiting (refines : Refines linked manager)
    (held : manager.hotspotCells[hIdx]? = some hotspot) {given : Option (Fin 16) → Prop}
    [DecidablePred given] {list : Option (Fin 16)} (isGiven : given list)
    {linkedChange : LinkedCell → LinkedCell} {change : HotspotCell → HotspotCell}
    (alike : (linkedChange (linked.hotspotCells hIdx)).Shows (change hotspot))
    (heads : ∀ other, (linkedChange (linked.hotspotCells hIdx)).headOf other =
      if given other then quadtreeEmpty else (linked.hotspotCells hIdx).headOf other)
    (lists : ∀ other, (change hotspot).lists other =
      if given other then [] else hotspot.lists other) :
    Waiting (hotspot.lists list) (linked.headAt (hIdx, list))
      (linked.modifyCell hIdx linkedChange) (manager.modifyCell hIdx change) where
  refines := by
    refine refines.change held alike ((refines.woven.clear fun slot =>
      slot.1 = hIdx ∧ given slot.2).congr (fun slot => ?_) fun slot => ?_)
    · rw [headAt_modifyCell]
      by_cases here : slot.1 = hIdx
      · rw [if_pos here, heads, LinkedManager.headAt, here]
        simp only [true_and]
      rw [if_neg here, if_neg fun both => here both.1]
    rw [listAt_modifyCell held]
    by_cases here : slot.1 = hIdx
    · rw [if_pos here, lists, HotspotManager.listAt, here, held]
      simp only [true_and, elim_some]
    rw [if_neg here, if_neg fun both => here both.1]
  follows := by
    rw [← HotspotManager.listAt_of_getElem? held]
    exact (refines.woven.threads (hIdx, list)).follows
  distinct := by
    rw [← HotspotManager.listAt_of_getElem? held]
    exact refines.woven.nodup (hIdx, list)
  free := by
    intro entityId member slot
    rw [← HotspotManager.listAt_of_getElem? held] at member
    rw [listAt_modifyCell held]
    by_cases here : slot.1 = hIdx
    · rw [if_pos here, lists]
      by_cases alsoGiven : given slot.2
      · rw [if_pos alsoGiven]
        exact not_mem_nil
      rw [if_neg alsoGiven, ← HotspotManager.listAt_of_getElem? held]
      intro also
      have same := refines.woven.apart _ _ entityId member also
      exact alsoGiven ((Prod.mk.inj same).2 ▸ isGiven)
    rw [if_neg here]
    intro also
    have same := refines.woven.apart _ _ entityId member also
    exact here (congrArg Prod.fst same).symm

variable {rest : List UInt32} {current : UInt32}

theorem Waiting.next (waiting : Waiting (entityId :: rest) current linked manager)
    {linkedAfter : LinkedManager} {after : HotspotManager} (refines : Refines linkedAfter after)
    (sameNext : ∀ other, other ≠ entityId → linkedAfter.links.next other = linked.links.next other)
    (inside : ∀ other slot, other ∈ after.listAt slot →
      other = entityId ∨ ∃ before, other ∈ manager.listAt before) :
    Waiting rest (linked.links.next entityId) linkedAfter after where
  refines := refines
  follows := by
    have distinct := List.nodup_cons.mp waiting.distinct
    exact waiting.follows.2.2.congr fun other member =>
      sameNext other fun same => distinct.1 (same ▸ member)
  distinct := (List.nodup_cons.mp waiting.distinct).2
  free other member slot also := by
    have distinct := List.nodup_cons.mp waiting.distinct
    rcases inside other slot also with same | ⟨before, inBefore⟩
    · exact distinct.1 (same ▸ member)
    exact waiting.free other (mem_cons_of_mem entityId member) before inBefore

theorem mem_listAt_prepend (held : manager.hotspotCells[hIdx]? = some hotspot)
    {list : Option (Fin 16)} {change : HotspotCell → HotspotCell}
    (lists : (change hotspot).lists =
      Function.update hotspot.lists list (entityId :: hotspot.lists list))
    {other : UInt32} {slot : Slot}
    (member : other ∈ (manager.modifyCell hIdx change).listAt slot) :
    other = entityId ∨ ∃ before, other ∈ manager.listAt before := by
  rw [listAt_modifyCell held, lists] at member
  split at member
  · by_cases here : slot.2 = list
    · rw [here, update_self, mem_cons] at member
      refine member.imp_right fun inList => ⟨(hIdx, list), ?_⟩
      rw [HotspotManager.listAt_of_getElem? held]
      exact inList
    rw [update_of_ne here] at member
    refine Or.inr ⟨(hIdx, slot.2), ?_⟩
    rw [HotspotManager.listAt_of_getElem? held]
    exact member
  exact Or.inr ⟨slot, member⟩

def regrouped (cell : CellCoord) (hIdx : Nat) (manager : HotspotManager)
    (entityId : UInt32) : HotspotManager :=
  (manager.entities entityId).elim manager fun entity =>
    let leafIdx := HotspotCell.computeLeafIndex cell entity.position
    (manager.setEntity entityId (some { entity with leafIdx := leafIdx })).modifyCell hIdx
      (·.pushLeaf leafIdx entityId)

theorem splitCell_eq_foldl (held : manager.hotspotCells[hIdx]? = some hotspot) :
    manager.splitCell hIdx = hotspot.flat.foldl (regrouped hotspot.cell hIdx)
      (manager.modifyCell hIdx HotspotCell.cleared) := by
  rw [HotspotManager.splitCell, HotspotManager.cellAt_of_getElem? held]
  congr 1
  funext other entityId
  rw [regrouped]
  cases other.entities entityId with
  | _ => rfl

theorem Waiting.regroup (waiting : Waiting (entityId :: rest) current linked manager)
    (held : manager.hotspotCells[hIdx]? = some hotspot) :
    Waiting rest (linked.links.next entityId) (linked.regroup hIdx entityId)
      (regrouped hotspot.cell hIdx manager entityId) := by
  have isEntity : entityId ≠ quadtreeEmpty := waiting.follows.2.1
  have free := waiting.free entityId mem_cons_self
  have refines := waiting.refines
  rw [LinkedManager.regroup, regrouped, refines.entities]
  rcases manager.entities entityId with _ | entity
  · exact waiting.next refines (fun _ _ => rfl) fun _ slot member => Or.inr ⟨slot, member⟩
  simp only [map_some, elim_some, (refines.cells hIdx hotspot held).cell]
  have recorded := refines.setEntity entityId (some
    { entity with leafIdx := HotspotCell.computeLeafIndex hotspot.cell entity.position })
  exact waiting.next (recorded.pushLeaf held isEntity free
      (HotspotCell.computeLeafIndex hotspot.cell entity.position))
    (fun other different => Links.next_prepend different)
    fun other slot member =>
      mem_listAt_prepend held (HotspotCell.lists_pushLeaf hotspot _ entityId) member

structure Splitting (cell : CellCoord) (hIdx : Nat) (rest : List UInt32) (current : UInt32)
    (linked : LinkedManager) (manager : HotspotManager) : Prop where
  waiting : Waiting rest current linked manager
  held : ∃ hotspot, manager.hotspotCells[hIdx]? = some hotspot ∧ hotspot.cell = cell

theorem Splitting.regroup {cell : CellCoord}
    (splitting : Splitting cell hIdx (entityId :: rest) current linked manager) :
    Splitting cell hIdx rest (linked.links.next entityId) (linked.regroup hIdx entityId)
      (regrouped cell hIdx manager entityId) := by
  obtain ⟨hotspot, held, named⟩ := splitting.held
  have waiting := splitting.waiting.regroup held
  rw [named] at waiting
  refine ⟨waiting, ?_⟩
  rw [regrouped]
  rcases manager.entities entityId with _ | entity
  · exact ⟨hotspot, held, named⟩
  refine ⟨hotspot.pushLeaf (HotspotCell.computeLeafIndex cell entity.position) entityId, ?_, named⟩
  refine (HotspotManager.getElem?_modifyCell _ hIdx _ hIdx).trans ?_
  rw [if_pos rfl]
  exact congrArg (Option.map _) held

theorem splitCell (refines : Refines linked manager)
    (held : manager.hotspotCells[hIdx]? = some hotspot)
    (short : hotspot.flat.length ≤ manager.maxEntities) :
    ∃ after, linked.splitCell hIdx = some after ∧ Refines after (manager.splitCell hIdx) := by
  have alike := refines.cells hIdx hotspot held
  have allGiven : ∀ list : Option (Fin 16),
      ({ linked.hotspotCells hIdx with
        isSplit := true
        flatHead := quadtreeEmpty
        leafHeads := fun _ => quadtreeEmpty
        leafCounts := fun _ => 0 } : LinkedCell).headOf list = quadtreeEmpty ∧
          hotspot.cleared.lists list = [] := by
    intro list
    cases list with
    | _ => exact ⟨rfl, rfl⟩
  have waiting := @startWaiting _ _ _ _ refines held (fun _ => True) _ none trivial (fun hotspot =>
      { hotspot with
        isSplit := true
        flatHead := quadtreeEmpty
        leafHeads := fun _ => quadtreeEmpty
        leafCounts := fun _ => 0 })
    HotspotCell.cleared ⟨alike.cell, rfl, alike.entityCount, rfl⟩
    (fun other => (allGiven other).1.trans (if_pos trivial).symm)
    (fun other => (allGiven other).2.trans (if_pos trivial).symm)
  have clearedHeld : (manager.modifyCell hIdx HotspotCell.cleared).hotspotCells[hIdx]? =
      some hotspot.cleared :=
    HotspotManager.getElem?_modifyCell_self held _
  obtain ⟨_, after, done, splitting⟩ := Links.forEach_simulates (Splitting hotspot.cell hIdx)
    (fun _ _ _ splitting => splitting.waiting.follows)
    (fun _ _ _ _ _ splitting =>
      ⟨splitting.waiting.follows.1, splitting.waiting.follows.2.1, splitting.regroup⟩)
    ⟨waiting, hotspot.cleared, clearedHeld, rfl⟩ (Nat.lt_succ_of_le short)
  refine ⟨after, ?_, ?_⟩
  · rw [LinkedManager.splitCell, LinkedManager.forEachFrom, refines.maxEntities]
    exact done
  rw [splitCell_eq_foldl held]
  exact splitting.waiting.refines

theorem modifyCell_modifyCell (linked : LinkedManager) (hIdx : Nat)
    (first second : LinkedCell → LinkedCell) :
    (linked.modifyCell hIdx first).modifyCell hIdx second =
      linked.modifyCell hIdx fun hotspot => second (first hotspot) := by
  simp only [LinkedManager.modifyCell, update_self, update_idem]

theorem foldl_modifyCell {Step : Type} (change : Step → HotspotCell → HotspotCell)
    (steps : List Step) (manager : HotspotManager) (hIdx : Nat) :
    steps.foldl (fun manager step => manager.modifyCell hIdx (change step)) manager =
      manager.modifyCell hIdx fun hotspot =>
        steps.foldl (fun hotspot step => change step hotspot) hotspot := by
  induction steps generalizing manager with
  | nil => exact HotspotManager.ext rfl rfl (modify_id hIdx _).symm rfl
  | cons step steps ih =>
    rw [foldl_cons, ih, HotspotManager.modifyCell_modifyCell]
    rfl

def pushedFlat (entityId : UInt32) (hotspot : HotspotCell) : HotspotCell :=
  { hotspot with flat := entityId :: hotspot.flat }

def gathered (leaf : Fin 16) (hotspot : HotspotCell) : HotspotCell :=
  { hotspot with
    flat := (hotspot.leaves leaf).foldl (fun flat entityId => entityId :: flat) hotspot.flat
    leaves := Function.update hotspot.leaves leaf []
    leafCounts := Function.update hotspot.leafCounts leaf 0 }

theorem foldl_pushedFlat (entityIds : List UInt32) (hotspot : HotspotCell) :
    entityIds.foldl (fun hotspot entityId => pushedFlat entityId hotspot) hotspot =
      { hotspot with
        flat := entityIds.foldl (fun flat entityId => entityId :: flat) hotspot.flat } := by
  induction entityIds generalizing hotspot with
  | nil => rfl
  | cons entityId entityIds ih => exact ih (pushedFlat entityId hotspot)

theorem foldl_gathered {leaves : List (Fin 16)} (distinct : leaves.Nodup) (hotspot : HotspotCell) :
    leaves.foldl (fun hotspot leaf => gathered leaf hotspot) hotspot =
      { hotspot with
        flat := (leaves.flatMap hotspot.leaves).foldl (fun flat entityId => entityId :: flat)
          hotspot.flat
        leaves := fun leaf => if leaf ∈ leaves then [] else hotspot.leaves leaf
        leafCounts := fun leaf => if leaf ∈ leaves then 0 else hotspot.leafCounts leaf } := by
  induction leaves generalizing hotspot with
  | nil => simp
  | cons leaf leaves ih =>
    rw [nodup_cons] at distinct
    have others : leaves.flatMap (gathered leaf hotspot).leaves =
        leaves.flatMap hotspot.leaves := by
      apply flatMap_congr
      intro other member
      have different : other ≠ leaf := fun same => distinct.1 (same ▸ member)
      exact update_of_ne different _ _
    rw [foldl_cons, ih distinct.2, others, flatMap_cons, foldl_append]
    simp only [gathered, mem_cons, HotspotCell.mk.injEq, true_and]
    constructor
    · funext other
      by_cases same : other = leaf
      · simp [same]
      simp [same]
    funext other
    by_cases same : other = leaf
    · simp [same]
    simp [same]

def finish (hIdx : Nat) (state : LinkedManager × UInt32) : LinkedManager :=
  state.1.modifyCell hIdx fun hotspot => { hotspot with flatHead := state.2 }

structure Gathering (hIdx : Nat) (rest : List UInt32) (current : UInt32)
    (state : LinkedManager × UInt32) (manager : HotspotManager) : Prop where
  waiting : Waiting rest current (finish hIdx state) manager
  held : ∃ hotspot, manager.hotspotCells[hIdx]? = some hotspot

variable {state : LinkedManager × UInt32}

theorem Gathering.collect (gathering : Gathering hIdx (entityId :: rest) current state manager) :
    Gathering hIdx rest (state.1.links.next entityId) (LinkedManager.collect state entityId)
      (manager.modifyCell hIdx (pushedFlat entityId)) := by
  obtain ⟨waiting, hotspot, held⟩ := gathering
  have pushed := waiting.refines.pushFlat held waiting.follows.2.1
    (waiting.free entityId mem_cons_self)
  have isPushed : (finish hIdx state).pushFlat hIdx entityId =
      finish hIdx (LinkedManager.collect state entityId) := by
    rw [LinkedManager.pushFlat, finish, modifyCell_modifyCell]
    simp only [LinkedManager.modifyCell, update_self, finish, LinkedManager.collect]
  rw [isPushed] at pushed
  refine ⟨waiting.next pushed (fun other different => Links.next_prepend different) ?_, ?_⟩
  · intro other slot member
    exact mem_listAt_prepend held (HotspotCell.lists_flat hotspot _) member
  refine ⟨pushedFlat entityId hotspot, ?_⟩
  exact HotspotManager.getElem?_modifyCell_self held _

theorem collectLeaf (refines : Refines (finish hIdx state) manager)
    (held : manager.hotspotCells[hIdx]? = some hotspot) {leaf : Fin 16}
    (short : (hotspot.leaves leaf).length ≤ manager.maxEntities) :
    ∃ after, LinkedManager.collectLeaf hIdx state leaf = some after ∧
      Refines (finish hIdx after) (manager.modifyCell hIdx (gathered leaf)) := by
  have alike := refines.cells hIdx hotspot held
  let linkedEmptied : LinkedCell → LinkedCell := fun hotspot =>
    { hotspot with
      leafHeads := Function.update hotspot.leafHeads leaf quadtreeEmpty
      leafCounts := Function.update hotspot.leafCounts leaf 0 }
  let emptied : HotspotCell → HotspotCell := fun hotspot =>
    { hotspot with
      leaves := Function.update hotspot.leaves leaf []
      leafCounts := Function.update hotspot.leafCounts leaf 0 }
  have lists : ∀ other, (emptied hotspot).lists other =
      if other = some leaf then [] else hotspot.lists other := by
    intro other
    rcases other with _ | other
    · rfl
    by_cases same : other = leaf
    · rw [same, if_pos rfl]
      exact update_self _ _ _
    rw [if_neg fun equal => same (some.inj equal)]
    exact update_of_ne same _ _
  have waiting := @startWaiting _ _ _ _ refines held (fun list => list = some leaf) _
    (some leaf) rfl linkedEmptied emptied
    ⟨alike.cell, alike.isSplit, alike.entityCount,
      by simp only [linkedEmptied, emptied, alike.leafCounts]⟩
    (fun other => by
      rw [headOf_leafHeads, update_apply])
    lists
  have emptiedHeld : (manager.modifyCell hIdx emptied).hotspotCells[hIdx]? =
      some (emptied hotspot) :=
    HotspotManager.getElem?_modifyCell_self held _
  have sameHead : (finish hIdx state).headAt (hIdx, some leaf) =
      (state.1.hotspotCells hIdx).leafHeads leaf := by
    rw [finish, headAt_modifyCell, if_pos rfl]
    rfl
  have commuted : (finish hIdx state).modifyCell hIdx linkedEmptied =
      finish hIdx (state.1.modifyCell hIdx linkedEmptied, state.2) := by
    rw [finish, finish, modifyCell_modifyCell, modifyCell_modifyCell]
  rw [commuted, sameHead] at waiting
  obtain ⟨_, after, done, gathering⟩ := Links.forEach_simulates (Gathering hIdx)
    (fun _ _ _ gathering => gathering.waiting.follows)
    (fun _ _ _ _ _ gathering =>
      ⟨gathering.waiting.follows.1, gathering.waiting.follows.2.1, gathering.collect⟩)
    ⟨waiting, emptied hotspot, emptiedHeld⟩ (Nat.lt_succ_of_le short)
  refine ⟨after, ?_, ?_⟩
  · rw [LinkedManager.collectLeaf, LinkedManager.forEachFrom]
    have sameFuel : state.1.maxEntities = manager.maxEntities := refines.maxEntities
    rw [sameFuel]
    exact done
  have isGathered : (hotspot.lists (some leaf)).foldl
      (fun manager entityId => manager.modifyCell hIdx (pushedFlat entityId))
      (manager.modifyCell hIdx emptied) = manager.modifyCell hIdx (gathered leaf) := by
    rw [foldl_modifyCell, HotspotManager.modifyCell_modifyCell]
    apply modifyCell_congr held
    rw [foldl_pushedFlat]
    rfl
  rw [← isGathered]
  exact gathering.waiting.refines

theorem collectLeaves (leaves : List (Fin 16)) (refines : Refines (finish hIdx state) manager)
    (held : manager.hotspotCells[hIdx]? = some hotspot)
    (short : ∀ leaf, (hotspot.leaves leaf).length ≤ manager.maxEntities) :
    ∃ after, leaves.foldlM (LinkedManager.collectLeaf hIdx) state = some after ∧
      Refines (finish hIdx after)
        (leaves.foldl (fun manager leaf => manager.modifyCell hIdx (gathered leaf)) manager) := by
  induction leaves generalizing state manager hotspot with
  | nil => exact ⟨state, rfl, refines⟩
  | cons leaf leaves ih =>
    obtain ⟨after, done, further⟩ := refines.collectLeaf held (short leaf)
    have gatheredHeld : (manager.modifyCell hIdx (gathered leaf)).hotspotCells[hIdx]? =
        some (gathered leaf hotspot) :=
      HotspotManager.getElem?_modifyCell_self held _
    rw [foldlM_cons, done]
    refine ih further gatheredHeld fun other => ?_
    rw [gathered]
    by_cases same : other = leaf
    · simp only [same, update_self, length_nil]
      exact Nat.zero_le _
    simp only [update_of_ne same]
    exact short other

theorem mergeCell (refines : Refines linked manager)
    (held : manager.hotspotCells[hIdx]? = some hotspot) (noFlat : hotspot.flat = [])
    (short : ∀ leaf, (hotspot.leaves leaf).length ≤ manager.maxEntities) :
    ∃ after, linked.mergeCell hIdx = some after ∧ Refines after (manager.mergeCell hIdx) := by
  have alike := refines.cells hIdx hotspot held
  have atEnd : (linked.hotspotCells hIdx).flatHead = quadtreeEmpty := by
    have threads := refines.woven.threads (hIdx, none)
    rw [HotspotManager.listAt_of_getElem? held, HotspotCell.lists, noFlat] at threads
    exact threads
  let flattened : HotspotCell → HotspotCell := fun hotspot => { hotspot with isSplit := false }
  have flattenedHeld : (manager.modifyCell hIdx flattened).hotspotCells[hIdx]? =
      some (flattened hotspot) :=
    HotspotManager.getElem?_modifyCell_self held _
  have start : Refines
      (finish hIdx (linked.modifyCell hIdx fun hotspot => { hotspot with isSplit := false },
        quadtreeEmpty)) (manager.modifyCell hIdx flattened) := by
    rw [finish, modifyCell_modifyCell]
    apply refines.changeCounts held
    · exact ⟨alike.cell, rfl, alike.entityCount, alike.leafCounts⟩
    · funext list
      cases list with
      | none => exact atEnd.symm
      | some leaf => rfl
    funext list
    cases list with
    | _ => rfl
  obtain ⟨after, done, further⟩ := start.collectLeaves (List.finRange 16) flattenedHeld short
  refine ⟨finish hIdx after, ?_, ?_⟩
  · rw [LinkedManager.mergeCell]
    simp only [done, map_some]
    rfl
  have isMerged : (List.finRange 16).foldl
      (fun manager leaf => manager.modifyCell hIdx (gathered leaf))
      (manager.modifyCell hIdx flattened) = manager.mergeCell hIdx := by
    rw [foldl_modifyCell, HotspotManager.modifyCell_modifyCell]
    apply modifyCell_congr held
    rw [foldl_gathered (nodup_finRange 16)]
    simp only [flattened, mem_finRange, if_true, noFlat]
  rw [← isMerged]
  exact further

theorem drop (refines : Refines linked manager) (held : manager.hotspotCells[hIdx]? = some hotspot)
    (empty : ∀ list, hotspot.lists list = []) {last : HotspotCell}
    (isLast : manager.hotspotCells[manager.hotspotCells.length - 1]? = some last) :
    let lastIdx := linked.activeHotspotsCount - 1
    Refines
      { linked with
        hotspotCells := Function.update
          (Function.update linked.hotspotCells lastIdx (linked.hotspotCells hIdx)) hIdx
          (linked.hotspotCells lastIdx)
        activeHotspotsCount := lastIdx }
      { manager with hotspotCells := (manager.hotspotCells.set hIdx last).dropLast } := by
  have inside := (List.getElem?_eq_some_iff.mp held).1
  have cellsAre : ∀ index, (manager.hotspotCells.set hIdx last).dropLast[index]? =
      if index < manager.hotspotCells.length - 1 then
        if index = hIdx then some last else manager.hotspotCells[index]?
      else none := by
    intro index
    rw [getElem?_dropLast, length_set, getElem?_set]
    split
    · by_cases here : index = hIdx
      · rw [if_pos here.symm, if_pos here]
      rw [if_neg (Ne.symm here), if_neg here]
    rfl
  refine ⟨refines.maxEntities, refines.maxHotspots, ?_, ?_, ?_, refines.entities, ?_⟩
  · rw [length_dropLast, length_set]
    exact congrArg (· - 1) refines.active
  · rw [length_dropLast, length_set]
    exact (Nat.sub_le _ _).trans refines.room
  · intro index other isOther
    rw [cellsAre] at isOther
    split at isOther
    · rename_i before
      simp only [refines.active]
      by_cases here : index = hIdx
      · rw [if_pos here, some.injEq] at isOther
        rw [here, update_self, ← isOther]
        exact refines.cells _ last isLast
      rw [if_neg here] at isOther
      rw [update_of_ne here, update_of_ne (Nat.ne_of_lt before)]
      exact refines.cells index other isOther
    cases isOther
  refine (refines.woven.rename (Equiv.prodCongr
    (Equiv.swap hIdx (manager.hotspotCells.length - 1)) (Equiv.refl _))).congr
      (fun slot => ?_) fun slot => ?_
  · rw [LinkedManager.headAt, LinkedManager.headAt]
    simp only [refines.active, Equiv.prodCongr_apply, Prod.map, Equiv.refl_apply]
    by_cases here : slot.1 = hIdx
    · rw [here, update_self, Equiv.swap_apply_left]
    rw [update_of_ne here]
    by_cases atEnd : slot.1 = manager.hotspotCells.length - 1
    · rw [atEnd, update_self, Equiv.swap_apply_right]
    rw [update_of_ne atEnd, Equiv.swap_apply_of_ne_of_ne here atEnd]
  rw [HotspotManager.listAt, HotspotManager.listAt, cellsAre]
  simp only [Equiv.prodCongr_apply, Prod.map, Equiv.refl_apply]
  by_cases atEnd : slot.1 = manager.hotspotCells.length - 1
  · rw [atEnd, if_neg (Nat.lt_irrefl _), Equiv.swap_apply_right, held]
    exact (empty slot.2).symm
  by_cases here : slot.1 = hIdx
  · have before : hIdx < manager.hotspotCells.length - 1 := by
      omega
    rw [here, if_pos before, if_pos rfl, Equiv.swap_apply_left, isLast]
  rw [Equiv.swap_apply_of_ne_of_ne here atEnd]
  split
  · rfl
  have outside : manager.hotspotCells.length ≤ slot.1 := by
    omega
  rw [getElem?_eq_none outside]

def listsInUse (isSplit : Bool) : List (Option (Fin 16)) :=
  if isSplit then (List.finRange 16).map some else [none]

theorem heads_eq (hotspot : LinkedCell) :
    hotspot.heads = (listsInUse hotspot.isSplit).map hotspot.headOf := by
  rw [LinkedCell.heads, listsInUse]
  split <;> rfl

theorem members_eq (hotspot : HotspotCell) :
    HotspotManager.members hotspot = (listsInUse hotspot.isSplit).flatMap hotspot.lists := by
  rw [HotspotManager.members, listsInUse]
  split
  · rfl
  rw [flatMap_singleton]
  rfl

def renumberedOne (number : Nat) (manager : HotspotManager) (entityId : UInt32) :
    HotspotManager :=
  (manager.entities entityId).elim manager fun entity =>
    manager.setEntity entityId (some (HotspotManager.renumbered number entity))

def SameCells (before after : HotspotManager) : Prop :=
  after.hotspotCells = before.hotspotCells ∧ after.maxEntities = before.maxEntities

def withActive (count : Nat) (linked : LinkedManager) : LinkedManager :=
  { linked with activeHotspotsCount := count }

theorem renumber {count : Nat} (refines : Refines (withActive count linked) manager)
    (entityId : UInt32) :
    Refines (withActive count (linked.renumber hIdx entityId))
        (renumberedOne (hIdx + 1) manager entityId) ∧
      (linked.renumber hIdx entityId).links = linked.links ∧
      (linked.renumber hIdx entityId).hotspotCells = linked.hotspotCells ∧
      SameCells manager (renumberedOne (hIdx + 1) manager entityId) := by
  have recorded : linked.entities entityId =
      (manager.entities entityId).map TrackedEntity.linked := refines.entities entityId
  rw [LinkedManager.renumber, renumberedOne, recorded]
  rcases manager.entities entityId with _ | entity
  · exact ⟨refines, rfl, rfl, rfl, rfl⟩
  exact ⟨refines.setEntity entityId (some (HotspotManager.renumbered (hIdx + 1) entity)),
    rfl, rfl, rfl, rfl⟩

theorem renumberList {count : Nat} (refines : Refines (withActive count linked) manager)
    (held : manager.hotspotCells[hIdx]? = some hotspot) (list : Option (Fin 16))
    (short : (hotspot.lists list).length ≤ manager.maxEntities) :
    ∃ after, linked.forEachFrom LinkedManager.links (LinkedManager.renumber hIdx)
        ((linked.hotspotCells hIdx).headOf list) linked = some after ∧
      Refines (withActive count after)
        ((hotspot.lists list).foldl (renumberedOne (hIdx + 1)) manager) ∧
      after.hotspotCells = linked.hotspotCells ∧
      SameCells manager ((hotspot.lists list).foldl (renumberedOne (hIdx + 1)) manager) := by
  have follows := (refines.woven.threads (hIdx, list)).follows
  rw [HotspotManager.listAt_of_getElem? held] at follows
  obtain ⟨_, after, done, _, further, sameCells, alsoCells⟩ := Links.forEach_simulates
    (fun rest current state abstract =>
      Links.Follows state.links.next quadtreeEmpty current rest ∧
        Refines (withActive count state) abstract ∧
        state.hotspotCells = linked.hotspotCells ∧ SameCells manager abstract)
    (fun _ _ _ related => related.1)
    (fun entityId rest current state abstract related => by
      obtain ⟨⟨isCurrent, isEntity, further⟩, refines, sameCells, alsoCells⟩ := related
      obtain ⟨next, sameLinks, nextCells, abstractCells⟩ :=
        @Refines.renumber state abstract hIdx count refines entityId
      refine ⟨isCurrent, isEntity, ?_, next, nextCells.trans sameCells,
        abstractCells.1.trans alsoCells.1, abstractCells.2.trans alsoCells.2⟩
      rw [sameLinks]
      exact further)
    ⟨follows, refines, rfl, rfl, rfl⟩ (Nat.lt_succ_of_le short)
  have sameFuel : linked.maxEntities = manager.maxEntities := refines.maxEntities
  refine ⟨after, ?_, further, sameCells, alsoCells⟩
  rw [LinkedManager.forEachFrom, sameFuel]
  exact done

theorem renumberLists (lists : List (Option (Fin 16))) {count : Nat}
    (refines : Refines (withActive count linked) manager)
    (held : manager.hotspotCells[hIdx]? = some hotspot)
    (short : ∀ list, (hotspot.lists list).length ≤ manager.maxEntities) :
    ∃ after, (lists.map (linked.hotspotCells hIdx).headOf).foldlM
        (fun (manager : LinkedManager) head =>
          manager.forEachFrom LinkedManager.links (LinkedManager.renumber hIdx) head manager)
        linked = some after ∧
      Refines (withActive count after)
        ((lists.flatMap hotspot.lists).foldl (renumberedOne (hIdx + 1)) manager) := by
  induction lists generalizing linked manager with
  | nil => exact ⟨linked, rfl, refines⟩
  | cons list lists ih =>
    obtain ⟨after, done, further, sameCells, alsoCells⟩ :=
      refines.renumberList held list (short list)
    rw [map_cons, foldlM_cons, done, flatMap_cons, foldl_append, ← sameCells]
    exact ih further (by rw [alsoCells.1, held]) (by rw [alsoCells.2]; exact short)

theorem reclaimHotspot_eq {last : HotspotCell}
    (isLast : manager.hotspotCells[manager.hotspotCells.length - 1]? = some last) :
    manager.reclaimHotspot hIdx =
      if hIdx ≠ manager.hotspotCells.length - 1 then
        (HotspotManager.members last).foldl (renumberedOne (hIdx + 1))
          { manager with hotspotCells := (manager.hotspotCells.set hIdx last).dropLast }
      else
        { manager with hotspotCells := manager.hotspotCells.dropLast } := by
  have one : (fun (manager : HotspotManager) entityId =>
      (manager.entities entityId).elim manager fun entity =>
        manager.setEntity entityId (some { entity with hotspotId := hIdx + 1 })) =
      renumberedOne (hIdx + 1) :=
    rfl
  rw [HotspotManager.reclaimHotspot, getLast?_eq_getElem?, isLast, ← one]
  simp only
  split
  · congr 1
    funext other entityId
    cases other.entities entityId with
    | _ => rfl
  rfl

theorem reclaimHotspot (refines : Refines linked manager)
    (held : manager.hotspotCells[hIdx]? = some hotspot) (empty : ∀ list, hotspot.lists list = [])
    (short : ∀ slot, (manager.listAt slot).length ≤ manager.maxEntities) :
    ∃ after, linked.reclaimHotspot hIdx = some after ∧
      Refines after (manager.reclaimHotspot hIdx) := by
  have inside := (List.getElem?_eq_some_iff.mp held).1
  have lastInside : manager.hotspotCells.length - 1 < manager.hotspotCells.length := by
    omega
  obtain ⟨last, isLast⟩ : ∃ last,
      manager.hotspotCells[manager.hotspotCells.length - 1]? = some last :=
    ⟨_, getElem?_eq_getElem lastInside⟩
  have someActive : linked.activeHotspotsCount ≠ 0 := by
    rw [refines.active]
    omega
  have dropped := refines.drop held empty isLast
  rw [LinkedManager.reclaimHotspot, if_neg someActive, reclaimHotspot_eq isLast]
  simp only [refines.active] at dropped ⊢
  by_cases notLast : hIdx ≠ manager.hotspotCells.length - 1
  · rw [if_pos notLast, if_pos notLast]
    have movedHeld : (manager.hotspotCells.set hIdx last).dropLast[hIdx]? = some last := by
      rw [getElem?_dropLast, length_set, if_pos (by omega), getElem?_set_self inside]
    have lastShort : ∀ list, (last.lists list).length ≤ manager.maxEntities := by
      intro list
      rw [← HotspotManager.listAt_of_getElem? isLast]
      exact short _
    have sameSplit : (linked.hotspotCells (manager.hotspotCells.length - 1)).isSplit =
        last.isSplit :=
      (refines.cells _ last isLast).isSplit
    obtain ⟨after, done, further⟩ := @renumberLists
      { linked with
        hotspotCells := Function.update
          (Function.update linked.hotspotCells (manager.hotspotCells.length - 1)
            (linked.hotspotCells hIdx)) hIdx
          (linked.hotspotCells (manager.hotspotCells.length - 1)) }
      { manager with hotspotCells := (manager.hotspotCells.set hIdx last).dropLast }
      hIdx last (listsInUse last.isSplit) (manager.hotspotCells.length - 1) dropped movedHeld
      lastShort
    simp only [update_self, refines.active] at done
    rw [heads_eq, sameSplit, members_eq, done]
    exact ⟨_, rfl, further⟩
  have isLastIdx : hIdx = manager.hotspotCells.length - 1 := not_not.mp notLast
  rw [if_neg notLast, if_neg notLast]
  refine ⟨_, rfl, ?_⟩
  have sameCells : manager.hotspotCells.set hIdx last = manager.hotspotCells := by
    rw [← isLastIdx, held, some.injEq] at isLast
    rw [← isLast, (List.getElem?_eq_some_iff.mp held).2.symm, set_getElem_self]
  rw [sameCells, ← isLastIdx, update_idem, update_eq_self] at dropped
  rw [← isLastIdx]
  exact dropped

end Refines

end Eidolon.Spatial
