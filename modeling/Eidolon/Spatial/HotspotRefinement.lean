import Eidolon.Spatial.HotspotLoops

/-!
# Operations of the hotspot manager with links

Every operation on the manager with links comes to an end, and returns what the one on the
manager without links returns.
-/

namespace Eidolon.Spatial

open Core Function Library List

namespace Refines

variable {linked : LinkedManager} {manager : HotspotManager} {hIdx : Nat}
  {hotspot : HotspotCell} {entityId : UInt32}

theorem free_of_none (sound : manager.Sound) (inactive : manager.entities entityId = none)
    (slot : Slot) : entityId ∉ manager.listAt slot := by
  intro member
  obtain ⟨entity, _, isEntity, _⟩ := sound.mem_listAt_iff.mp member
  rw [inactive] at isEntity
  cases isEntity

theorem short_flat (sound : manager.Sound) (held : manager.hotspotCells[hIdx]? = some hotspot) :
    hotspot.flat.length ≤ manager.maxEntities := by
  have short := sound.length_listAt_le (hIdx, none)
  rw [HotspotManager.listAt_of_getElem? held] at short
  exact short

theorem short_leaves (sound : manager.Sound) (held : manager.hotspotCells[hIdx]? = some hotspot)
    (leaf : Fin 16) : (hotspot.leaves leaf).length ≤ manager.maxEntities := by
  have short := sound.length_listAt_le (hIdx, some leaf)
  rw [HotspotManager.listAt_of_getElem? held] at short
  exact short

theorem lists_count (hotspot : HotspotCell) (count : Nat) :
    ({ hotspot with entityCount := count } : HotspotCell).lists = hotspot.lists := by
  funext list
  cases list with
  | _ => rfl

theorem headOf_count (hotspot : LinkedCell) (count : Nat) :
    ({ hotspot with entityCount := count } : LinkedCell).headOf = hotspot.headOf := by
  funext list
  cases list with
  | _ => rfl

theorem withLinked (refines : Refines linked manager)
    (held : manager.hotspotCells[hIdx]? = some hotspot) (isEntity : entityId ≠ quadtreeEmpty)
    (free : ∀ slot, entityId ∉ manager.listAt slot) (entity : TrackedEntity) :
    Refines ((if (linked.hotspotCells hIdx).isSplit then
          (linked.setEntity entityId (some entity.linked)).pushLeaf hIdx entity.leafIdx entityId
        else
          (linked.setEntity entityId (some entity.linked)).pushFlat hIdx
            entityId).modifyCell hIdx fun hotspot =>
              { hotspot with entityCount := hotspot.entityCount + 1 })
      (manager.withLinked hIdx entityId entity) := by
  have recorded := refines.setEntity entityId (some entity)
  have pushed := recorded.link held isEntity free entity.leafIdx
  have pushedHeld : ((manager.setEntity entityId (some entity)).modifyCell hIdx
      (·.linked entity.leafIdx entityId)).hotspotCells[hIdx]? =
        some (hotspot.linked entity.leafIdx entityId) := by
    refine (HotspotManager.getElem?_modifyCell _ hIdx _ hIdx).trans ?_
    rw [if_pos rfl]
    exact congrArg (Option.map _) held
  have alike := pushed.cells hIdx _ pushedHeld
  have counted := @changeCounts _ _ _ _ pushed pushedHeld
    (fun hotspot => { hotspot with entityCount := hotspot.entityCount + 1 })
    (fun hotspot => { hotspot with entityCount := hotspot.entityCount + 1 })
    ⟨alike.cell, alike.isSplit, congrArg (· + 1) alike.entityCount, alike.leafCounts⟩
    (headOf_count _ _) (lists_count _ _)
  rw [HotspotManager.modifyCell_modifyCell] at counted
  exact counted

def withoutLinks (linked : LinkedManager) (hIdx : Nat) (leaf : Fin 16) (entityId : UInt32) :
    LinkedManager :=
  let unlinked :=
    if (linked.hotspotCells hIdx).isSplit then linked.unlinkLeaf hIdx leaf entityId
    else linked.unlinkFlat hIdx entityId
  let counted := unlinked.modifyCell hIdx fun hotspot =>
    { hotspot with entityCount := hotspot.entityCount - 1 }
  { counted.setEntity entityId none with
    links := counted.links.reset quadtreeEmpty entityId }

variable {leaf : Fin 16}

theorem withUnlinked (refines : Refines linked manager)
    (held : manager.hotspotCells[hIdx]? = some hotspot)
    (member : entityId ∈ hotspot.lists (hotspot.listOf leaf))
    (free : ∀ slot, entityId ∉ (manager.withUnlinked hIdx entityId leaf).listAt slot) :
    Refines (withoutLinks linked hIdx leaf entityId) (manager.withUnlinked hIdx entityId leaf) := by
  have unlinked := refines.unlinked held member
  have unlinkedHeld : (manager.modifyCell hIdx (·.unlinked leaf entityId)).hotspotCells[hIdx]? =
        some (hotspot.unlinked leaf entityId) :=
    HotspotManager.getElem?_modifyCell_self held _
  have alike := unlinked.cells hIdx _ unlinkedHeld
  have counted := @changeCounts _ _ _ _ unlinked unlinkedHeld
    (fun hotspot => { hotspot with entityCount := hotspot.entityCount - 1 })
    (fun hotspot => { hotspot with entityCount := hotspot.entityCount - 1 })
    ⟨alike.cell, alike.isSplit, congrArg (· - 1) alike.entityCount, alike.leafCounts⟩
    (headOf_count _ _) (lists_count _ _)
  rw [HotspotManager.modifyCell_modifyCell] at counted
  exact (counted.setEntity entityId none).reset free

theorem getElem?_withLinked {created : HotspotManager}
    (held : created.hotspotCells[hIdx]? = some hotspot) (entityId : UInt32)
    (entity : TrackedEntity) :
    (created.withLinked hIdx entityId entity).hotspotCells[hIdx]? =
      some (hotspot.withEntity entity.leafIdx entityId) :=
  HotspotManager.getElem?_modifyCell_self held _

theorem insert_of_created {created : HotspotManager} {position : Vec3Fix}
    (inside : entityId.toNat < manager.maxEntities)
    (free : manager.entities entityId = none)
    (done : manager.getOrCreateHotspot (CellCoord.fromPosition position) = (.ok hIdx, created))
    (held : created.hotspotCells[hIdx]? = some hotspot) {entity : TrackedEntity}
    (entityIs : entity =
      { position := position
        hotspotId := hIdx + 1
        leafIdx := HotspotCell.computeLeafIndex hotspot.cell position }) :
    manager.insert entityId position = (.ok (),
        if !hotspot.isSplit && decide (hotspotSplitThreshold ≤ hotspot.entityCount + 1) then
          (created.withLinked hIdx entityId entity).splitCell hIdx
        else
          created.withLinked hIdx entityId entity) := by
  have linkedHeld := getElem?_withLinked held entityId entity
  have linkedIs : ((created.setEntity entityId (some entity)).modifyCell hIdx fun hotspot =>
      if hotspot.isSplit then hotspot.pushLeaf entity.leafIdx entityId
      else { hotspot with flat := entityId :: hotspot.flat }).modifyCell hIdx (fun hotspot =>
        { hotspot with entityCount := hotspot.entityCount + 1 }) =
      created.withLinked hIdx entityId entity := by
    rw [HotspotManager.modifyCell_modifyCell]
    rfl
  have frame := hotspot.frame_linked entity.leafIdx entityId
  have leafIs : HotspotCell.computeLeafIndex hotspot.cell position = entity.leafIdx := by
    rw [entityIs]
  rw [HotspotManager.insert, if_neg (by omega), if_neg (by rw [free]; decide)]
  simp only [done]
  rw [HotspotManager.cellAt_of_getElem? held, ← entityIs, leafIs, linkedIs,
    HotspotManager.cellAt_of_getElem? linkedHeld]
  simp only [HotspotCell.withEntity, frame.2.1, frame.2.2]
  split <;> rfl

theorem insert (refines : Refines linked manager) (sound : manager.Sound)
    (isNumber : entityId.toNat < manager.maxEntities → entityId ≠ quadtreeEmpty)
    (position : Vec3Fix) :
    ∃ after, linked.insert entityId position = some ((manager.insert entityId position).1, after) ∧
      Refines after (manager.insert entityId position).2 := by
  by_cases outside : manager.maxEntities ≤ entityId.toNat
  · refine ⟨linked, ?_, ?_⟩
    · rw [LinkedManager.insert, HotspotManager.insert, refines.maxEntities, if_pos outside,
        if_pos outside]
    rw [HotspotManager.insert, if_pos outside]
    exact refines
  have linkedInside : ¬ linked.maxEntities ≤ entityId.toNat := by
    rw [refines.maxEntities]
    exact outside
  have isEntity := isNumber (Nat.lt_of_not_le outside)
  cases tracked : manager.entities entityId with
  | some entity =>
    have active : (manager.entities entityId).isSome := by
      rw [tracked]
      rfl
    have linkedActive : (linked.entities entityId).isSome := by
      rw [refines.entities, tracked]
      rfl
    refine ⟨linked, ?_, ?_⟩
    · rw [LinkedManager.insert, HotspotManager.insert, if_neg linkedInside, if_neg outside,
        if_pos linkedActive, if_pos active]
    rw [HotspotManager.insert, if_neg outside, if_pos active]
    exact refines
  | none =>
    have linkedFree : ¬ (linked.entities entityId).isSome := by
      rw [refines.entities, tracked]
      decide
    obtain ⟨sameResult, further⟩ :=
      refines.getOrCreateHotspot (CellCoord.fromPosition position)
    rw [LinkedManager.insert, if_neg linkedInside, if_neg linkedFree]
    rcases linkedDone : linked.getOrCreateHotspot (CellCoord.fromPosition position) with
      ⟨result, linkedCreated⟩
    rw [linkedDone] at sameResult further
    rcases sound.getOrCreateHotspot (CellCoord.fromPosition position) with
      ⟨error, refused⟩ | ⟨hIdx, hotspot, created, done, createdSound, held, named, entities,
        capacity⟩
    · rw [refused] at sameResult further
      have isError : result = .error error := sameResult
      refine ⟨linkedCreated, ?_, ?_⟩
      · rw [HotspotManager.insert, if_neg outside, if_neg (by rw [tracked]; decide)]
        simp only [isError, refused]
      rw [HotspotManager.insert, if_neg outside, if_neg (by rw [tracked]; decide)]
      simp only [refused]
      exact further
    rw [done] at sameResult further
    have isIndex : result = .ok hIdx := sameResult
    have alike := further.cells hIdx hotspot held
    have createdFree : created.entities entityId = none := by
      rw [entities, tracked]
    generalize entityIs : ({
      position := position
      hotspotId := hIdx + 1
      leafIdx := HotspotCell.computeLeafIndex hotspot.cell position } : TrackedEntity) = entity
    have linkedNow := further.withLinked held isEntity (free_of_none createdSound createdFree)
      entity
    have linkedSound : (created.withLinked hIdx entityId entity).Sound := by
      apply createdSound.withLinked held createdFree
      · omega
      · rw [← entityIs]
      · rw [← entityIs]
        exact named
      rw [← entityIs]
    have linkedHeld := getElem?_withLinked held entityId entity
    have linkedAlike := linkedNow.cells hIdx _ linkedHeld
    have frame := hotspot.frame_linked entity.leafIdx entityId
    rw [insert_of_created (by omega) tracked done held entityIs.symm]
    have leafIs : HotspotCell.computeLeafIndex (linkedCreated.hotspotCells hIdx).cell
        position = entity.leafIdx := by
      rw [alike.cell, ← entityIs]
    have recordedIs : ({
        position := position
        hotspotId := UInt16.ofNat (hIdx + 1)
        leafIdx := entity.leafIdx } : LinkedEntity) = entity.linked := by
      rw [← entityIs]
      rfl
    simp only [isIndex, leafIs, recordedIs]
    generalize LinkedManager.modifyCell _ hIdx _ = counted at linkedNow linkedAlike ⊢
    have sameSplit : (counted.hotspotCells hIdx).isSplit = hotspot.isSplit :=
      linkedAlike.isSplit.trans frame.2.1
    have sameCount : (counted.hotspotCells hIdx).entityCount = hotspot.entityCount + 1 :=
      linkedAlike.entityCount.trans (congrArg (· + 1) frame.2.2)
    rw [sameSplit, sameCount]
    split
    · obtain ⟨after, splitDone, splitFurther⟩ :=
        linkedNow.splitCell linkedHeld (short_flat linkedSound linkedHeld)
      rw [splitDone]
      exact ⟨after, rfl, splitFurther⟩
    exact ⟨counted, rfl, linkedNow⟩

theorem flat_eq_nil (sound : manager.Sound) (held : manager.hotspotCells[hIdx]? = some hotspot)
    (split : hotspot.isSplit = true) : hotspot.flat = [] := by
  rw [eq_nil_iff_forall_not_mem]
  intro entityId member
  have placed := ((sound.holds hIdx hotspot held).bucketed.mem_iff none entityId).mp member
  rw [Option.map_eq_some_iff] at placed
  obtain ⟨leaf, _, isList⟩ := placed
  rw [HotspotCell.listOf, if_pos split] at isList
  cases isList

theorem lists_eq_nil (sound : manager.Sound) (held : manager.hotspotCells[hIdx]? = some hotspot)
    (empty : hotspot.entityCount = 0) (list : Option (Fin 16)) : hotspot.lists list = [] := by
  have holds := sound.holds hIdx hotspot held
  have counted := holds.counted
  rw [empty, eq_comm, Set.ncard_eq_zero] at counted
  rw [eq_nil_iff_forall_not_mem]
  intro entityId member
  have placed := (holds.bucketed.mem_iff list entityId).mp member
  rw [Option.map_eq_some_iff] at placed
  obtain ⟨leaf, inside, _⟩ := placed
  have here : entityId ∈ {entityId |
      (HotspotManager.leafIn manager.entities hIdx entityId).isSome} := by
    rw [Set.mem_ofPred_eq, inside]
    rfl
  rw [counted] at here
  exact here

theorem remove_of_entity (sound : manager.Sound)
    (held : manager.hotspotCells[hIdx]? = some hotspot) {entity : TrackedEntity}
    (isEntity : manager.entities entityId = some entity)
    (numbered : entity.hotspotId = hIdx + 1) :
    let unlinked := manager.withUnlinked hIdx entityId entity.leafIdx
    let merged :=
      if hotspot.isSplit && decide (hotspot.entityCount - 1 ≤ hotspotMergeThreshold) then
        unlinked.mergeCell hIdx
      else
        unlinked
    manager.remove entityId = (.ok (),
        if hotspot.entityCount - 1 = 0 then merged.reclaimHotspot hIdx else merged) := by
  have fits := sound.within entityId (by rw [isEntity]; rfl)
  have isIndex : entity.hotspotId - 1 = hIdx := by
    omega
  have unlinkedIs : ((manager.modifyCell hIdx fun hotspot =>
      if hotspot.isSplit then hotspot.unlinkLeaf entity.leafIdx entityId
      else { hotspot with flat := hotspot.flat.erase entityId }).modifyCell hIdx
        fun hotspot => { hotspot with entityCount := hotspot.entityCount - 1 }).setEntity
          entityId none = manager.withUnlinked hIdx entityId entity.leafIdx := by
    rw [HotspotManager.modifyCell_modifyCell]
    rfl
  have unlinkedHeld : (manager.withUnlinked hIdx entityId entity.leafIdx).hotspotCells[hIdx]? =
        some (hotspot.withoutEntity entity.leafIdx entityId) :=
    HotspotManager.getElem?_modifyCell_self held _
  have mergedHeld : ((manager.withUnlinked hIdx entityId
      entity.leafIdx).mergeCell hIdx).hotspotCells[hIdx]? =
        some (hotspot.withoutEntity entity.leafIdx entityId).merged :=
    HotspotManager.getElem?_modifyCell_self unlinkedHeld _
  have frame := hotspot.frame_unlinked entity.leafIdx entityId
  rw [HotspotManager.remove, isEntity]
  simp only
  rw [if_neg (by omega), isIndex, unlinkedIs, HotspotManager.cellAt_of_getElem? unlinkedHeld]
  simp only [HotspotCell.withoutEntity, frame.2.1, frame.2.2]
  split
  · rw [HotspotManager.cellAt_of_getElem? mergedHeld]
    simp only [HotspotCell.merged, HotspotCell.withoutEntity, frame.2.2]
    split <;> rfl
  rw [HotspotManager.cellAt_of_getElem? unlinkedHeld]
  simp only [HotspotCell.withoutEntity, frame.2.2]
  split <;> rfl

theorem toNat_number (small : hIdx + 1 ≤ 65535) :
    UInt16.ofNat (hIdx + 1) ≠ 0 ∧ (UInt16.ofNat (hIdx + 1) - 1).toNat = hIdx := by
  have number : (UInt16.ofNat (hIdx + 1)).toNat = hIdx + 1 :=
    Nat.mod_eq_of_lt (by omega)
  constructor
  · intro zero
    rw [zero] at number
    cases number
  rw [UInt16.toNat_sub_of_le]
  · rw [number]
    rfl
  rw [UInt16.le_iff_toNat_le, number]
  exact Nat.le_add_left 1 hIdx

theorem mem_lists (sound : manager.Sound) (held : manager.hotspotCells[hIdx]? = some hotspot)
    {entity : TrackedEntity} (isEntity : manager.entities entityId = some entity)
    (numbered : entity.hotspotId = hIdx + 1) :
    entityId ∈ hotspot.lists (hotspot.listOf entity.leafIdx) := by
  rw [← HotspotManager.listAt_of_getElem? held]
  exact sound.mem_listAt_iff.mpr ⟨entity, hotspot, isEntity, held, numbered, rfl⟩

theorem linkedRemove_of_entity {entity : LinkedEntity}
    (isEntity : linked.entities entityId = some entity)
    (fits : ¬ (linked.maxEntities ≤ entityId.toNat ∨ entity.hotspotId = 0))
    (isIndex : (entity.hotspotId - 1).toNat = hIdx) :
    let inactive := withoutLinks linked hIdx entity.leafIdx entityId
    linked.remove entityId = (if (inactive.hotspotCells hIdx).isSplit &&
          decide ((inactive.hotspotCells hIdx).entityCount ≤ hotspotMergeThreshold) then
        inactive.mergeCell hIdx
      else
        some inactive).bind fun manager =>
          (if (manager.hotspotCells hIdx).entityCount = 0 then manager.reclaimHotspot hIdx
          else some manager).map fun manager => (.ok (), manager) := by
  rw [LinkedManager.remove, isEntity]
  simp only
  rw [if_neg fits, isIndex]
  rfl

section

variable (refines : Refines linked manager)
include refines

theorem reclaimIfEmpty (sound : manager.Sound) (held : manager.hotspotCells[hIdx]? = some hotspot)
    {count : Nat} (counted : hotspot.entityCount = count) :
    ∃ last, ((if (linked.hotspotCells hIdx).entityCount = 0 then linked.reclaimHotspot hIdx
          else some linked).map fun manager => ((.ok () : Except SpatialError Unit), manager)) =
        some (.ok (), last) ∧
      Refines last (if count = 0 then manager.reclaimHotspot hIdx else manager) := by
  rw [(refines.cells hIdx hotspot held).entityCount, counted]
  split
  · rename_i empty
    obtain ⟨last, done, reclaimed⟩ := refines.reclaimHotspot held
      (lists_eq_nil sound held (counted.trans empty)) sound.length_listAt_le
    rw [done]
    exact ⟨last, rfl, reclaimed⟩
  exact ⟨linked, rfl, refines⟩

theorem remove (sound : manager.Sound) (small : manager.maxHotspots ≤ 65535) (entityId : UInt32) :
    ∃ after, linked.remove entityId = some ((manager.remove entityId).1, after) ∧
      Refines after (manager.remove entityId).2 := by
  rcases isEntity : manager.entities entityId with _ | entity
  · have inactive : linked.entities entityId = none := by
      rw [refines.entities, isEntity]
      rfl
    rw [LinkedManager.remove, HotspotManager.remove, isEntity, inactive]
    exact ⟨linked, rfl, refines⟩
  obtain ⟨hIdx, hotspot, numbered, held, _⟩ := sound.indexed entityId entity isEntity
  have fits := sound.within entityId (by rw [isEntity]; rfl)
  have inside := (List.getElem?_eq_some_iff.mp held).1
  have room := refines.room
  obtain ⟨notZero, isIndex⟩ := @toNat_number hIdx (by omega)
  have sameNumber : entity.linked.hotspotId = UInt16.ofNat (hIdx + 1) :=
    congrArg UInt16.ofNat numbered
  have linkedEntity : linked.entities entityId = some entity.linked := by
    rw [refines.entities, isEntity]
    rfl
  have linkedFits : ¬ (linked.maxEntities ≤ entityId.toNat ∨ entity.linked.hotspotId = 0) := by
    rw [refines.maxEntities, sameNumber, not_or]
    exact ⟨by omega, notZero⟩
  have unlinkedSound := sound.withUnlinked held isEntity numbered
  have gone : (manager.withUnlinked hIdx entityId entity.leafIdx).entities entityId =
      none :=
    update_self _ _ _
  have unlinkedHeld : (manager.withUnlinked hIdx entityId entity.leafIdx).hotspotCells[hIdx]? =
        some (hotspot.withoutEntity entity.leafIdx entityId) :=
    HotspotManager.getElem?_modifyCell_self held _
  have unlinked := refines.withUnlinked held (mem_lists sound held isEntity numbered)
    (free_of_none unlinkedSound gone)
  have frame := hotspot.frame_unlinked entity.leafIdx entityId
  have alike := unlinked.cells hIdx _ unlinkedHeld
  have sameSplit : ((withoutLinks linked hIdx entity.leafIdx entityId).hotspotCells
      hIdx).isSplit = hotspot.isSplit :=
    alike.isSplit.trans frame.2.1
  have sameCount : ((withoutLinks linked hIdx entity.leafIdx entityId).hotspotCells
      hIdx).entityCount = hotspot.entityCount - 1 :=
    alike.entityCount.trans (congrArg (· - 1) frame.2.2)
  rw [remove_of_entity sound held isEntity numbered,
    linkedRemove_of_entity linkedEntity linkedFits (by rw [sameNumber, isIndex])]
  have sameLeaf : entity.linked.leafIdx = entity.leafIdx :=
    rfl
  simp only [sameLeaf, sameSplit, sameCount]
  split
  · rename_i small
    rw [Bool.and_eq_true] at small
    have split : (hotspot.withoutEntity entity.leafIdx entityId).isSplit = true :=
      frame.2.1.trans small.1
    have mergedSound := unlinkedSound.mergeCell unlinkedHeld split
    have mergedHeld : ((manager.withUnlinked hIdx entityId
        entity.leafIdx).mergeCell hIdx).hotspotCells[hIdx]? =
          some (hotspot.withoutEntity entity.leafIdx entityId).merged :=
      HotspotManager.getElem?_modifyCell_self unlinkedHeld _
    obtain ⟨merged, done, further⟩ := unlinked.mergeCell unlinkedHeld
      (flat_eq_nil unlinkedSound unlinkedHeld split)
      (short_leaves unlinkedSound unlinkedHeld)
    rw [done]
    exact further.reclaimIfEmpty mergedSound mergedHeld (congrArg (· - 1) frame.2.2)
  exact unlinked.reclaimIfEmpty unlinkedSound unlinkedHeld (congrArg (· - 1) frame.2.2)

theorem free_of_unlinkLeaf (held : manager.hotspotCells[hIdx]? = some hotspot)
    (member : entityId ∈ hotspot.leaves leaf) (slot : Slot) :
    entityId ∉ (manager.modifyCell hIdx (·.unlinkLeaf leaf entityId)).listAt slot := by
  have inLeaf : entityId ∈ manager.listAt (hIdx, some leaf) := by
    rw [HotspotManager.listAt_of_getElem? held]
    exact member
  rw [listAt_modifyCell held, HotspotCell.lists_unlinkLeaf]
  intro also
  split at also
  · by_cases same : slot.2 = some leaf
    · rw [same, update_self] at also
      have distinct := refines.woven.nodup (hIdx, some leaf)
      rw [HotspotManager.listAt_of_getElem? held] at distinct
      exact distinct.not_mem_erase also
    rw [update_of_ne same, ← HotspotManager.listAt_of_getElem? held] at also
    have sameSlot := refines.woven.apart _ _ entityId also inLeaf
    exact same (congrArg Prod.snd sameSlot)
  rename_i elsewhere
  have sameSlot := refines.woven.apart _ _ entityId also inLeaf
  exact elsewhere (congrArg Prod.fst sameSlot)

theorem moveLeaf (held : manager.hotspotCells[hIdx]? = some hotspot)
    (member : entityId ∈ hotspot.leaves leaf) (newLeaf : Fin 16) :
    Refines ((linked.unlinkLeaf hIdx leaf entityId).pushLeaf hIdx newLeaf entityId)
      (manager.modifyCell hIdx fun hotspot =>
        (hotspot.unlinkLeaf leaf entityId).pushLeaf newLeaf entityId) := by
  have isEntity : entityId ≠ quadtreeEmpty := by
    have inLeaf : entityId ∈ manager.listAt (hIdx, some leaf) := by
      rw [HotspotManager.listAt_of_getElem? held]
      exact member
    exact (refines.woven.threads (hIdx, some leaf)).ne_terminal inLeaf
  have unlinkedHeld : (manager.modifyCell hIdx (·.unlinkLeaf leaf entityId)).hotspotCells[hIdx]? =
        some (hotspot.unlinkLeaf leaf entityId) :=
    HotspotManager.getElem?_modifyCell_self held _
  have pushed := (refines.unlinkLeaf held member).pushLeaf unlinkedHeld isEntity
    (refines.free_of_unlinkLeaf held member) newLeaf
  rw [HotspotManager.modifyCell_modifyCell] at pushed
  exact pushed

theorem updatePosition (sound : manager.Sound) (small : manager.maxHotspots ≤ 65535)
    (entityId : UInt32) (newPos : Vec3Fix) :
    ∃ after, linked.updatePosition entityId newPos =
        some ((manager.updatePosition entityId newPos).1, after) ∧
      Refines after (manager.updatePosition entityId newPos).2 := by
  rcases isEntity : manager.entities entityId with _ | entity
  · have inactive : linked.entities entityId = none := by
      rw [refines.entities, isEntity]
      rfl
    rw [LinkedManager.updatePosition, HotspotManager.updatePosition, isEntity, inactive]
    exact ⟨linked, rfl, refines⟩
  obtain ⟨hIdx, hotspot, numbered, held, correct⟩ :=
    sound.indexed entityId entity isEntity
  have fits := sound.within entityId (by rw [isEntity]; rfl)
  have inside := (List.getElem?_eq_some_iff.mp held).1
  have room := refines.room
  have isIndex : entity.hotspotId - 1 = hIdx := by
    omega
  have linkedIndex : (entity.linked.hotspotId - 1).toNat = hIdx := by
    have sameNumber : entity.linked.hotspotId = UInt16.ofNat (hIdx + 1) :=
      congrArg UInt16.ofNat numbered
    rw [sameNumber]
    exact (@toNat_number hIdx (by omega)).2
  have linkedEntity : linked.entities entityId = some entity.linked := by
    rw [refines.entities, isEntity]
    rfl
  have inList := mem_lists sound held isEntity numbered
  have alike := refines.cells hIdx hotspot held
  have samePosition : entity.linked.position = entity.position :=
    rfl
  rw [LinkedManager.updatePosition, HotspotManager.updatePosition, linkedEntity, isEntity]
  simp only
  have abstractFits : ¬ manager.maxEntities ≤ entityId.toNat := by
    omega
  have linkedFits : ¬ linked.maxEntities ≤ entityId.toNat := by
    rw [refines.maxEntities]
    exact abstractFits
  rw [if_neg linkedFits, samePosition]
  split
  · -- The entity leaves the cell, and is inserted into its new one.
    obtain ⟨after, done, further⟩ := refines.remove sound small entityId
    have removed := sound.remove entityId
    have isOk := congrArg Prod.fst (remove_of_entity sound held isEntity numbered)
    have gone : entityId ≠ quadtreeEmpty := by
      rw [← HotspotManager.listAt_of_getElem? held] at inList
      exact (refines.woven.threads _).ne_terminal inList
    rcases removedIs : manager.remove entityId with ⟨result, abstractAfter⟩
    rw [removedIs] at done further removed isOk
    simp only at isOk
    rw [done, isOk]
    exact further.insert removed.sound (fun _ => gone) newPos
  rw [isIndex, linkedIndex, HotspotManager.cellAt_of_getElem? held]
  simp only [LinkedManager.setEntity, alike.cell, alike.isSplit]
  have sameLeaf : entity.linked.leafIdx = entity.leafIdx :=
    rfl
  rw [sameLeaf]
  split
  · rename_i leaves
    rw [Bool.and_eq_true] at leaves
    have inLeaf : entityId ∈ hotspot.leaves entity.leafIdx := by
      rw [HotspotCell.listOf, if_pos leaves.1] at inList
      exact inList
    refine ⟨_, rfl, ?_⟩
    have recorded := refines.setEntity entityId
      (some { entity with
        position := newPos
        leafIdx := HotspotCell.computeLeafIndex hotspot.cell newPos })
    have moved := recorded.moveLeaf held inLeaf (HotspotCell.computeLeafIndex hotspot.cell newPos)
    simp only [LinkedManager.pushLeaf, LinkedManager.unlinkLeaf,
      LinkedManager.modifyCell, LinkedManager.setEntity, update_idem]
      at moved ⊢
    exact moved
  exact ⟨_, rfl, refines.setEntity entityId (some { entity with position := newPos })⟩

end

end Refines

namespace HotspotManager

theorem maxHotspots_foldl {step : HotspotManager → UInt32 → HotspotManager}
    (keeps : ∀ manager entityId, (step manager entityId).maxHotspots = manager.maxHotspots)
    (entityIds : List UInt32) (manager : HotspotManager) :
    (entityIds.foldl step manager).maxHotspots = manager.maxHotspots := by
  induction entityIds generalizing manager with
  | nil => rfl
  | cons entityId entityIds ih => rw [foldl_cons, ih, keeps]

variable (manager : HotspotManager)

theorem maxHotspots_splitCell (hIdx : Nat) :
    (manager.splitCell hIdx).maxHotspots = manager.maxHotspots := by
  refine (maxHotspots_foldl ?_ _ _).trans rfl
  intro manager entityId
  cases manager.entities entityId with
  | _ => rfl

theorem maxHotspots_reclaimHotspot (hIdx : Nat) :
    (manager.reclaimHotspot hIdx).maxHotspots = manager.maxHotspots := by
  rw [reclaimHotspot]
  split
  · rfl
  simp only
  split
  · refine (maxHotspots_foldl ?_ _ _).trans rfl
    intro manager entityId
    cases manager.entities entityId with
    | _ => rfl
  rfl

variable (entityId : UInt32)

theorem maxHotspots_insert (position : Vec3Fix) :
    (manager.insert entityId position).2.maxHotspots = manager.maxHotspots := by
  have created : (manager.getOrCreateHotspot
      (CellCoord.fromPosition position)).2.maxHotspots = manager.maxHotspots := by
    rw [getOrCreateHotspot]
    split
    · rfl
    split <;> rfl
  rw [insert]
  split
  · rfl
  split
  · rfl
  rcases isResult : manager.getOrCreateHotspot (CellCoord.fromPosition position) with
    ⟨result, after⟩
  rw [isResult] at created
  rcases result with error | hIdx
  · simp only [isResult]
    exact created
  simp only [isResult]
  split
  · rw [maxHotspots_splitCell]
    exact created
  exact created

theorem maxHotspots_remove : (manager.remove entityId).2.maxHotspots = manager.maxHotspots := by
  rw [remove]
  split
  · rfl
  split
  · rfl
  simp only
  split
  · split
    · rw [maxHotspots_reclaimHotspot]
      rfl
    rfl
  split
  · rw [maxHotspots_reclaimHotspot]
    rfl
  rfl

theorem maxHotspots_updatePosition (newPos : Vec3Fix) :
    (manager.updatePosition entityId newPos).2.maxHotspots = manager.maxHotspots := by
  have removed := manager.maxHotspots_remove entityId
  rw [updatePosition]
  split
  · rfl
  split
  · rfl
  split
  · rcases isResult : manager.remove entityId with ⟨result, after⟩
    rw [isResult] at removed
    cases result with
    | error error => exact removed
    | ok => exact (maxHotspots_insert after entityId newPos).trans removed
  simp only
  split <;> rfl

end HotspotManager

/-- The operations on a manager. -/
inductive HotspotCall where
  | insert (entityId : UInt32) (pos : Vec3Fix)
  | updatePosition (entityId : UInt32) (newPos : Vec3Fix)
  | remove (entityId : UInt32)
  deriving DecidableEq

def HotspotManager.step (manager : HotspotManager) : HotspotCall → HotspotManager
  | .insert entityId pos => (manager.insert entityId pos).2
  | .updatePosition entityId newPos => (manager.updatePosition entityId newPos).2
  | .remove entityId => (manager.remove entityId).2

def LinkedManager.step (manager : LinkedManager) : HotspotCall → Option LinkedManager
  | .insert entityId pos => (manager.insert entityId pos).map (·.2)
  | .updatePosition entityId newPos => (manager.updatePosition entityId newPos).map (·.2)
  | .remove entityId => (manager.remove entityId).map (·.2)

/-- The call does not number an entity like the sentinel. -/
def HotspotCall.AvoidsSentinel (maxEntities : Nat) (call : HotspotCall) : Prop :=
  ∀ position, call = .insert quadtreeEmpty position → maxEntities ≤ quadtreeEmpty.toNat

namespace HotspotManager

theorem Sound.step {manager : HotspotManager} (sound : manager.Sound) (call : HotspotCall) :
    (manager.step call).Sound ∧ (manager.step call).maxEntities = manager.maxEntities ∧
      (manager.step call).maxHotspots = manager.maxHotspots := by
  cases call with
  | insert entityId pos =>
    rw [HotspotManager.step]
    refine ⟨?_, ?_, manager.maxHotspots_insert entityId pos⟩
    · rcases tracked : manager.entities entityId with _ | entity
      · exact (sound.insert tracked pos).sound
      rw [HotspotManager.insert]
      split
      · exact sound
      rw [if_pos (by rw [tracked]; rfl)]
      exact sound
    rcases tracked : manager.entities entityId with _ | entity
    · exact (sound.insert tracked pos).capacity
    rw [HotspotManager.insert]
    split
    · rfl
    rw [if_pos (by rw [tracked]; rfl)]
  | updatePosition entityId newPos =>
    have places := sound.updatePosition entityId newPos
    exact ⟨places.sound, places.capacity, manager.maxHotspots_updatePosition entityId newPos⟩
  | remove entityId =>
    have places := sound.remove entityId
    exact ⟨places.sound, places.capacity, manager.maxHotspots_remove entityId⟩

end HotspotManager

theorem Refines.step {linked : LinkedManager} {manager : HotspotManager}
    (refines : Refines linked manager) (sound : manager.Sound)
    (small : manager.maxHotspots ≤ 65535) {call : HotspotCall}
    (avoids : call.AvoidsSentinel manager.maxEntities) :
    ∃ after, linked.step call = some after ∧ Refines after (manager.step call) := by
  cases call with
  | insert entityId pos =>
    have isNumber : entityId.toNat < manager.maxEntities → entityId ≠ quadtreeEmpty := by
      intro inside isSentinel
      rw [isSentinel] at inside avoids
      exact absurd inside (Nat.not_lt_of_le (avoids pos rfl))
    obtain ⟨after, done, further⟩ := refines.insert sound isNumber pos
    refine ⟨after, ?_, further⟩
    rw [LinkedManager.step, done]
    rfl
  | updatePosition entityId newPos =>
    obtain ⟨after, done, further⟩ := refines.updatePosition sound small entityId newPos
    refine ⟨after, ?_, further⟩
    rw [LinkedManager.step, done]
    rfl
  | remove entityId =>
    obtain ⟨after, done, further⟩ := refines.remove sound small entityId
    refine ⟨after, ?_, further⟩
    rw [LinkedManager.step, done]
    rfl

theorem Refines.run {linked : LinkedManager} {manager : HotspotManager}
    (refines : Refines linked manager) (sound : manager.Sound)
    (small : manager.maxHotspots ≤ 65535) {calls : List HotspotCall}
    (avoid : ∀ call ∈ calls, call.AvoidsSentinel manager.maxEntities) :
    ∃ after, calls.foldlM LinkedManager.step linked = some after ∧
      Refines after (Library.run HotspotManager.step manager calls) ∧
      (Library.run HotspotManager.step manager calls).Sound := by
  induction calls generalizing linked manager with
  | nil => exact ⟨linked, rfl, refines, sound⟩
  | cons call calls ih =>
    obtain ⟨stepSound, capacity, hotspots⟩ := sound.step call
    obtain ⟨next, done, further⟩ :=
      refines.step sound small (avoid call mem_cons_self)
    rw [foldlM_cons, done]
    refine ih further stepSound (by rw [hotspots]; exact small) ?_
    intro later member
    rw [capacity]
    exact avoid later (mem_cons_of_mem call member)

end Eidolon.Spatial
