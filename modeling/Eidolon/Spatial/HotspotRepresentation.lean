import Eidolon.Spatial.HotspotRefinement
import Eidolon.Spatial.QueryExactness

/-!
# What the hotspot manager represents

After any run the links of the manager go through lists that hold each active entity once, in
its own cell and leaf.  The radius query finds them through these lists; it misses those of a
split cell at the far edge of the world whose bounds overflow.
-/

namespace Eidolon.Spatial

open Core Function Library List Option

namespace LinkedManager

/-- These lists are the ones that the links go through, and each active entity stands once in
them: in the list of its cell, and if the cell is split, in that of its leaf. -/
structure Represents (manager : LinkedManager) (lists : Slot → List UInt32) : Prop where
  distinct : ∀ first second, first < manager.activeHotspotsCount →
    second < manager.activeHotspotsCount →
      (manager.hotspotCells first).cell = (manager.hotspotCells second).cell → first = second
  threads : ∀ slot,
    manager.links.Threads quadtreeEmpty quadtreeEmpty (manager.headAt slot) (lists slot)
  nodup : ∀ slot, (lists slot).Nodup
  mem_iff : ∀ hIdx list entityId, entityId ∈ lists (hIdx, list) ↔
    hIdx < manager.activeHotspotsCount ∧ ∃ position,
      manager.positionOf entityId = some position ∧
        CellCoord.fromPosition position = (manager.hotspotCells hIdx).cell ∧
          list = if (manager.hotspotCells hIdx).isSplit then
              some (HotspotCell.computeLeafIndex (manager.hotspotCells hIdx).cell position)
            else none
  registered : ∀ entityId position, manager.positionOf entityId = some position →
    ∃ hIdx, hIdx < manager.activeHotspotsCount ∧
      (manager.hotspotCells hIdx).cell = CellCoord.fromPosition position
  counted : ∀ hIdx, hIdx < manager.activeHotspotsCount →
    (manager.hotspotCells hIdx).entityCount =
      ((Refines.listsInUse (manager.hotspotCells hIdx).isSplit).map fun list =>
        (lists (hIdx, list)).length).sum
  leafCounted : ∀ hIdx, hIdx < manager.activeHotspotsCount → ∀ leaf,
    (manager.hotspotCells hIdx).leafCounts leaf = (lists (hIdx, some leaf)).length

/-- With a large buffer, the query returns the active entities within the radius, each once. -/
def QueryExact (manager : LinkedManager) (center : Vec3Fix) (radiusSq : Fixed64) : Prop :=
  ∀ outputBuffer, ∃ result buffer,
    manager.queryRadius center radiusSq outputBuffer = some (result, buffer) ∧
      (result.totalMatches ≤ outputBuffer.length → (buffer.take result.written).Nodup ∧
          ∀ entityId, entityId ∈ buffer.take result.written ↔
            ∃ position, manager.positionOf entityId = some position ∧
              position.distanceSquared center ≤ radiusSq)

end LinkedManager

namespace HotspotManager

variable {manager : HotspotManager} {center : Vec3Fix} {radiusSq : Fixed64}

theorem Sound.mem_listAt_iff_position (sound : manager.Sound) {hIdx : Nat}
    {hotspot : HotspotCell} (held : manager.hotspotCells[hIdx]? = some hotspot)
    {list : Option (Fin 16)} {entityId : UInt32} :
    entityId ∈ manager.listAt (hIdx, list) ↔
      ∃ position, manager.positionOf entityId = some position ∧
        CellCoord.fromPosition position = hotspot.cell ∧ list = if hotspot.isSplit then
              some (HotspotCell.computeLeafIndex hotspot.cell position)
            else none := by
  rw [sound.mem_listAt_iff]
  constructor
  · rintro ⟨entity, other, isEntity, isOther, numbered, isList⟩
    rw [held, some.injEq] at isOther
    subst isOther
    obtain ⟨index, there, alsoNumbered, isThere, inCell⟩ := sound.indexed _ _ isEntity
    have sameIndex : index = hIdx := by
      omega
    rw [sameIndex, held, some.injEq] at isThere
    subst isThere
    refine ⟨entity.position, by rw [positionOf, isEntity]; rfl, inCell.cell.symm, ?_⟩
    simp only at isList
    rw [← isList, HotspotCell.listOf]
    split
    · rename_i split
      rw [inCell.leaf split]
    rfl
  rintro ⟨position, tracked, isCell, isList⟩
  rw [positionOf, map_eq_some_iff] at tracked
  obtain ⟨entity, isEntity, isPosition⟩ := tracked
  obtain ⟨index, there, numbered, isThere, inCell⟩ := sound.indexed _ _ isEntity
  have sameCell : there.cell = hotspot.cell := by
    rw [inCell.cell, isPosition, isCell]
  have sameIndex := sound.distinct index hIdx there hotspot isThere held sameCell
  rw [sameIndex, held, some.injEq] at isThere
  subst isThere
  refine ⟨entity, hotspot, isEntity, held, by rw [numbered, sameIndex], ?_⟩
  rw [isList, HotspotCell.listOf]
  split
  · rename_i split
    rw [inCell.leaf split, isPosition]
  rfl

theorem Sound.exists_cell (sound : manager.Sound) {entityId : UInt32} {position : Vec3Fix}
    (tracked : manager.positionOf entityId = some position) :
    ∃ (hIdx : Nat) (hotspot : HotspotCell), manager.hotspotCells[hIdx]? = some hotspot ∧
      hotspot.cell = CellCoord.fromPosition position := by
  rw [positionOf, map_eq_some_iff] at tracked
  obtain ⟨entity, isEntity, isPosition⟩ := tracked
  obtain ⟨hIdx, hotspot, _, held, inCell⟩ := sound.indexed _ _ isEntity
  exact ⟨hIdx, hotspot, held, by rw [inCell.cell, isPosition]⟩

theorem Sound.length_members (sound : manager.Sound) {hIdx : Nat} {hotspot : HotspotCell}
    (held : manager.hotspotCells[hIdx]? = some hotspot) :
    hotspot.entityCount = (members hotspot).length := by
  have holds := sound.holds hIdx hotspot held
  have same : {entityId | (leafIn manager.entities hIdx entityId).isSome} =
      ((members hotspot).toFinset : Set UInt32) := by
    ext entityId
    rw [Finset.mem_coe, List.mem_toFinset, HotspotCell.mem_members_iff holds, Set.mem_ofPred_eq]
  rw [holds.counted, same, Set.ncard_coe_finset,
    toFinset_card_of_nodup (HotspotCell.nodup_members holds)]

end HotspotManager

variable {manager : HotspotManager}

theorem Refines.represents {linked : LinkedManager} (refines : Refines linked manager)
    (sound : manager.Sound) : linked.Represents manager.listAt := by
  have cellAt : ∀ hIdx, hIdx < linked.activeHotspotsCount →
      ∃ hotspot, manager.hotspotCells[hIdx]? = some hotspot ∧
        (linked.hotspotCells hIdx).Shows hotspot := by
    intro hIdx inside
    rw [refines.active] at inside
    exact ⟨_, getElem?_eq_getElem inside,
      refines.cells hIdx _ (getElem?_eq_getElem inside)⟩
  have samePosition : ∀ entityId, linked.positionOf entityId = manager.positionOf entityId := by
    intro entityId
    rw [LinkedManager.positionOf, refines.entities, Option.map_map]
    rfl
  refine ⟨?_, refines.woven.threads, refines.woven.nodup, ?_, ?_, ?_, ?_⟩
  · intro first second firstInside secondInside sameCell
    obtain ⟨one, isOne, oneAlike⟩ := cellAt first firstInside
    obtain ⟨other, isOther, otherAlike⟩ := cellAt second secondInside
    rw [oneAlike.cell, otherAlike.cell] at sameCell
    exact sound.distinct first second one other isOne isOther sameCell
  · intro hIdx list entityId
    by_cases inside : hIdx < linked.activeHotspotsCount
    · obtain ⟨hotspot, held, alike⟩ := cellAt hIdx inside
      rw [sound.mem_listAt_iff_position held, alike.cell, alike.isSplit, samePosition]
      exact (and_iff_right inside).symm
    have outside : manager.hotspotCells[hIdx]? = none := by
      rw [getElem?_eq_none_iff, ← refines.active]
      exact Nat.le_of_not_lt inside
    rw [HotspotManager.listAt, outside]
    exact iff_of_false not_mem_nil fun both => inside both.1
  · intro entityId position tracked
    rw [samePosition] at tracked
    obtain ⟨hIdx, hotspot, held, named⟩ := sound.exists_cell tracked
    refine ⟨hIdx, ?_, ?_⟩
    · rw [refines.active]
      exact (List.getElem?_eq_some_iff.mp held).1
    rw [(refines.cells hIdx hotspot held).cell, named]
  · intro hIdx inside
    obtain ⟨hotspot, held, alike⟩ := cellAt hIdx inside
    rw [alike.entityCount, alike.isSplit, sound.length_members held, Refines.members_eq,
      length_flatMap]
    simp only [HotspotManager.listAt_of_getElem? held]
  intro hIdx inside leaf
  obtain ⟨hotspot, held, alike⟩ := cellAt hIdx inside
  rw [alike.leafCounts, (sound.holds hIdx hotspot held).leafCounted,
    HotspotManager.listAt_of_getElem? held]
  rfl

namespace HotspotManager

variable {manager : HotspotManager} {center : Vec3Fix} {radiusSq : Fixed64} {linked : LinkedManager}

theorem visitFrom_eq (refines : Refines linked manager) (sound : manager.Sound) (slot : Slot)
    (center : Vec3Fix) (radiusSq : Fixed64) (output : QueryOutput) :
    linked.visitFrom center radiusSq (linked.headAt slot) output = some (output.emitAll
        ((manager.listAt slot).filter (manager.isWithin center radiusSq))) := by
  have sameVisit : linked.visit center radiusSq = manager.visit center radiusSq := by
    funext output entityId
    rw [LinkedManager.visit, HotspotManager.visit, refines.entities]
    cases manager.entities entityId with
    | _ => rfl
  have short := sound.length_listAt_le slot
  rw [← refines.maxEntities] at short
  rw [LinkedManager.visitFrom, LinkedManager.forEachFrom, sameVisit,
    Links.forEach_eq_foldl (refines.woven.threads slot).follows (Nat.lt_succ_of_le short),
    foldl_visit]

theorem foldlM_emitAll {Step : Type} {visit : QueryOutput → Step → Option QueryOutput}
    {matchesOf : Step → List UInt32} {steps : List Step}
    (visits : ∀ output, ∀ step ∈ steps, visit output step = some (output.emitAll (matchesOf step)))
    (output : QueryOutput) :
    steps.foldlM visit output = some (output.emitAll (steps.flatMap matchesOf)) := by
  induction steps generalizing output with
  | nil => rfl
  | cons step steps ih =>
    rw [foldlM_cons, visits output step mem_cons_self, flatMap_cons, QueryOutput.emitAll_append]
    exact ih (fun output later member => visits output later (mem_cons_of_mem step member)) _

theorem linkedQueryCell_eq (refines : Refines linked manager) (sound : manager.Sound) {hIdx : Nat}
    {hotspot : HotspotCell} (held : manager.hotspotCells[hIdx]? = some hotspot) (center : Vec3Fix)
    (radiusSq : Fixed64) (output : QueryOutput) :
    linked.queryCellHierarchical center radiusSq output hIdx =
      some (output.emitAll (manager.hotspotMatches hIdx center radiusSq)) := by
  have alike := refines.cells hIdx hotspot held
  have list : ∀ (list : Option (Fin 16)) (output : QueryOutput),
      linked.visitFrom center radiusSq ((linked.hotspotCells hIdx).headOf list) output =
        some (output.emitAll ((hotspot.lists list).filter (manager.isWithin center radiusSq))) := by
    intro list output
    rw [← listAt_of_getElem? held]
    exact visitFrom_eq refines sound (hIdx, list) center radiusSq output
  have leaf : ∀ (output : QueryOutput) (leaf : Fin 16),
      linked.queryLeaf (linked.hotspotCells hIdx) center radiusSq output leaf =
        some (output.emitAll (manager.leafMatches hotspot center radiusSq leaf)) := by
    intro output leaf
    rw [LinkedManager.queryLeaf, leafMatches, alike.leafCounts, alike.cell]
    split
    · rfl
    split
    · rfl
    exact list (some leaf) output
  have quadrant : ∀ (output : QueryOutput) (quadrant : Fin 4),
      linked.queryQuadrant (linked.hotspotCells hIdx) center radiusSq output quadrant =
        some (output.emitAll (manager.quadrantMatches hotspot center radiusSq quadrant)) := by
    intro output quadrant
    rw [LinkedManager.queryQuadrant, quadrantMatches, alike.cell]
    split
    · rfl
    exact foldlM_emitAll (fun output other _ => leaf output other) output
  rw [LinkedManager.queryCellHierarchical, hotspotMatches, cellAt_of_getElem? held]
  simp only [alike.isSplit]
  split
  · exact list none output
  exact foldlM_emitAll (fun output other _ => quadrant output other) output

def radiusMatches (manager : HotspotManager) (center : Vec3Fix) (radiusSq : Fixed64) :
    List UInt32 :=
  (List.range manager.hotspotCells.length).flatMap fun hIdx =>
    manager.hotspotMatches hIdx center radiusSq

theorem linkedQueryRadius_eq (refines : Refines linked manager) (sound : manager.Sound)
    (center : Vec3Fix) (radiusSq : Fixed64) (outputBuffer : List UInt32) :
    let output := (QueryOutput.start outputBuffer).emitAll (manager.radiusMatches center radiusSq)
    linked.queryRadius center radiusSq outputBuffer = some (output.result, output.buffer) := by
  have visits : ∀ output, ∀ hIdx ∈ List.range manager.hotspotCells.length,
      linked.queryCellHierarchical center radiusSq output hIdx =
        some (output.emitAll (manager.hotspotMatches hIdx center radiusSq)) := by
    intro output hIdx member
    exact linkedQueryCell_eq refines sound
      (getElem?_eq_getElem (mem_range.mp member)) center radiusSq output
  rw [LinkedManager.queryRadius, refines.active, foldlM_emitAll visits]
  rfl

theorem Sound.mem_matches_iff (sound : manager.Sound) {hIdx : Nat} {hotspot : HotspotCell}
    (held : manager.hotspotCells[hIdx]? = some hotspot) {entityId : UInt32} :
    entityId ∈ manager.hotspotMatches hIdx center radiusSq ↔
      ∃ position, manager.positionOf entityId = some position ∧
        CellCoord.fromPosition position = hotspot.cell ∧
          position.distanceSquared center ≤ radiusSq ∧
            (hotspot.isSplit = true → HotspotCell.AtEdge center position →
              radiusSq.raw.toInt = Fixed64.maxRaw) := by
  cases split : hotspot.isSplit with
  | true =>
    have found := sound.findHotspot_eq_some_iff.mpr ⟨hotspot, held, rfl⟩
    rw [sound.mem_hotspotMatches_iff found (by rw [cellAt_of_getElem? held, split])]
    simp only [forall_true_left]
  | false =>
    rw [hotspotMatches, cellAt_of_getElem? held, split]
    simp only [Bool.not_false, if_true, mem_filter, Bool.false_eq_true,
      IsEmpty.forall_iff, and_true]
    have inFlat : entityId ∈ hotspot.flat ↔ entityId ∈ manager.listAt (hIdx, none) := by
      rw [listAt_of_getElem? held]
      rfl
    rw [inFlat, sound.mem_listAt_iff_position held, isWithin_iff]
    simp only [split, Bool.false_eq_true, if_false, and_true]
    constructor
    · rintro ⟨⟨position, tracked, isCell⟩, other, alsoTracked, close⟩
      rw [tracked, some.injEq] at alsoTracked
      exact ⟨position, tracked, isCell, alsoTracked ▸ close⟩
    rintro ⟨position, tracked, isCell, close⟩
    exact ⟨⟨position, tracked, isCell⟩, position, tracked, close⟩

theorem Sound.nodup_radiusMatches (sound : manager.Sound) :
    (manager.radiusMatches center radiusSq).Nodup := by
  have inRange : ∀ {hIdx : Nat}, hIdx ∈ List.range manager.hotspotCells.length →
      ∃ hotspot, manager.hotspotCells[hIdx]? = some hotspot := fun member =>
    ⟨_, getElem?_eq_getElem (mem_range.mp member)⟩
  rw [radiusMatches, nodup_flatMap]
  constructor
  · intro hIdx member
    obtain ⟨hotspot, held⟩ := inRange member
    rw [hotspotMatches, cellAt_of_getElem? held]
    split
    · exact ((sound.holds hIdx hotspot held).bucketed.nodup none).filter _
    rename_i isSplit
    rw [Bool.not_eq_true, Bool.not_eq_false'] at isSplit
    exact nodup_quadrantMatches (sound.holds hIdx hotspot held) isSplit
  refine nodup_range.imp_of_mem ?_
  intro first second firstMember secondMember different entityId inFirst inSecond
  obtain ⟨one, isOne⟩ := inRange firstMember
  obtain ⟨other, isOther⟩ := inRange secondMember
  obtain ⟨position, tracked, isCell, _⟩ := (sound.mem_matches_iff isOne).mp inFirst
  obtain ⟨_, alsoTracked, alsoCell, _⟩ := (sound.mem_matches_iff isOther).mp inSecond
  rw [tracked, some.injEq] at alsoTracked
  rw [← alsoTracked] at alsoCell
  exact different (sound.distinct first second one other isOne isOther (isCell.symm.trans alsoCell))

theorem Sound.mem_radiusMatches_iff (sound : manager.Sound) {entityId : UInt32} :
    entityId ∈ manager.radiusMatches center radiusSq ↔
      ∃ position, manager.positionOf entityId = some position ∧
        position.distanceSquared center ≤ radiusSq ∧
          (manager.isSplit (CellCoord.fromPosition position) = true →
            HotspotCell.AtEdge center position → radiusSq.raw.toInt = Fixed64.maxRaw) := by
  have sameSplit : ∀ {hIdx : Nat} {hotspot : HotspotCell} {position : Vec3Fix},
      manager.hotspotCells[hIdx]? = some hotspot → hotspot.cell = CellCoord.fromPosition position →
          manager.isSplit (CellCoord.fromPosition position) = hotspot.isSplit := by
    intro hIdx hotspot position held named
    rw [HotspotManager.isSplit, sound.findHotspot_eq_some_iff.mpr ⟨hotspot, held, named⟩]
    simp only [held, any_some]
  rw [radiusMatches, mem_flatMap]
  constructor
  · rintro ⟨hIdx, member, isMatch⟩
    have held := getElem?_eq_getElem (mem_range.mp member)
    obtain ⟨position, tracked, isCell, close, kept⟩ := (sound.mem_matches_iff held).mp isMatch
    refine ⟨position, tracked, close, ?_⟩
    rw [sameSplit held isCell.symm]
    exact kept
  rintro ⟨position, tracked, close, kept⟩
  obtain ⟨hIdx, hotspot, held, named⟩ := sound.exists_cell tracked
  rw [sameSplit held named] at kept
  exact ⟨hIdx, List.mem_range.mpr (List.getElem?_eq_some_iff.mp held).1,
    (sound.mem_matches_iff held).mpr ⟨position, tracked, named.symm, close, kept⟩⟩

end HotspotManager

/-- The entity is found: bounds that overflow cut off nothing within the greatest radius, or in
a cell that is not split. -/
def LinkedManager.Finds (manager : LinkedManager) (center : Vec3Fix) (radiusSq : Fixed64)
    (position : Vec3Fix) : Prop :=
  manager.isSplit (CellCoord.fromPosition position) = true →
    HotspotCell.AtEdge center position → radiusSq.raw.toInt = Fixed64.maxRaw

theorem Refines.queryExact_iff {linked : LinkedManager} (refines : Refines linked manager)
    (sound : manager.Sound) (center : Vec3Fix) (radiusSq : Fixed64) :
    linked.QueryExact center radiusSq ↔
      ∀ entityId position, linked.positionOf entityId = some position →
        position.distanceSquared center ≤ radiusSq → linked.Finds center radiusSq position := by
  have samePosition : ∀ entityId, linked.positionOf entityId = manager.positionOf entityId := by
    intro entityId
    rw [LinkedManager.positionOf, refines.entities, Option.map_map]
    rfl
  have finds : SpatialHashGrid.Finds (fun outputBuffer =>
      (((QueryOutput.start outputBuffer).emitAll (manager.radiusMatches center radiusSq)).result,
        ((QueryOutput.start outputBuffer).emitAll (manager.radiusMatches center radiusSq)).buffer))
      (manager.radiusMatches center radiusSq) := fun outputBuffer =>
    ⟨_, List.Perm.refl _, rfl⟩
  have queried := HotspotManager.linkedQueryRadius_eq refines sound center radiusSq
  simp only [samePosition, LinkedManager.Finds, refines.isSplit_eq]
  constructor
  · intro exactly entityId position tracked close
    obtain ⟨result, buffer, isResult, returned⟩ :=
      exactly (List.replicate (manager.radiusMatches center radiusSq).length 0)
    rw [queried, some.injEq, Prod.mk.injEq] at isResult
    obtain ⟨total, same⟩ := finds.returned
      (List.replicate (manager.radiusMatches center radiusSq).length 0)
    have room : result.totalMatches ≤
        (List.replicate (manager.radiusMatches center radiusSq).length (0 : UInt32)).length := by
      rw [← isResult.1, length_replicate]
      exact Nat.le_of_eq total
    have members := (returned room).2 entityId
    rw [← isResult.1, ← isResult.2,
      (same (by rw [length_replicate])).mem_iff, sound.mem_radiusMatches_iff] at members
    obtain ⟨other, alsoTracked, _, kept⟩ := members.mpr
      ⟨position, (samePosition entityId).trans tracked, close⟩
    rw [tracked, some.injEq] at alsoTracked
    exact alsoTracked ▸ kept
  intro found outputBuffer
  obtain ⟨total, same⟩ := finds.returned outputBuffer
  refine ⟨_, _, queried outputBuffer, fun room => ?_⟩
  rw [total] at room
  refine ⟨(same room).nodup_iff.mpr sound.nodup_radiusMatches, fun entityId => ?_⟩
  rw [(same room).mem_iff, sound.mem_radiusMatches_iff]
  simp only [samePosition]
  constructor
  · rintro ⟨position, tracked, close, _⟩
    exact ⟨position, tracked, close⟩
  rintro ⟨position, tracked, close⟩
  exact ⟨position, tracked, close, found entityId position tracked close⟩

/-- Whatever was inserted, moved and removed, the lists are right, and the query is exact if and
only if no entity within the radius is cut off by bounds that overflow.  Identifiers and cells
are as many as the links and the cell numbers can tell apart. -/
theorem represents_and_queryExact_iff (maxEntities maxHotspots : Nat)
    (fewCells : maxHotspots ≤ 65535) (calls : List HotspotCall)
    (avoid : ∀ call ∈ calls, call.AvoidsSentinel maxEntities) (center : Vec3Fix)
    (radiusSq : Fixed64) :
    ∃ manager, calls.foldlM LinkedManager.step (LinkedManager.new maxEntities maxHotspots) =
        some manager ∧
      (((∃ lists, manager.Represents lists) ∧ manager.QueryExact center radiusSq) ↔
        ∀ entityId position, manager.positionOf entityId = some position →
          position.distanceSquared center ≤ radiusSq → manager.Finds center radiusSq position) := by
  obtain ⟨manager, done, refines, sound⟩ :=
    @Refines.run _ _ (Refines.new maxEntities maxHotspots)
      (HotspotManager.sound_new maxEntities maxHotspots) fewCells calls avoid
  refine ⟨manager, done, ?_⟩
  rw [refines.queryExact_iff sound]
  exact and_iff_right ⟨_, refines.represents sound⟩

theorem represents_and_queryExact_iff_oneEntity :
    ∃ manager, [HotspotCall.insert 3 (Vec3Fix.fromI32 1 2 3)].foldlM LinkedManager.step
        (LinkedManager.new 16 4) = some manager ∧
      (((∃ lists, manager.Represents lists) ∧
          manager.QueryExact (Vec3Fix.fromI32 1 2 2) (Fixed64.fromI32 4)) ↔
        ∀ entityId position, manager.positionOf entityId = some position →
          position.distanceSquared (Vec3Fix.fromI32 1 2 2) ≤ Fixed64.fromI32 4 →
            manager.Finds (Vec3Fix.fromI32 1 2 2) (Fixed64.fromI32 4) position) :=
  represents_and_queryExact_iff 16 4 (by decide) [HotspotCall.insert 3 (Vec3Fix.fromI32 1 2 3)]
    (fun call member position isInsert => by
      rw [mem_singleton] at member
      rw [member] at isInsert
      cases isInsert)
    (Vec3Fix.fromI32 1 2 2) (Fixed64.fromI32 4)

structure Crowd (position : Vec3Fix) (count : Nat) (manager : HotspotManager) : Prop where
  sound : manager.Sound
  held : ∃ hotspot, manager.hotspotCells[0]? = some hotspot ∧
    hotspot.cell = CellCoord.fromPosition position ∧ hotspot.isSplit = false ∧
      hotspot.entityCount = count
  tracked : ∀ entityId,
    manager.positionOf entityId = if entityId.toNat < count then some position else none

theorem Crowd.insert {position : Vec3Fix} {count : Nat} {manager created : HotspotManager}
    (crowd : Crowd position count created)
    (done : manager.getOrCreateHotspot (CellCoord.fromPosition position) = (.ok 0, created))
    (entities : manager.entities = created.entities)
    (capacity : manager.maxEntities = created.maxEntities) {entityId : UInt32}
    (inside : entityId.toNat < manager.maxEntities) (isNext : entityId.toNat = count) :
    ∃ linked, Crowd position (count + 1) linked ∧ linked.maxEntities = manager.maxEntities ∧
      (manager.insert entityId position).2 =
        if hotspotSplitThreshold ≤ count + 1 then linked.splitCell 0 else linked := by
  obtain ⟨hotspot, held, named, notSplit, counted⟩ := crowd.held
  have free : created.entities entityId = none := by
    rw [← HotspotManager.positionOf_eq_none_iff, crowd.tracked, if_neg (by omega)]
  have inserted := @Refines.insert_of_created manager 0 hotspot entityId created position inside
    (by rw [entities, free]) done held _ rfl
  generalize entityIs : ({
    position := position
    hotspotId := 0 + 1
    leafIdx := HotspotCell.computeLeafIndex hotspot.cell position } : TrackedEntity) = entity
    at inserted
  have frame := hotspot.frame_linked entity.leafIdx entityId
  refine ⟨created.withLinked 0 entityId entity, ⟨?_, ?_, ?_⟩, capacity.symm, ?_⟩
  · apply crowd.sound.withLinked held free
    · omega
    · rw [← entityIs]
    · rw [← entityIs, named]
    rw [← entityIs]
  · refine ⟨hotspot.withEntity entity.leafIdx entityId, ?_, frame.1.trans named,
      frame.2.1.trans notSplit, ?_⟩
    · exact HotspotManager.getElem?_modifyCell_self held _
    rw [← counted]
    exact congrArg (· + 1) frame.2.2
  · intro other
    rw [HotspotManager.positionOf, HotspotManager.withLinked]
    simp only
    by_cases same : other = entityId
    · rw [same, update_self, map_some, if_pos (by omega), ← entityIs]
    have different : other.toNat ≠ count := by
      rw [← isNext]
      exact fun equal => same (UInt32.toNat_inj.mp equal)
    have before := crowd.tracked other
    rw [HotspotManager.positionOf] at before
    rw [update_of_ne same, before]
    by_cases earlier : other.toNat < count
    · rw [if_pos earlier, if_pos (by omega)]
    rw [if_neg earlier, if_neg (by omega)]
  rw [inserted, notSplit, counted]
  simp only [Bool.not_false, Bool.true_and, decide_eq_true_eq]

def gather (position : Vec3Fix) (first count : Nat) : List HotspotCall :=
  (List.range' first count).map fun number => .insert (UInt32.ofNat number) position

theorem Crowd.run {position : Vec3Fix} (more : Nat) {count : Nat} {manager : HotspotManager}
    (crowd : Crowd position count manager) (capacity : manager.maxEntities = 250)
    (total : count + (more + 1) = 250) :
    ∃ linked, Crowd position 250 linked ∧
      Library.run HotspotManager.step manager (gather position count (more + 1)) =
        linked.splitCell 0 := by
  induction more generalizing count manager with
  | zero =>
    obtain ⟨hotspot, held, named, _⟩ := crowd.held
    have found := crowd.sound.findHotspot_eq_some_iff.mpr ⟨hotspot, held, named⟩
    have number : (UInt32.ofNat count).toNat = count :=
      Nat.mod_eq_of_lt (by omega)
    obtain ⟨linked, further, _, inserted⟩ := @Crowd.insert position count manager manager crowd
      (by rw [HotspotManager.getOrCreateHotspot, found]) rfl rfl (UInt32.ofNat count)
      (by omega) number
    rw [if_pos (by rw [hotspotSplitThreshold]; omega)] at inserted
    have isLast : count + 1 = 250 := total
    rw [isLast] at further
    exact ⟨linked, further, inserted⟩
  | succ more ih =>
    obtain ⟨hotspot, held, named, _⟩ := crowd.held
    have found := crowd.sound.findHotspot_eq_some_iff.mpr ⟨hotspot, held, named⟩
    have number : (UInt32.ofNat count).toNat = count :=
      Nat.mod_eq_of_lt (by omega)
    obtain ⟨linked, further, sameCapacity, inserted⟩ :=
      @Crowd.insert position count manager manager crowd
        (by rw [HotspotManager.getOrCreateHotspot, found]) rfl rfl (UInt32.ofNat count)
        (by omega) number
    rw [if_neg (by rw [hotspotSplitThreshold]; omega)] at inserted
    rw [gather, range'_succ, map_cons, Library.run_cons, HotspotManager.step, inserted]
    exact ih further (sameCapacity.trans capacity) (by omega)

theorem Crowd.isSplit {position : Vec3Fix} (crowd : Crowd position 250 manager) :
    (manager.splitCell 0).isSplit (CellCoord.fromPosition position) = true ∧
      (manager.splitCell 0).positionOf 0 = some position := by
  obtain ⟨hotspot, held, named, notSplit, _⟩ := crowd.held
  obtain ⟨sameCell, sameSplit, _⟩ := hotspot.cleared.pushLeaves_spec
    (HotspotManager.leafOf manager.entities hotspot.cell) hotspot.flat
  have splitHeld : (manager.splitCell 0).hotspotCells[0]? =
      some (hotspot.cleared.pushLeaves (HotspotManager.leafOf manager.entities hotspot.cell)
        hotspot.flat) := by
    rw [crowd.sound.splitCell_eq held notSplit]
    exact HotspotManager.getElem?_modifyCell_self held _
  constructor
  · have found := (crowd.sound.splitCell held notSplit).findHotspot_eq_some_iff.mpr
      ⟨_, splitHeld, sameCell.trans named⟩
    rw [HotspotManager.isSplit, found]
    simp only [splitHeld, any_some]
    exact sameSplit
  rw [crowd.sound.positionOf_splitCell held notSplit, crowd.tracked]
  rfl

def farEdge : Vec3Fix := Vec3Fix.fromI32 2147483640 0 0

theorem exists_crowd_farEdge : ∃ linked, Crowd farEdge 250 linked ∧
      Library.run HotspotManager.step (HotspotManager.new 250 1) (gather farEdge 0 250) =
        linked.splitCell 0 := by
  let created : HotspotManager :=
    { HotspotManager.new 250 1 with
      hotspotCells := [HotspotCell.new (CellCoord.fromPosition farEdge)] }
  have done : (HotspotManager.new 250 1).getOrCreateHotspot (CellCoord.fromPosition farEdge) =
      (.ok 0, created) :=
    rfl
  have createdSound : created.Sound := by
    rcases (HotspotManager.sound_new 250 1).getOrCreateHotspot
      (CellCoord.fromPosition farEdge) with ⟨error, refused⟩ | ⟨_, _, after, isAfter, sound, _⟩
    · cases refused
    rw [done, Prod.mk.injEq] at isAfter
    rw [isAfter.2]
    exact sound
  have start : Crowd farEdge 0 created :=
    ⟨createdSound, ⟨HotspotCell.new (CellCoord.fromPosition farEdge), rfl, rfl, rfl, rfl⟩,
      fun _ => rfl⟩
  obtain ⟨linked, further, capacity, inserted⟩ :=
    @Crowd.insert farEdge 0 _ created start done rfl rfl 0 (by decide) rfl
  obtain ⟨last, crowd, isLast⟩ := further.run 248 (capacity.trans rfl) rfl
  refine ⟨last, crowd, ?_⟩
  rw [gather, range'_succ, map_cons, Library.run_cons]
  exact (congrArg (fun manager => Library.run HotspotManager.step manager _) inserted).trans isLast

/-- Nobody of the crowd is found by who stands in it. -/
theorem not_queryExact_crowd :
    ¬ ∀ (maxEntities maxHotspots : Nat) (calls : List HotspotCall) (center : Vec3Fix)
      (radiusSq : Fixed64), ∃ manager,
        calls.foldlM LinkedManager.step (LinkedManager.new maxEntities maxHotspots) = some manager ∧
        (∃ lists, manager.Represents lists) ∧ manager.QueryExact center radiusSq := by
  intro correct
  obtain ⟨manager, done, _, exactly⟩ :=
    correct 250 1 (gather farEdge 0 250) farEdge Fixed64.zero
  have avoid : ∀ call ∈ gather farEdge 0 250, call.AvoidsSentinel 250 := by
    intro call _ _ _
    decide
  obtain ⟨alsoManager, alsoDone, refines, sound⟩ :=
    @Refines.run _ _ (Refines.new 250 1) (HotspotManager.sound_new 250 1) (by decide) _ avoid
  rw [done, some.injEq] at alsoDone
  rw [alsoDone, refines.queryExact_iff sound] at exactly
  obtain ⟨linked, crowd, isSplit⟩ := exists_crowd_farEdge
  obtain ⟨split, tracked⟩ := crowd.isSplit
  have position : alsoManager.positionOf 0 = some farEdge := by
    rw [isSplit] at refines
    rw [HotspotManager.positionOf, map_eq_some_iff] at tracked
    obtain ⟨entity, isEntity, isPosition⟩ := tracked
    rw [LinkedManager.positionOf, refines.entities, isEntity, ← isPosition]
    rfl
  have kept := exactly 0 farEdge position (by decide +kernel)
  rw [LinkedManager.Finds, refines.isSplit_eq, isSplit, split] at kept
  have atEdge : HotspotCell.AtEdge farEdge farEdge := Or.inl ⟨by decide +kernel, by decide +kernel⟩
  exact absurd (kept rfl atEdge) (by decide +kernel)

end Eidolon.Spatial
