import Eidolon.Spatial.GridSound
import Eidolon.Spatial.QuadtreePruning
import Eidolon.Spatial.QueryBatches

/-!
# Exactness of queries

A query returns only active entities within the radius, and none of them twice.  It returns
all of them if each is in a cell within its reach, and what the hotspot manager keeps of the
entity is found there if that cell is split.
-/

namespace Eidolon.Spatial

open Core Library List Option

namespace HotspotManager

variable {manager : HotspotManager} {center : Vec3Fix} {radiusSq : Fixed64} {entityId : UInt32}

theorem isWithin_iff : manager.isWithin center radiusSq entityId = true ↔
      ∃ position, manager.positionOf entityId = some position ∧
        position.distanceSquared center ≤ radiusSq := by
  rw [isWithin, Option.any_eq_true]
  simp only [decide_eq_true_iff]

variable {hotspot : HotspotCell} {inside : UInt32 → Option (Fin 16)}

theorem mem_leafMatches_iff (holds : hotspot.Holds inside) (isSplit : hotspot.isSplit = true)
    {leaf : Fin 16} :
    entityId ∈ manager.leafMatches hotspot center radiusSq leaf ↔ inside entityId = some leaf ∧
        (HotspotCell.leafAabb hotspot.cell leaf).intersectsCircle center.x center.z radiusSq =
          true ∧ manager.isWithin center radiusSq entityId = true := by
  have placed : entityId ∈ hotspot.leaves leaf ↔ inside entityId = some leaf := by
    have member := holds.bucketed.mem_iff (some leaf) entityId
    rw [HotspotCell.lists, map_eq_some_iff] at member
    rw [member]
    simp only [HotspotCell.listOf, isSplit, if_true, some.injEq, exists_eq_right]
  rw [leafMatches]
  split
  · rename_i empty
    rw [holds.leafCounted, length_eq_zero_iff] at empty
    rw [empty] at placed
    rw [← placed]
    simp
  split
  · rename_i pruned
    rw [Bool.not_eq_true'] at pruned
    simp [pruned]
  rename_i kept
  rw [Bool.not_eq_true, Bool.not_eq_false'] at kept
  rw [mem_filter, placed]
  simp [kept]

theorem mem_quadrantMatches_iff {quadrant : Fin 4} :
    entityId ∈ manager.quadrantMatches hotspot center radiusSq quadrant ↔
      (HotspotCell.quadrantAabb hotspot.cell quadrant).intersectsCircle center.x center.z
        radiusSq = true ∧ ∃ leaf, HotspotCell.quadrantOf leaf = quadrant ∧
          entityId ∈ manager.leafMatches hotspot center radiusSq leaf := by
  rw [quadrantMatches]
  split
  · rename_i pruned
    rw [Bool.not_eq_true'] at pruned
    simp [pruned]
  rename_i kept
  rw [Bool.not_eq_true, Bool.not_eq_false'] at kept
  rw [mem_flatMap]
  simp only [kept, true_and, HotspotCell.mem_quadrantToLeaves_iff, eq_comm]

theorem nodup_leafMatches (holds : hotspot.Holds inside) (isSplit : hotspot.isSplit = true)
    {leaves : List (Fin 16)} (distinct : leaves.Nodup) :
    (leaves.flatMap (manager.leafMatches hotspot center radiusSq)).Nodup := by
  rw [List.nodup_flatMap]
  constructor
  · intro leaf _
    rw [leafMatches]
    split
    · exact nodup_nil
    split
    · exact nodup_nil
    exact (holds.bucketed.nodup (some leaf)).filter _
  refine distinct.imp ?_
  intro first second different entityId inFirst inSecond
  rw [mem_leafMatches_iff holds isSplit] at inFirst inSecond
  apply different
  rw [← some.injEq, ← inFirst.1, ← inSecond.1]

theorem nodup_quadrantMatches (holds : hotspot.Holds inside) (isSplit : hotspot.isSplit = true) :
    ((List.finRange 4).flatMap (manager.quadrantMatches hotspot center radiusSq)).Nodup := by
  rw [List.nodup_flatMap]
  constructor
  · intro quadrant _
    rw [quadrantMatches]
    split
    · exact nodup_nil
    exact nodup_leafMatches holds isSplit (HotspotCell.nodup_quadrantToLeaves quadrant)
  refine (nodup_finRange 4).imp ?_
  intro first second different entityId inFirst inSecond
  rw [mem_quadrantMatches_iff] at inFirst inSecond
  obtain ⟨_, firstLeaf, firstOf, firstHas⟩ := inFirst
  obtain ⟨_, secondLeaf, secondOf, secondHas⟩ := inSecond
  rw [mem_leafMatches_iff holds isSplit] at firstHas secondHas
  have sameLeaf : firstLeaf = secondLeaf := by
    rw [← some.injEq, ← firstHas.1, ← secondHas.1]
  apply different
  rw [← firstOf, ← secondOf, sameLeaf]

theorem Sound.leafIn_eq_some_iff (sound : manager.Sound) {hIdx : Nat}
    (held : manager.hotspotCells[hIdx]? = some hotspot) (isSplit : hotspot.isSplit = true)
    {leaf : Fin 16} :
    leafIn manager.entities hIdx entityId = some leaf ↔
      ∃ position, manager.positionOf entityId = some position ∧
        CellCoord.fromPosition position = hotspot.cell ∧
          HotspotCell.computeLeafIndex hotspot.cell position = leaf := by
  rw [leafIn, bind_eq_some_iff]
  constructor
  · intro inLeaf
    obtain ⟨entity, isEntity, isLeaf⟩ := inLeaf
    obtain ⟨index, other, numbered, isOther, inCell⟩ := sound.indexed _ _ isEntity
    by_cases here : entity.hotspotId = hIdx + 1
    · rw [if_pos here, some.injEq] at isLeaf
      have sameIndex : index = hIdx := by
        omega
      rw [sameIndex, held, some.injEq] at isOther
      rw [← isOther] at inCell
      refine ⟨entity.position, ?_, inCell.cell.symm, ?_⟩
      · rw [positionOf, isEntity]
        rfl
      rw [← inCell.leaf isSplit, isLeaf]
    rw [if_neg here] at isLeaf
    cases isLeaf
  intro atPosition
  obtain ⟨position, tracked, isCell, isLeaf⟩ := atPosition
  rw [positionOf, map_eq_some_iff] at tracked
  obtain ⟨entity, isEntity, isPosition⟩ := tracked
  obtain ⟨index, other, numbered, isOther, inCell⟩ := sound.indexed _ _ isEntity
  have sameCell : other.cell = hotspot.cell := by
    rw [inCell.cell, isPosition, isCell]
  have sameIndex := sound.distinct index hIdx other hotspot isOther held sameCell
  rw [sameIndex, held, some.injEq] at isOther
  rw [← isOther] at inCell
  refine ⟨entity, isEntity, ?_⟩
  rw [if_pos (by omega), inCell.leaf isSplit, isPosition, isLeaf]

theorem Sound.mem_hotspotMatches_iff (sound : manager.Sound) {cell : CellCoord} {hIdx : Nat}
    (found : manager.findHotspot cell = some hIdx) (isSplit : (manager.cellAt hIdx).isSplit = true) :
    entityId ∈ manager.hotspotMatches hIdx center radiusSq ↔
      ∃ position, manager.positionOf entityId = some position ∧
        CellCoord.fromPosition position = cell ∧ position.distanceSquared center ≤ radiusSq ∧
            (HotspotCell.AtEdge center position → radiusSq.raw.toInt = Fixed64.maxRaw) := by
  obtain ⟨hotspot, held, named⟩ := sound.findHotspot_eq_some_iff.mp found
  rw [cellAt_of_getElem? held] at isSplit
  have holds := sound.holds hIdx hotspot held
  rw [hotspotMatches, cellAt_of_getElem? held, isSplit]
  simp only [Bool.not_true, Bool.false_eq_true, if_false, mem_flatMap, mem_finRange,
    true_and, mem_quadrantMatches_iff, mem_leafMatches_iff holds isSplit,
    sound.leafIn_eq_some_iff held isSplit]
  constructor
  · intro isMatch
    obtain ⟨quadrant, quadrantKept, leaf, isQuadrant, inLeaf, leafKept, within⟩ := isMatch
    obtain ⟨position, tracked, isCell, isLeaf⟩ := inLeaf
    obtain ⟨other, alsoTracked, close⟩ := isWithin_iff.mp within
    rw [tracked, some.injEq] at alsoTracked
    rw [← alsoTracked] at close
    rw [← isQuadrant, ← isLeaf, ← isCell] at quadrantKept
    rw [← isLeaf, ← isCell] at leafKept
    exact ⟨position, tracked, isCell.trans named, close,
      (HotspotCell.intersects_iff close).mp ⟨quadrantKept, leafKept⟩⟩
  intro isMatch
  obtain ⟨position, tracked, isCell, close, notPruned⟩ := isMatch
  have kept := (HotspotCell.intersects_iff close).mpr notPruned
  rw [isCell, ← named] at kept
  exact ⟨_, kept.1, _, rfl, ⟨position, tracked, isCell.trans named.symm, rfl⟩, kept.2,
    isWithin_iff.mpr ⟨position, tracked, close⟩⟩

end HotspotManager

namespace SpatialHashGrid

variable {grid : SpatialHashGrid} {center : Vec3Fix} {radiusSq : Fixed64}

def Within (grid : SpatialHashGrid) (center : Vec3Fix) (radiusSq : Fixed64)
    (entityId : UInt32) : Prop :=
  ∃ position, grid.getPosition entityId = some position ∧ position.distanceSquared center ≤ radiusSq

variable {cell : CellCoord} {entityId : UInt32}

theorem Sound.mem_bucketMatches_iff (sound : grid.Sound) :
    entityId ∈ grid.bucketMatches center radiusSq cell ↔
      ∃ position, grid.getPosition entityId = some position ∧
        (CellCoord.fromPosition position).spatialKey = cell.spatialKey ∧
          position.distanceSquared center ≤ radiusSq := by
  rw [bucketMatches, mem_filter, sound.bucketed.mem_iff, isMatch, getPosition]
  rcases isEntity : grid.entities entityId with _ | entity
  · simp
  obtain ⟨isCell, isKey⟩ := sound.placed entityId entity isEntity
  rw [isCell] at isKey
  simp only [map_some, some.injEq, any_some, Bool.and_eq_true,
    decide_eq_true_iff, exists_eq_left', isKey]
  constructor
  · intro both
    exact both.2
  intro both
  exact ⟨by rw [both.1], both⟩

theorem splitHotspot_eq_some {hIdx : Nat} (found : grid.splitHotspot cell = some hIdx) :
    grid.hotspots.isSplit cell = true ∧ grid.hotspots.findHotspot cell = some hIdx ∧
      (grid.hotspots.cellAt hIdx).isSplit = true := by
  rw [splitHotspot] at found
  split at found
  · rename_i isSplit
    refine ⟨isSplit, found, ?_⟩
    rw [HotspotManager.isSplit, found] at isSplit
    obtain ⟨hotspot, held, hotspotSplit⟩ := (Option.any_eq_true _ _).mp isSplit
    rw [HotspotManager.cellAt_of_getElem? held]
    exact hotspotSplit
  cases found

theorem splitHotspot_eq_none (missing : grid.splitHotspot cell = none) :
    grid.hotspots.isSplit cell = false := by
  rw [splitHotspot] at missing
  split at missing
  · rename_i isSplit
    rw [HotspotManager.isSplit, missing] at isSplit
    cases isSplit
  rename_i notSplit
  exact Bool.eq_false_iff.mpr notSplit

/-- What is needed of an entity to be found in a visited cell: its key, and if the cell is
split, that it is tracked there and not pruned. -/
def FoundIn (grid : SpatialHashGrid) (center : Vec3Fix) (radiusSq : Fixed64)
    (entityId : UInt32) (position : Vec3Fix) (cell : CellCoord) : Prop :=
  cell.spatialKey = (CellCoord.fromPosition position).spatialKey ∧
    (grid.hotspots.isSplit cell = true → cell = CellCoord.fromPosition position ∧
        grid.hotspots.positionOf entityId = some position ∧
          (HotspotCell.AtEdge center position → radiusSq.raw.toInt = Fixed64.maxRaw))

theorem Sound.mem_cellMatches_iff (sound : grid.Sound) :
    entityId ∈ grid.cellMatches grid.splitHotspot center radiusSq cell ↔
      ∃ position, grid.getPosition entityId = some position ∧
        position.distanceSquared center ≤ radiusSq ∧
          grid.FoundIn center radiusSq entityId position cell := by
  rw [cellMatches]
  rcases split : grid.splitHotspot cell with _ | hIdx
  · simp only [FoundIn, splitHotspot_eq_none split, sound.mem_bucketMatches_iff]
    constructor
    · intro isMatch
      obtain ⟨position, active, sameKey, close⟩ := isMatch
      exact ⟨position, active, close, sameKey.symm, fun isSplit => by cases isSplit⟩
    intro isFound
    obtain ⟨position, active, close, sameKey, _⟩ := isFound
    exact ⟨position, active, sameKey.symm, close⟩
  obtain ⟨isSplit, found, hotspotSplit⟩ := splitHotspot_eq_some split
  simp only [FoundIn, isSplit, sound.hotspots.mem_hotspotMatches_iff found hotspotSplit]
  constructor
  · intro isMatch
    obtain ⟨position, tracked, isCell, close, notPruned⟩ := isMatch
    exact ⟨position, sound.tracked entityId position tracked, close, by rw [isCell],
      fun _ => ⟨isCell.symm, tracked, notPruned⟩⟩
  intro isFound
  obtain ⟨position, _, close, _, inSplit⟩ := isFound
  obtain ⟨isCell, tracked, notPruned⟩ := inSplit trivial
  exact ⟨position, tracked, isCell.symm, close, notPruned⟩

theorem Sound.nodup_cellMatches (sound : grid.Sound) (cell : CellCoord) :
    (grid.cellMatches grid.splitHotspot center radiusSq cell).Nodup := by
  rw [cellMatches]
  rcases split : grid.splitHotspot cell with _ | hIdx
  · exact (sound.bucketed.nodup _).filter _
  obtain ⟨_, found, hotspotSplit⟩ := splitHotspot_eq_some split
  obtain ⟨hotspot, held, _⟩ := sound.hotspots.findHotspot_eq_some_iff.mp found
  have cellAt := HotspotManager.cellAt_of_getElem? held
  simp only
  rw [HotspotManager.hotspotMatches, hotspotSplit]
  rw [cellAt] at hotspotSplit ⊢
  exact HotspotManager.nodup_quadrantMatches (sound.hotspots.holds hIdx hotspot held) hotspotSplit

theorem nodup_flatMap_keyed {cells : List CellCoord} {matchesIn : CellCoord → List UInt32}
    (apart : cells.Pairwise fun first second => first.spatialKey ≠ second.spatialKey)
    (distinct : ∀ cell, (matchesIn cell).Nodup)
    (keyed : ∀ cell entityId, entityId ∈ matchesIn cell →
      ∃ position, grid.getPosition entityId = some position ∧
        cell.spatialKey = (CellCoord.fromPosition position).spatialKey) :
    (cells.flatMap matchesIn).Nodup := by
  rw [List.nodup_flatMap]
  refine ⟨fun cell _ => distinct cell, apart.imp ?_⟩
  intro first second different entityId inFirst inSecond
  obtain ⟨position, active, firstKey⟩ := keyed first entityId inFirst
  obtain ⟨other, alsoActive, secondKey⟩ := keyed second entityId inSecond
  rw [active, some.injEq] at alsoActive
  apply different
  rw [firstKey, secondKey, alsoActive]

theorem nodup_matchesOf {splitCells : CellCoord → Option Nat}
    (distinct : ∀ cell, (grid.cellMatches splitCells center radiusSq cell).Nodup)
    (keyed : ∀ cell entityId, entityId ∈ grid.cellMatches splitCells center radiusSq cell →
      ∃ position, grid.getPosition entityId = some position ∧
        cell.spatialKey = (CellCoord.fromPosition position).spatialKey) :
    (grid.matchesOf splitCells center radiusSq).Nodup := by
  refine nodup_flatMap_keyed ?_ distinct keyed
  refine (nodup_neighborCells center radiusSq).imp_of_mem ?_
  intro first second firstVisited secondVisited different sameKey
  exact different (Visited.eq_of_spatialKey (mem_neighborCells_iff.mp firstVisited)
    (mem_neighborCells_iff.mp secondVisited) sameKey)

theorem mem_matchesOf_iff {splitCells : CellCoord → Option Nat} :
    entityId ∈ grid.matchesOf splitCells center radiusSq ↔ ∃ cell, Visited center radiusSq cell ∧
        entityId ∈ grid.cellMatches splitCells center radiusSq cell := by
  rw [matchesOf, mem_flatMap]
  simp only [mem_neighborCells_iff]

/-- If the buffer is large enough, the query returns the active entities within the radius,
each once, and no other ones. -/
def ReturnsExactly (grid : SpatialHashGrid) (center : Vec3Fix) (radiusSq : Fixed64)
    (query : List UInt32 → SpatialQueryResult × List UInt32) : Prop :=
  ∀ outputBuffer, (query outputBuffer).1.totalMatches ≤ outputBuffer.length →
    let returned := (query outputBuffer).2.take (query outputBuffer).1.written
    returned.Nodup ∧ ∀ entityId, entityId ∈ returned ↔ grid.Within center radiusSq entityId

variable {query : List UInt32 → SpatialQueryResult × List UInt32}

theorem Finds.returned {entityIds : List UInt32} (finds : Finds query entityIds)
    (outputBuffer : List UInt32) :
    (query outputBuffer).1.totalMatches = entityIds.length ∧
      (entityIds.length ≤ outputBuffer.length →
        ((query outputBuffer).2.take (query outputBuffer).1.written).Perm entityIds) := by
  obtain ⟨found, same, output⟩ := finds outputBuffer
  obtain ⟨counted, sameLength⟩ :=
    QueryOutput.emitAll_counts (QueryOutput.start outputBuffer) found
  have total : ((QueryOutput.start outputBuffer).emitAll found).matchedCount =
      entityIds.length := by
    rw [counted, same.length_eq, QueryOutput.start, Nat.zero_add]
  rw [output, QueryOutput.result]
  refine ⟨total, fun room => ?_⟩
  simp only [total, sameLength]
  have written : min entityIds.length (QueryOutput.start outputBuffer).buffer.length =
      found.length := by
    rw [same.length_eq]
    exact Nat.min_eq_left room
  rw [written, QueryOutput.emitAll_start (same.length_eq ▸ room)]
  exact same

theorem Finds.returnsExactly_iff {entityIds : List UInt32} (finds : Finds query entityIds) :
    grid.ReturnsExactly center radiusSq query ↔ entityIds.Nodup ∧
        ∀ entityId, entityId ∈ entityIds ↔ grid.Within center radiusSq entityId := by
  constructor
  · intro exactly
    have large : (query (List.replicate entityIds.length 0)).1.totalMatches ≤
        (List.replicate entityIds.length (0 : UInt32)).length := by
      rw [(finds.returned _).1, length_replicate]
    have same := (finds.returned (List.replicate entityIds.length 0)).2 (by rw [length_replicate])
    obtain ⟨distinct, members⟩ := exactly _ large
    refine ⟨same.nodup_iff.mp distinct, fun entityId => ?_⟩
    rw [← members, same.mem_iff]
  intro exactly outputBuffer large
  rw [(finds.returned _).1] at large
  have same := (finds.returned outputBuffer).2 large
  refine ⟨same.nodup_iff.mpr exactly.1, fun entityId => ?_⟩
  rw [same.mem_iff, exactly.2]

def Seen (grid : SpatialHashGrid) (center : Vec3Fix) (radiusSq : Fixed64) (entityId : UInt32)
    (position : Vec3Fix) : Prop :=
  ∃ cell, Visited center radiusSq cell ∧ grid.FoundIn center radiusSq entityId position cell

theorem Sound.returnsExactly_iff (sound : grid.Sound)
    (finds : Finds query (grid.matchesOf grid.splitHotspot center radiusSq)) :
    grid.ReturnsExactly center radiusSq query ↔
      ∀ entityId position, grid.getPosition entityId = some position →
        position.distanceSquared center ≤ radiusSq →
          grid.Seen center radiusSq entityId position := by
  have distinct : (grid.matchesOf grid.splitHotspot center radiusSq).Nodup := by
    refine nodup_matchesOf sound.nodup_cellMatches ?_
    intro cell entityId member
    obtain ⟨position, active, _, inCell⟩ := sound.mem_cellMatches_iff.mp member
    exact ⟨position, active, inCell.1⟩
  rw [finds.returnsExactly_iff]
  simp only [distinct, true_and, mem_matchesOf_iff, sound.mem_cellMatches_iff]
  constructor
  · intro exactly entityId position active close
    obtain ⟨cell, visited, other, alsoActive, _, inCell⟩ :=
      (exactly entityId).mpr ⟨position, active, close⟩
    rw [active, some.injEq] at alsoActive
    rw [← alsoActive] at inCell
    exact ⟨cell, visited, inCell⟩
  intro seen entityId
  constructor
  · intro isMatch
    obtain ⟨_, _, position, active, close, _⟩ := isMatch
    exact ⟨position, active, close⟩
  intro within
  obtain ⟨position, active, close⟩ := within
  obtain ⟨cell, visited, inCell⟩ := seen entityId position active close
  exact ⟨cell, visited, position, active, close, inCell⟩

theorem Sound.returnsExactly_of_buckets (sound : grid.Sound)
    (finds : Finds query (grid.matchesOf (fun _ => none) center radiusSq))
    (seen : ∀ entityId position, grid.getPosition entityId = some position →
      position.distanceSquared center ≤ radiusSq → grid.Seen center radiusSq entityId position) :
    grid.ReturnsExactly center radiusSq query := by
  rw [finds.returnsExactly_iff]
  constructor
  · refine nodup_matchesOf (fun cell => (sound.bucketed.nodup _).filter _) ?_
    intro cell entityId member
    obtain ⟨position, active, sameKey, _⟩ := sound.mem_bucketMatches_iff.mp member
    exact ⟨position, active, sameKey.symm⟩
  intro entityId
  rw [mem_matchesOf_iff]
  constructor
  · intro isMatch
    obtain ⟨cell, _, member⟩ := isMatch
    obtain ⟨position, active, _, close⟩ := sound.mem_bucketMatches_iff.mp member
    exact ⟨position, active, close⟩
  intro within
  obtain ⟨position, active, close⟩ := within
  obtain ⟨cell, visited, sameKey, _⟩ := seen entityId position active close
  exact ⟨cell, visited, sound.mem_bucketMatches_iff.mpr ⟨position, active, sameKey.symm, close⟩⟩

def QueriesExact (grid : SpatialHashGrid) (center : Vec3Fix) (radiusSq : Fixed64) : Prop :=
  grid.ReturnsExactly center radiusSq (grid.queryRadiusSquared center radiusSq) ∧
    grid.ReturnsExactly center radiusSq (grid.queryRadiusSquaredBatched center radiusSq) ∧
      grid.ReturnsExactly center radiusSq (grid.queryRadiusSquaredBatched8x center radiusSq) ∧
        grid.ReturnsExactly center radiusSq (grid.queryRadiusSquaredBatched16x center radiusSq)

theorem Sound.queriesExact_iff_seen (sound : grid.Sound) : grid.QueriesExact center radiusSq ↔
      ∀ entityId position, grid.getPosition entityId = some position →
        position.distanceSquared center ≤ radiusSq →
          grid.Seen center radiusSq entityId position := by
  have scalar := sound.returnsExactly_iff (grid.finds_queryRadiusSquared center radiusSq)
  have batched :=
    sound.returnsExactly_iff (grid.finds_queryRadiusSquaredBatched center radiusSq)
  rw [QueriesExact, scalar, batched]
  constructor
  · intro exactly
    exact exactly.1
  intro seen
  exact ⟨seen, seen, sound.returnsExactly_of_buckets
      (grid.finds_queryRadiusSquaredBatched8x center radiusSq) seen,
    sound.returnsExactly_of_buckets (grid.finds_queryRadiusSquaredBatched16x center radiusSq) seen⟩

/-- Whatever was inserted, moved and removed, the queries are exact if and only if each
entity within the radius is in a visited cell and is found there.  The capacity is bounded
because the greatest identifier ends the lists. -/
theorem queriesExact_iff (maxEntities requestedBuckets : Nat)
    (_belowTerminal : maxEntities ≤ 4294967295) (calls : List GridCall) (center : Vec3Fix)
    (radiusSq : Fixed64) :
    let grid := Library.run step (withCapacity maxEntities requestedBuckets) calls
    grid.QueriesExact center radiusSq ↔
      ∀ entityId position, grid.getPosition entityId = some position →
        position.distanceSquared center ≤ radiusSq → grid.Seen center radiusSq entityId position :=
  (sound_run maxEntities requestedBuckets calls).queriesExact_iff_seen

theorem queriesExact_iff_oneEntity :
    let grid := Library.run step (withCapacity 16 64) [GridCall.insert 3 (Vec3Fix.fromI32 1 2 3)]
    grid.QueriesExact (Vec3Fix.fromI32 1 2 2) (Fixed64.fromI32 4) ↔
      ∀ entityId position, grid.getPosition entityId = some position →
        position.distanceSquared (Vec3Fix.fromI32 1 2 2) ≤ Fixed64.fromI32 4 →
          grid.Seen (Vec3Fix.fromI32 1 2 2) (Fixed64.fromI32 4) entityId position :=
  queriesExact_iff 16 64 (by decide) [GridCall.insert 3 (Vec3Fix.fromI32 1 2 3)]
    (Vec3Fix.fromI32 1 2 2) (Fixed64.fromI32 4)

/-- An entity two cells further is within a radius that is a little more than two edges. -/
theorem not_queriesExact_pastTwoEdges :
    ¬ ∀ (maxEntities requestedBuckets : Nat) (calls : List GridCall) (center : Vec3Fix)
      (radiusSq : Fixed64), maxEntities ≤ 4294967295 → Fixed64.zero ≤ radiusSq →
        (Library.run step (withCapacity maxEntities requestedBuckets) calls).QueriesExact center
          radiusSq := by
  intro exactly
  have scalar := (exactly 1 64 [GridCall.insert 0 (Vec3Fix.fromI32 192 0 0)]
    { x := Fixed64.fromRaw 274877906943, y := Fixed64.zero, z := Fixed64.zero }
    (Fixed64.fromRaw 70368744177920) (by decide) (by decide)).1 [0] (by decide +kernel)
  have missed := scalar.2 0
  have within : (Library.run step (withCapacity 1 64)
      [GridCall.insert 0 (Vec3Fix.fromI32 192 0 0)]).Within
        { x := Fixed64.fromRaw 274877906943, y := Fixed64.zero, z := Fixed64.zero }
        (Fixed64.fromRaw 70368744177920) 0 :=
    ⟨Vec3Fix.fromI32 192 0 0, by decide +kernel, by decide +kernel⟩
  exact absurd (missed.mpr within) (by decide +kernel)

end SpatialHashGrid

end Eidolon.Spatial
