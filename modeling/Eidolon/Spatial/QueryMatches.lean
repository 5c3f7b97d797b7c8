import Eidolon.Spatial.HotspotSound
import Eidolon.Spatial.Query

/-!
# The matches of a query

What a query writes is a list of matches, cell by cell.  The queries in batches find the
same matches in another order.
-/

namespace Eidolon.Spatial

open Core List

namespace QueryOutput

variable (output : QueryOutput)

def emitAll (entityIds : List UInt32) : QueryOutput :=
  entityIds.foldl emit output

theorem emitAll_append (first second : List UInt32) :
    output.emitAll (first ++ second) = (output.emitAll first).emitAll second :=
  foldl_append

theorem foldl_emitAll {Step : Type} (matchesOf : Step → List UInt32) (steps : List Step)
    (output : QueryOutput) :
    steps.foldl (fun output step => output.emitAll (matchesOf step)) output =
      output.emitAll (steps.flatMap matchesOf) := by
  induction steps generalizing output with
  | nil => rfl
  | cons step steps ih => rw [foldl_cons, ih, flatMap_cons, emitAll_append]

theorem foldl_emit_filter (isMatch : UInt32 → Bool) (entityIds : List UInt32)
    (output : QueryOutput) :
    entityIds.foldl (fun output entityId =>
      if isMatch entityId then output.emit entityId else output) output =
        output.emitAll (entityIds.filter isMatch) := by
  rw [emitAll, foldl_filter]

theorem emitAll_counts (entityIds : List UInt32) :
    (output.emitAll entityIds).matchedCount = output.matchedCount + entityIds.length ∧
      (output.emitAll entityIds).buffer.length = output.buffer.length := by
  induction entityIds generalizing output with
  | nil => exact ⟨rfl, rfl⟩
  | cons entityId entityIds ih =>
    obtain ⟨counted, sameLength⟩ := ih (output.emit entityId)
    refine ⟨?_, ?_⟩
    · change ((output.emit entityId).emitAll entityIds).matchedCount = _
      rw [counted, emit, length_cons]
      simp only
      omega
    change ((output.emit entityId).emitAll entityIds).buffer.length = _
    rw [sameLength, emit]
    split
    · exact length_set
    rfl

theorem take_emitAll {output : QueryOutput} {entityIds : List UInt32}
    (room : output.matchedCount + entityIds.length ≤ output.buffer.length) :
    (output.emitAll entityIds).buffer.take (output.matchedCount + entityIds.length) =
      output.buffer.take output.matchedCount ++ entityIds := by
  induction entityIds generalizing output with
  | nil =>
    rw [append_nil]
    rfl
  | cons entityId entityIds ih =>
    rw [length_cons] at room ⊢
    have inside : output.matchedCount < output.buffer.length := by
      omega
    have written : (output.emit entityId).buffer =
        output.buffer.set output.matchedCount entityId := by
      rw [emit]
      rw [if_pos inside]
    have later : (output.emit entityId).matchedCount + entityIds.length ≤
        (output.emit entityId).buffer.length := by
      rw [written, length_set, emit]
      simp only
      omega
    have taken := ih later
    rw [written] at taken
    change ((output.emit entityId).emitAll entityIds).buffer.take _ = _
    have total : output.matchedCount + (entityIds.length + 1) =
        (output.emit entityId).matchedCount + entityIds.length := by
      rw [emit]
      simp only
      omega
    rw [total, taken, emit]
    rw [take_add_one, take_set_of_le (Nat.le_refl _), List.getElem?_set_self inside]
    simp

theorem emitAll_start {buffer entityIds : List UInt32} (room : entityIds.length ≤ buffer.length) :
    ((start buffer).emitAll entityIds).buffer.take entityIds.length = entityIds := by
  have taken := @take_emitAll (start buffer) entityIds (by rw [start]; simp only; omega)
  rw [start] at taken
  simp only [Nat.zero_add, take_zero, nil_append] at taken
  exact taken

end QueryOutput

namespace HotspotManager

variable (manager : HotspotManager) (center : Vec3Fix) (radiusSq : Fixed64)

def isWithin (entityId : UInt32) : Bool :=
  (manager.positionOf entityId).any fun position =>
    decide (position.distanceSquared center ≤ radiusSq)

theorem visit_eq (output : QueryOutput) (entityId : UInt32) :
    manager.visit center radiusSq output entityId =
      if manager.isWithin center radiusSq entityId then output.emit entityId else output := by
  rw [visit, isWithin, positionOf]
  cases manager.entities entityId with
  | none => rfl
  | some entity => simp

theorem foldl_visit (entityIds : List UInt32) (output : QueryOutput) :
    entityIds.foldl (manager.visit center radiusSq) output =
      output.emitAll (entityIds.filter (manager.isWithin center radiusSq)) := by
  rw [← QueryOutput.foldl_emit_filter]
  congr 1
  funext output entityId
  exact manager.visit_eq center radiusSq output entityId

def leafMatches (hotspot : HotspotCell) (center : Vec3Fix) (radiusSq : Fixed64) (leaf : Fin 16) :
    List UInt32 :=
  if hotspot.leafCounts leaf = 0 then
    []
  else if !(HotspotCell.leafAabb hotspot.cell leaf).intersectsCircle center.x center.z radiusSq then
    []
  else
    (hotspot.leaves leaf).filter (manager.isWithin center radiusSq)

def quadrantMatches (hotspot : HotspotCell) (center : Vec3Fix) (radiusSq : Fixed64)
    (quadrant : Fin 4) : List UInt32 :=
  if !(HotspotCell.quadrantAabb hotspot.cell quadrant).intersectsCircle center.x center.z
      radiusSq then
    []
  else
    (HotspotCell.quadrantToLeaves quadrant).flatMap (manager.leafMatches hotspot center radiusSq)

def hotspotMatches (hIdx : Nat) (center : Vec3Fix) (radiusSq : Fixed64) : List UInt32 :=
  if !(manager.cellAt hIdx).isSplit then
    (manager.cellAt hIdx).flat.filter (manager.isWithin center radiusSq)
  else
    (List.finRange 4).flatMap (manager.quadrantMatches (manager.cellAt hIdx) center radiusSq)

theorem queryCellHierarchical_eq (hIdx : Nat) (center : Vec3Fix) (radiusSq : Fixed64)
    (output : QueryOutput) :
    manager.queryCellHierarchical hIdx center radiusSq output =
      output.emitAll (manager.hotspotMatches hIdx center radiusSq) := by
  have leaves : ∀ (hotspot : HotspotCell) (output : QueryOutput) (leaf : Fin 16),
      (if hotspot.leafCounts leaf = 0 then output
        else if !(HotspotCell.leafAabb hotspot.cell leaf).intersectsCircle center.x center.z
            radiusSq then output
        else (hotspot.leaves leaf).foldl (manager.visit center radiusSq) output) =
        output.emitAll (manager.leafMatches hotspot center radiusSq leaf) := by
    intro hotspot output leaf
    rw [leafMatches]
    split
    · rfl
    split
    · rfl
    exact manager.foldl_visit center radiusSq _ output
  have quadrants : ∀ (hotspot : HotspotCell) (output : QueryOutput) (quadrant : Fin 4),
      (if !(HotspotCell.quadrantAabb hotspot.cell quadrant).intersectsCircle center.x center.z
          radiusSq then output
        else (HotspotCell.quadrantToLeaves quadrant).foldl (fun output leaf =>
          output.emitAll (manager.leafMatches hotspot center radiusSq leaf)) output) =
        output.emitAll (manager.quadrantMatches hotspot center radiusSq quadrant) := by
    intro hotspot output quadrant
    rw [quadrantMatches]
    split
    · rfl
    exact QueryOutput.foldl_emitAll _ _ output
  rw [queryCellHierarchical, hotspotMatches]
  simp only [leaves, quadrants]
  split
  · exact manager.foldl_visit center radiusSq _ output
  exact QueryOutput.foldl_emitAll _ _ output

end HotspotManager

namespace SpatialHashGrid

variable (grid : SpatialHashGrid)

def isMatch (key : UInt64) (center : Vec3Fix) (radiusSq : Fixed64) (entityId : UInt32) : Bool :=
  (grid.entities entityId).any fun entity =>
    decide (entity.key = key) && decide (entity.position.distanceSquared center ≤ radiusSq)

def bucketMatches (center : Vec3Fix) (radiusSq : Fixed64) (cell : CellCoord) : List UInt32 :=
  (grid.buckets (grid.bucketOf cell.spatialKey)).filter
    (grid.isMatch cell.spatialKey center radiusSq)

theorem scanBucket_eq (cell : CellCoord) (center : Vec3Fix) (radiusSq : Fixed64)
    (output : QueryOutput) :
    grid.scanBucket cell center radiusSq output =
      output.emitAll (grid.bucketMatches center radiusSq cell) := by
  rw [scanBucket, bucketMatches, ← QueryOutput.foldl_emit_filter]
  congr 1
  funext output entityId
  rw [visit, isMatch]
  rcases grid.entities entityId with _ | entity
  · rfl
  by_cases sameKey : entity.key = cell.spatialKey
  · simp [sameKey]
  simp [sameKey]

variable (splitCells : CellCoord → Option Nat) (center : Vec3Fix) (radiusSq : Fixed64)

def cellMatches (cell : CellCoord) : List UInt32 :=
  match splitCells cell with
  | some hIdx => grid.hotspots.hotspotMatches hIdx center radiusSq
  | none => grid.bucketMatches center radiusSq cell

def matchesOf : List UInt32 :=
  (neighborCells center radiusSq).flatMap (grid.cellMatches splitCells center radiusSq)

/-- A query finds these matches, in some order. -/
def Finds (query : List UInt32 → SpatialQueryResult × List UInt32)
    (entityIds : List UInt32) : Prop :=
  ∀ outputBuffer, ∃ found, found.Perm entityIds ∧ query outputBuffer =
      (((QueryOutput.start outputBuffer).emitAll found).result,
        ((QueryOutput.start outputBuffer).emitAll found).buffer)

theorem visitCell_eq (output : QueryOutput) (cell : CellCoord) :
    grid.visitCell center radiusSq output cell =
      output.emitAll (grid.cellMatches grid.splitHotspot center radiusSq cell) := by
  rw [visitCell, cellMatches]
  cases grid.splitHotspot cell with
  | none => exact grid.scanBucket_eq cell center radiusSq output
  | some hIdx => exact grid.hotspots.queryCellHierarchical_eq hIdx center radiusSq output

theorem finds_queryRadiusSquared : Finds (grid.queryRadiusSquared center radiusSq)
      (grid.matchesOf grid.splitHotspot center radiusSq) := by
  intro outputBuffer
  refine ⟨_, List.Perm.refl _, ?_⟩
  have visits : grid.visitCell center radiusSq = fun output cell =>
      output.emitAll (grid.cellMatches grid.splitHotspot center radiusSq cell) := by
    funext output cell
    exact grid.visitCell_eq center radiusSq output cell
  rw [queryRadiusSquared, visits, QueryOutput.foldl_emitAll]
  rfl

end SpatialHashGrid

end Eidolon.Spatial
