import Eidolon.Core.Morton
import Eidolon.Core.Simd
import Eidolon.Spatial.Grid

/-!
# Radius queries of the grid

The cells around a point are visited one after the other, and matches are written to the
buffer of the caller.  The four queries differ in how many candidates they test at a time,
and in whether they use the leaves of split cells.
-/

namespace Eidolon.Spatial

open Core

structure SpatialQueryResult where
  written : Nat
  totalMatches : Nat
  deriving DecidableEq

structure QueryOutput where
  buffer : List UInt32
  matchedCount : Nat

namespace QueryOutput

def start (buffer : List UInt32) : QueryOutput where
  buffer := buffer
  matchedCount := 0

def emit (output : QueryOutput) (entityId : UInt32) : QueryOutput where
  buffer :=
    if output.matchedCount < output.buffer.length then
      output.buffer.set output.matchedCount entityId
    else
      output.buffer
  matchedCount := output.matchedCount + 1

def result (output : QueryOutput) : SpatialQueryResult where
  written := min output.matchedCount output.buffer.length
  totalMatches := output.matchedCount

end QueryOutput

def searchReach (radiusSq : Fixed64) : Int32 × Int32 :=
  if radiusSq ≤ Fixed64.fromI32 4096 then
    (1, if radiusSq ≤ Fixed64.fromI32 1024 then 1 else 2)
  else if radiusSq ≤ Fixed64.fromI32 16384 then
    (2, 4)
  else
    let r := radiusSq.sqrt
    (max (r.saturatingDiv (Fixed64.fromI32 cellHorizontalSize)).ceil.toI32 1,
      max (r.saturatingDiv (Fixed64.fromI32 cellVerticalSize)).ceil.toI32 1)

/-- The whole numbers from the negative of a bound to the bound. -/
def offsets (bound : Int32) : List Int32 :=
  (List.range (2 * bound.toInt + 1).toNat).map fun step : Nat =>
    Int32.ofInt (step - bound.toInt)

def neighborCells (center : Vec3Fix) (radiusSq : Fixed64) : List CellCoord :=
  let centerCell := CellCoord.fromPosition center
  let (maxDx, maxDy) := searchReach radiusSq
  (offsets maxDx).flatMap fun dx =>
    (offsets maxDx).flatMap fun dz =>
      (offsets maxDy).map fun dy =>
        { x := centerCell.x + dx, y := centerCell.y + dy, z := centerCell.z + dz }

namespace HotspotManager

def visit (manager : HotspotManager) (center : Vec3Fix) (radiusSq : Fixed64)
    (output : QueryOutput) (entityId : UInt32) : QueryOutput :=
  match manager.entities entityId with
  | some entity =>
    if entity.position.distanceSquared center ≤ radiusSq then output.emit entityId
    else output
  | none => output

/-- Visits one cell; quadrants and leaves away from the circle are skipped. -/
def queryCellHierarchical (manager : HotspotManager) (hIdx : Nat) (center : Vec3Fix)
    (radiusSq : Fixed64) (output : QueryOutput) : QueryOutput :=
  let hotspot := manager.cellAt hIdx
  if !hotspot.isSplit then
    hotspot.flat.foldl (manager.visit center radiusSq) output
  else
    (List.finRange 4).foldl (fun output quadrant =>
      if !(HotspotCell.quadrantAabb hotspot.cell quadrant).intersectsCircle center.x center.z
          radiusSq then
        output
      else
        (HotspotCell.quadrantToLeaves quadrant).foldl (fun output leaf =>
          if hotspot.leafCounts leaf = 0 then
            output
          else if !(HotspotCell.leafAabb hotspot.cell leaf).intersectsCircle center.x center.z
              radiusSq then
            output
          else
            (hotspot.leaves leaf).foldl (manager.visit center radiusSq) output) output) output

end HotspotManager

namespace SpatialHashGrid

variable (grid : SpatialHashGrid)

def splitHotspot (cell : CellCoord) : Option Nat :=
  if grid.hotspots.isSplit cell then grid.hotspots.findHotspot cell else none

def visit (key : UInt64) (center : Vec3Fix) (radiusSq : Fixed64) (output : QueryOutput)
    (entityId : UInt32) : QueryOutput :=
  match grid.entities entityId with
  | some entity =>
    if entity.key = key then
      if entity.position.distanceSquared center ≤ radiusSq then output.emit entityId
      else output
    else
      output
  | none => output

def scanBucket (cell : CellCoord) (center : Vec3Fix) (radiusSq : Fixed64) (output : QueryOutput) :
    QueryOutput :=
  (grid.buckets (grid.bucketOf cell.spatialKey)).foldl
    (grid.visit cell.spatialKey center radiusSq) output

def visitCell (center : Vec3Fix) (radiusSq : Fixed64) (output : QueryOutput) (cell : CellCoord) :
    QueryOutput :=
  match grid.splitHotspot cell with
  | some hIdx => grid.hotspots.queryCellHierarchical hIdx center radiusSq output
  | none => grid.scanBucket cell center radiusSq output

def queryRadiusSquared (center : Vec3Fix) (radiusSq : Fixed64) (outputBuffer : List UInt32) :
    SpatialQueryResult × List UInt32 :=
  let output := (neighborCells center radiusSq).foldl (grid.visitCell center radiusSq)
    (QueryOutput.start outputBuffer)
  (output.result, output.buffer)

end SpatialHashGrid

structure QueryBatch where
  candidates : List (UInt32 × Vec3Fix)
  output : QueryOutput

abbrev LaneTest (width : Nat) : Type :=
  (Fin width → Vec3Fix) → Fin width → Bool

namespace QueryBatch

/-- The positions of the candidates; the lanes behind the last one hold the center. -/
def lanes (batch : QueryBatch) (width : Nat) (center : Vec3Fix) : Fin width → Vec3Fix :=
  fun lane =>
    match batch.candidates[lane.val]? with
    | some candidate => candidate.2
    | none => center

def emitLane {width : Nat} (test : LaneTest width) (center : Vec3Fix) (batch : QueryBatch)
    (output : QueryOutput) (lane : Fin width) : QueryOutput :=
  match batch.candidates[lane.val]? with
  | some candidate =>
    if test (batch.lanes width center) lane then output.emit candidate.1 else output
  | none => output

def flush {width : Nat} (test : LaneTest width) (center : Vec3Fix) (batch : QueryBatch) :
    QueryBatch where
  candidates := []
  output := (List.finRange width).foldl (batch.emitLane test center) batch.output

def push {width : Nat} (test : LaneTest width) (center : Vec3Fix) (batch : QueryBatch)
    (candidate : UInt32 × Vec3Fix) : QueryBatch :=
  let longer : QueryBatch :=
    { batch with candidates := batch.candidates ++ [candidate] }
  if longer.candidates.length = width then longer.flush test center else longer

end QueryBatch

namespace SpatialHashGrid

variable (grid : SpatialHashGrid)

def collect {width : Nat} (test : LaneTest width) (key : UInt64) (center : Vec3Fix)
    (batch : QueryBatch) (entityId : UInt32) : QueryBatch :=
  match grid.entities entityId with
  | some entity =>
    if entity.key = key then
      batch.push test center (entityId, entity.position)
    else
      batch
  | none => batch

def scanBucketBatched {width : Nat} (test : LaneTest width) (center : Vec3Fix) (cell : CellCoord)
    (batch : QueryBatch) : QueryBatch :=
  (grid.buckets (grid.bucketOf cell.spatialKey)).foldl
    (grid.collect test cell.spatialKey center) batch

def visitCellBatched {width : Nat} (test : LaneTest width) (splitCells : CellCoord → Option Nat)
    (center : Vec3Fix) (radiusSq : Fixed64) (batch : QueryBatch) (cell : CellCoord) : QueryBatch :=
  match splitCells cell with
  | some hIdx =>
    { batch with
      output := grid.hotspots.queryCellHierarchical hIdx center radiusSq batch.output }
  | none => grid.scanBucketBatched test center cell batch

def queryBatched {width : Nat} (test : LaneTest width) (splitCells : CellCoord → Option Nat)
    (center : Vec3Fix) (radiusSq : Fixed64) (outputBuffer : List UInt32) :
    SpatialQueryResult × List UInt32 :=
  let batch := (neighborCells center radiusSq).foldl
    (grid.visitCellBatched test splitCells center radiusSq)
    (QueryBatch.mk [] (QueryOutput.start outputBuffer))
  -- What is left in the batch is tested last.
  let last := if 0 < batch.candidates.length then batch.flush test center else batch
  (last.output.result, last.output.buffer)

variable (center : Vec3Fix) (radiusSq : Fixed64) (outputBuffer : List UInt32)

def queryRadiusSquaredBatched : SpatialQueryResult × List UInt32 :=
  grid.queryBatched (fun lanes lane =>
      decide (Vec3Fix.batchDistanceSquared4x lanes center lane ≤ radiusSq))
    grid.splitHotspot center radiusSq outputBuffer

def maskTest (width : Nat) (center : Vec3Fix) (radiusSq : Fixed64) : LaneTest width :=
  fun lanes lane =>
    decide ((Vec3FixLanes.fromSlice lanes).filterWithinRadius center radiusSq &&&
      (BitVec.ofNat width 1 <<< lane.val) ≠ BitVec.ofNat width 0)

def queryRadiusSquaredBatched8x : SpatialQueryResult × List UInt32 :=
  grid.queryBatched (maskTest 8 center radiusSq) (fun _ => none) center radiusSq outputBuffer

def queryRadiusSquaredBatched16x : SpatialQueryResult × List UInt32 :=
  grid.queryBatched (maskTest 16 center radiusSq) (fun _ => none) center radiusSq outputBuffer

end SpatialHashGrid

end Eidolon.Spatial

/-!
## Radius queries filtered by Morton code

A query in batches of four that skips candidates whose code is not between those of two
corners.  The code of an entity is that of its position.
-/

namespace Eidolon.Spatial

open Core

def mortonRange (center : Vec3Fix) (radius : Fixed64) : Nat × Nat :=
  let minMorton := mortonEncodeVec3 ⟨center.x.saturatingSub radius, center.y.saturatingSub radius,
      center.z.saturatingSub radius⟩
  let maxMorton := mortonEncodeVec3 ⟨center.x.saturatingAdd radius, center.y.saturatingAdd radius,
      center.z.saturatingAdd radius⟩
  if minMorton ≤ maxMorton then (minMorton, maxMorton) else (maxMorton, minMorton)

def mortonNeighborCells (center : Vec3Fix) (radius : Fixed64) : List CellCoord :=
  let centerCell := CellCoord.fromPosition center
  let maxDx := max (radius.saturatingDiv (Fixed64.fromI32 cellHorizontalSize)).ceil.toI32 1
  let maxDy := max (radius.saturatingDiv (Fixed64.fromI32 cellVerticalSize)).ceil.toI32 1
  (offsets maxDx).flatMap fun dx =>
    (offsets maxDx).flatMap fun dz =>
      (offsets maxDy).map fun dy =>
        { x := centerCell.x + dx, y := centerCell.y + dy, z := centerCell.z + dz }

namespace SpatialHashGrid

/-- Collects one entity of a bucket if it has the key and its code is in the range. -/
def collectMorton (grid : SpatialHashGrid) (test : LaneTest 4) (range : Nat × Nat)
    (key : UInt64) (center : Vec3Fix) (batch : QueryBatch) (entityId : UInt32) : QueryBatch :=
  match grid.entities entityId with
  | none => batch
  | some entity =>
    let morton := mortonEncodeVec3 entity.position
    if entity.key = key ∧ range.1 ≤ morton ∧ morton ≤ range.2 then
      batch.push test center (entityId, entity.position)
    else
      batch

def queryRadiusMorton (grid : SpatialHashGrid) (center : Vec3Fix) (radiusSq : Fixed64)
    (outputBuffer : List UInt32) : SpatialQueryResult × List UInt32 :=
  let radius := radiusSq.sqrt
  let range := mortonRange center radius
  let test : LaneTest 4 := fun lanes lane =>
    decide (Vec3Fix.batchDistanceSquared4x lanes center lane ≤ radiusSq)
  let batch := (mortonNeighborCells center radius).foldl (fun batch cell =>
      (grid.buckets (grid.bucketOf cell.spatialKey)).foldl
        (grid.collectMorton test range cell.spatialKey center) batch)
    (QueryBatch.mk [] (QueryOutput.start outputBuffer))
  -- what is left in the batch is tested last
  let last := if 0 < batch.candidates.length then batch.flush test center else batch
  (last.output.result, last.output.buffer)

end SpatialHashGrid

end Eidolon.Spatial
