import Eidolon.Spatial.Cell
import Mathlib.Logic.Function.Basic

/-!
# Hotspot quadtree

Cells with many entities are split into sixteen micro-quadrants.  The manager tracks
entities by itself, in so many cells at most.  The linked lists through the entities are
lists here, head first, and the pool of cells is the list of the active ones.
-/

namespace Eidolon.Spatial

open Core

def hotspotSplitThreshold : Nat := 250

def hotspotMergeThreshold : Nat := 100

def microQuadrantSize : Int := 16

structure QuadtreeAabb where
  minX : Fixed64
  maxX : Fixed64
  minZ : Fixed64
  maxZ : Fixed64
  deriving DecidableEq

namespace QuadtreeAabb

def gap (low high coordinate : Fixed64) : Fixed64 :=
  if coordinate < low then
    low.saturatingSub coordinate
  else if high < coordinate then
    coordinate.saturatingSub high
  else
    Fixed64.zero

def distanceSquaredToPoint (aabb : QuadtreeAabb) (cx cz : Fixed64) : Fixed64 :=
  let dx := gap aabb.minX aabb.maxX cx
  let dz := gap aabb.minZ aabb.maxZ cz
  (dx.saturatingMul dx).saturatingAdd (dz.saturatingMul dz)

def intersectsCircle (aabb : QuadtreeAabb) (cx cz radiusSq : Fixed64) : Bool :=
  decide (aabb.distanceSquaredToPoint cx cz ≤ radiusSq)

end QuadtreeAabb

/-- A cell that is tracked: its entities in one list, or in the lists of its sixteen
leaves once it is split. -/
structure HotspotCell where
  cell : CellCoord
  isSplit : Bool
  entityCount : Nat
  flat : List UInt32
  leaves : Fin 16 → List UInt32
  leafCounts : Fin 16 → Nat

namespace HotspotCell

variable (cell : CellCoord)

def new : HotspotCell where
  cell := cell
  isSplit := false
  entityCount := 0
  flat := []
  leaves := fun _ => []
  leafCounts := fun _ => 0

def squareAabb (offsetX offsetZ edge : Int32) : QuadtreeAabb where
  minX := Fixed64.fromI32 (cell.x * cellHorizontalSize + offsetX)
  maxX := Fixed64.fromI32 (cell.x * cellHorizontalSize + offsetX + edge)
  minZ := Fixed64.fromI32 (cell.z * cellHorizontalSize + offsetZ)
  maxZ := Fixed64.fromI32 (cell.z * cellHorizontalSize + offsetZ + edge)

def quadrantAabb (cell : CellCoord) : Fin 4 → QuadtreeAabb
  | 0 => squareAabb cell 0 32 32
  | 1 => squareAabb cell 32 32 32
  | 2 => squareAabb cell 0 0 32
  | 3 => squareAabb cell 32 0 32

def leafAabb (leaf : Fin 16) : QuadtreeAabb :=
  squareAabb cell (Int32.ofNat (leaf.val % 4 * 16)) (Int32.ofNat (leaf.val / 4 * 16)) 16

def clampedIndex (localCoordinate : Int32) : Nat :=
  min (localCoordinate.toInt.tdiv microQuadrantSize).toNat 3

theorem clampedIndex_lt (localCoordinate : Int32) : clampedIndex localCoordinate < 4 := by
  rw [clampedIndex]
  omega

def computeLeafIndex (pos : Vec3Fix) : Fin 16 :=
  let localX := pos.x.toI32 - cell.x * cellHorizontalSize
  let localZ := pos.z.toI32 - cell.z * cellHorizontalSize
  ⟨clampedIndex localZ * 4 + clampedIndex localX, by
    have boundX := clampedIndex_lt localX
    have boundZ := clampedIndex_lt localZ
    omega⟩

def quadrantToLeaves : Fin 4 → List (Fin 16)
  | 0 => [8, 9, 12, 13]
  | 1 => [10, 11, 14, 15]
  | 2 => [0, 1, 4, 5]
  | 3 => [2, 3, 6, 7]

def pushLeaf (hotspot : HotspotCell) (leaf : Fin 16) (entityId : UInt32) : HotspotCell :=
  { hotspot with
    leaves := Function.update hotspot.leaves leaf (entityId :: hotspot.leaves leaf)
    leafCounts := Function.update hotspot.leafCounts leaf (hotspot.leafCounts leaf + 1) }

def unlinkLeaf (hotspot : HotspotCell) (leaf : Fin 16) (entityId : UInt32) : HotspotCell :=
  { hotspot with
    leaves := Function.update hotspot.leaves leaf ((hotspot.leaves leaf).erase entityId)
    leafCounts := Function.update hotspot.leafCounts leaf (hotspot.leafCounts leaf - 1) }

end HotspotCell

/-- What the manager keeps of an entity: its position, the number of its cell (from 1 on)
and its leaf. -/
structure TrackedEntity where
  position : Vec3Fix
  hotspotId : Nat
  leafIdx : Fin 16
  deriving DecidableEq

structure HotspotManager where
  maxEntities : Nat
  maxHotspots : Nat
  hotspotCells : List HotspotCell
  entities : UInt32 → Option TrackedEntity

namespace HotspotManager

def leafOf (entities : UInt32 → Option TrackedEntity) (cell : CellCoord)
    (entityId : UInt32) : Fin 16 :=
  match entities entityId with
  | some entity => HotspotCell.computeLeafIndex cell entity.position
  | none => 0

def new (maxEntities maxHotspots : Nat) : HotspotManager where
  maxEntities := maxEntities
  maxHotspots := maxHotspots
  hotspotCells := []
  entities := fun _ => none

variable (manager : HotspotManager)

def findHotspot (cell : CellCoord) : Option Nat :=
  manager.hotspotCells.findIdx? fun hotspot => decide (hotspot.cell = cell)

def isSplit (manager : HotspotManager) (cell : CellCoord) : Bool :=
  match manager.findHotspot cell with
  | some hIdx => manager.hotspotCells[hIdx]?.any (·.isSplit)
  | none => false

variable (hIdx : Nat)

def modifyCell (change : HotspotCell → HotspotCell) :
    HotspotManager :=
  { manager with hotspotCells := manager.hotspotCells.modify hIdx change }

variable (entityId : UInt32)

def setEntity (entity : Option TrackedEntity) :
    HotspotManager :=
  { manager with entities := Function.update manager.entities entityId entity }

def cellAt : HotspotCell :=
  manager.hotspotCells.getD hIdx (HotspotCell.new ⟨0, 0, 0⟩)

def getOrCreateHotspot (cell : CellCoord) : Except SpatialError Nat × HotspotManager :=
  match manager.findHotspot cell with
  | some hIdx => (.ok hIdx, manager)
  | none =>
    if manager.maxHotspots ≤ manager.hotspotCells.length then
      (.error .capacityExceeded, manager)
    else
      (.ok manager.hotspotCells.length,
        { manager with hotspotCells := manager.hotspotCells ++ [HotspotCell.new cell] })

def splitCell : HotspotManager :=
  let hotspot := manager.cellAt hIdx
  let cleared := manager.modifyCell hIdx fun hotspot =>
    { hotspot with
      isSplit := true, flat := [], leaves := fun _ => [], leafCounts := fun _ => 0 }
  hotspot.flat.foldl (fun manager entityId =>
    match manager.entities entityId with
    | some entity =>
      let leafIdx := HotspotCell.computeLeafIndex hotspot.cell entity.position
      (manager.setEntity entityId (some { entity with leafIdx := leafIdx })).modifyCell hIdx
        (·.pushLeaf leafIdx entityId)
    | none => manager) cleared

def mergeCell : HotspotManager :=
  manager.modifyCell hIdx fun hotspot =>
    { hotspot with
      isSplit := false
      flat := ((List.finRange 16).flatMap hotspot.leaves).foldl (fun flat entityId =>
        entityId :: flat) []
      leaves := fun _ => []
      leafCounts := fun _ => 0 }

def members (hotspot : HotspotCell) : List UInt32 :=
  if hotspot.isSplit then (List.finRange 16).flatMap hotspot.leaves else hotspot.flat

def reclaimHotspot : HotspotManager :=
  match manager.hotspotCells.getLast? with
  | none => manager
  | some last =>
    let lastIdx := manager.hotspotCells.length - 1
    if hIdx ≠ lastIdx then
      let moved :=
        { manager with hotspotCells := (manager.hotspotCells.set hIdx last).dropLast }
      (members last).foldl (fun manager entityId =>
        match manager.entities entityId with
        | some entity => manager.setEntity entityId (some { entity with hotspotId := hIdx + 1 })
        | none => manager) moved
    else
      { manager with hotspotCells := manager.hotspotCells.dropLast }

def insert (manager : HotspotManager) (entityId : UInt32) (pos : Vec3Fix) :
    Except SpatialError Unit × HotspotManager :=
  if manager.maxEntities ≤ entityId.toNat then
    (.error (.invalidEntityId entityId), manager)
  else if (manager.entities entityId).isSome then
    (.error (.entityAlreadyExists entityId), manager)
  else
    let cell := CellCoord.fromPosition pos
    match manager.getOrCreateHotspot cell with
    | (.error error, manager) => (.error error, manager)
    | (.ok hIdx, manager) =>
      let leafIdx := HotspotCell.computeLeafIndex (manager.cellAt hIdx).cell pos
      let manager := manager.setEntity entityId
        (some { position := pos, hotspotId := hIdx + 1, leafIdx := leafIdx })
      let manager := manager.modifyCell hIdx fun hotspot =>
        if hotspot.isSplit then
          hotspot.pushLeaf leafIdx entityId
        else
          { hotspot with flat := entityId :: hotspot.flat }
      let manager := manager.modifyCell hIdx fun hotspot =>
        { hotspot with entityCount := hotspot.entityCount + 1 }
      let hotspot := manager.cellAt hIdx
      if !hotspot.isSplit && decide (hotspotSplitThreshold ≤ hotspot.entityCount) then
        (.ok (), manager.splitCell hIdx)
      else
        (.ok (), manager)

def remove : Except SpatialError Unit × HotspotManager :=
  match manager.entities entityId with
  | none => (.error (.entityNotFound entityId), manager)
  | some entity =>
    if manager.maxEntities ≤ entityId.toNat ∨ entity.hotspotId = 0 then
      (.error (.entityNotFound entityId), manager)
    else
      let hIdx := entity.hotspotId - 1
      let manager := manager.modifyCell hIdx fun hotspot =>
        if hotspot.isSplit then
          hotspot.unlinkLeaf entity.leafIdx entityId
        else
          { hotspot with flat := hotspot.flat.erase entityId }
      let manager := manager.modifyCell hIdx fun hotspot =>
        { hotspot with entityCount := hotspot.entityCount - 1 }
      let manager := manager.setEntity entityId none
      let hotspot := manager.cellAt hIdx
      let manager :=
        if hotspot.isSplit && decide (hotspot.entityCount ≤ hotspotMergeThreshold) then
          manager.mergeCell hIdx
        else
          manager
      if (manager.cellAt hIdx).entityCount = 0 then
        (.ok (), manager.reclaimHotspot hIdx)
      else
        (.ok (), manager)

def updatePosition (newPos : Vec3Fix) : Except SpatialError Unit × HotspotManager :=
  match manager.entities entityId with
  | none => (.error (.entityNotFound entityId), manager)
  | some entity =>
    if manager.maxEntities ≤ entityId.toNat then
      (.error (.entityNotFound entityId), manager)
    else if CellCoord.fromPosition entity.position ≠ CellCoord.fromPosition newPos then
      match manager.remove entityId with
      | (.error error, manager) => (.error error, manager)
      | (.ok (), manager) => manager.insert entityId newPos
    else
      let hIdx := entity.hotspotId - 1
      let hotspot := manager.cellAt hIdx
      let newLeaf := HotspotCell.computeLeafIndex hotspot.cell newPos
      if hotspot.isSplit && decide (entity.leafIdx ≠ newLeaf) then
        let manager := manager.setEntity entityId
          (some { entity with position := newPos, leafIdx := newLeaf })
        (.ok (), manager.modifyCell hIdx fun hotspot =>
          (hotspot.unlinkLeaf entity.leafIdx entityId).pushLeaf newLeaf entityId)
      else
        (.ok (), manager.setEntity entityId (some { entity with position := newPos }))

end HotspotManager

end Eidolon.Spatial
