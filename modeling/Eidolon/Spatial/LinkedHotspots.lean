import Eidolon.Library.LinkedLists
import Eidolon.Spatial.Query

/-!
# The hotspot manager with its links

The manager as it keeps its data: the pool of cells, of which only the first ones are active,
the heads of their lists, and the links through the entities.  Loops along a list end where
the sentinel stands; they have no value when they take more steps than there are entities.
-/

namespace Eidolon.Spatial

open Core Library

def quadtreeEmpty : UInt32 := 4294967295

structure LinkedCell where
  cell : CellCoord
  isSplit : Bool
  entityCount : Nat
  flatHead : UInt32
  leafHeads : Fin 16 → UInt32
  leafCounts : Fin 16 → Nat

def LinkedCell.new (cell : CellCoord) : LinkedCell where
  cell := cell
  isSplit := false
  entityCount := 0
  flatHead := quadtreeEmpty
  leafHeads := fun _ => quadtreeEmpty
  leafCounts := fun _ => 0

def LinkedCell.heads (hotspot : LinkedCell) : List UInt32 :=
  if hotspot.isSplit then (List.finRange 16).map hotspot.leafHeads else [hotspot.flatHead]

/-- What the arrays hold for an active entity; the number of its cell has sixteen bits. -/
structure LinkedEntity where
  position : Vec3Fix
  hotspotId : UInt16
  leafIdx : Fin 16
  deriving DecidableEq

structure LinkedManager where
  maxEntities : Nat
  maxHotspots : Nat
  hotspotCells : Nat → LinkedCell
  activeHotspotsCount : Nat
  links : Links UInt32
  entities : UInt32 → Option LinkedEntity

namespace LinkedManager

def new (maxEntities maxHotspots : Nat) : LinkedManager where
  maxEntities := maxEntities
  maxHotspots := maxHotspots
  hotspotCells := fun _ => LinkedCell.new ⟨0, 0, 0⟩
  activeHotspotsCount := 0
  links := { next := fun _ => quadtreeEmpty, prev := fun _ => quadtreeEmpty }
  entities := fun _ => none

variable (manager : LinkedManager)

def positionOf (entityId : UInt32) : Option Vec3Fix :=
  (manager.entities entityId).map (·.position)

def findHotspot (cell : CellCoord) : Option Nat :=
  (List.range manager.activeHotspotsCount).find? fun hIdx =>
    decide ((manager.hotspotCells hIdx).cell = cell)

def isSplit (manager : LinkedManager) (cell : CellCoord) : Bool :=
  match manager.findHotspot cell with
  | some hIdx => (manager.hotspotCells hIdx).isSplit
  | none => false

variable (hIdx : Nat)

def modifyCell (change : LinkedCell → LinkedCell) :
    LinkedManager :=
  { manager with
    hotspotCells := Function.update manager.hotspotCells hIdx (change (manager.hotspotCells hIdx)) }

variable (entityId : UInt32)

def setEntity (entity : Option LinkedEntity) :
    LinkedManager :=
  { manager with entities := Function.update manager.entities entityId entity }

/-- Goes along a list; no list has more elements than there are entities. -/
def forEachFrom {State : Type} (links : State → Links UInt32) (body : State → UInt32 → State)
    (head : UInt32) (state : State) : Option State :=
  Links.forEach (fun state => (links state).next) quadtreeEmpty body (manager.maxEntities + 1)
    head state

def pushLeaf (leaf : Fin 16) (entityId : UInt32) :
    LinkedManager :=
  { manager.modifyCell hIdx fun hotspot =>
      { hotspot with
        leafHeads := Function.update hotspot.leafHeads leaf entityId
        leafCounts := Function.update hotspot.leafCounts leaf (hotspot.leafCounts leaf + 1) }
    with
    links := manager.links.prepend quadtreeEmpty
      ((manager.hotspotCells hIdx).leafHeads leaf) entityId }

def pushFlat : LinkedManager :=
  { manager.modifyCell hIdx fun hotspot => { hotspot with flatHead := entityId } with
    links := manager.links.prepend quadtreeEmpty (manager.hotspotCells hIdx).flatHead entityId }

def unlinkLeaf (leaf : Fin 16) (entityId : UInt32) :
    LinkedManager :=
  { manager.modifyCell hIdx fun hotspot =>
      { hotspot with
        leafHeads := Function.update hotspot.leafHeads leaf
          (manager.links.headWithout quadtreeEmpty (hotspot.leafHeads leaf) entityId)
        leafCounts := Function.update hotspot.leafCounts leaf (hotspot.leafCounts leaf - 1) }
    with
    links := manager.links.unlink quadtreeEmpty entityId }

def unlinkFlat : LinkedManager :=
  { manager.modifyCell hIdx fun hotspot =>
      { hotspot with
        flatHead := manager.links.headWithout quadtreeEmpty hotspot.flatHead entityId } with
    links := manager.links.unlink quadtreeEmpty entityId }

def getOrCreateHotspot (cell : CellCoord) : Except SpatialError Nat × LinkedManager :=
  match manager.findHotspot cell with
  | some hIdx => (.ok hIdx, manager)
  | none =>
    if manager.maxHotspots ≤ manager.activeHotspotsCount then
      (.error .capacityExceeded, manager)
    else
      let newIdx := manager.activeHotspotsCount
      (.ok newIdx,
        { manager with
          hotspotCells := Function.update manager.hotspotCells newIdx (LinkedCell.new cell)
          activeHotspotsCount := newIdx + 1 })

def regroup (manager : LinkedManager) (entityId : UInt32) : LinkedManager :=
  match manager.entities entityId with
  | some entity =>
    let leafIdx := HotspotCell.computeLeafIndex (manager.hotspotCells hIdx).cell entity.position
    (manager.setEntity entityId (some { entity with leafIdx := leafIdx })).pushLeaf hIdx
      leafIdx entityId
  | none => manager

def splitCell : Option LinkedManager :=
  let head := (manager.hotspotCells hIdx).flatHead
  let cleared := manager.modifyCell hIdx fun hotspot =>
    { hotspot with
      isSplit := true
      flatHead := quadtreeEmpty
      leafHeads := fun _ => quadtreeEmpty
      leafCounts := fun _ => 0 }
  manager.forEachFrom links (regroup hIdx) head cleared

def collect (state : LinkedManager × UInt32) (entityId : UInt32) : LinkedManager × UInt32 :=
  ({ state.1 with links := state.1.links.prepend quadtreeEmpty state.2 entityId }, entityId)

def collectLeaf (state : LinkedManager × UInt32) (leaf : Fin 16) :
    Option (LinkedManager × UInt32) :=
  let head := (state.1.hotspotCells hIdx).leafHeads leaf
  let cleared := state.1.modifyCell hIdx fun hotspot =>
    { hotspot with
      leafHeads := Function.update hotspot.leafHeads leaf quadtreeEmpty
      leafCounts := Function.update hotspot.leafCounts leaf 0 }
  state.1.forEachFrom (fun state => state.1.links) collect head (cleared, state.2)

def mergeCell : Option LinkedManager :=
  let flattened := manager.modifyCell hIdx fun hotspot => { hotspot with isSplit := false }
  ((List.finRange 16).foldlM (collectLeaf hIdx) (flattened, quadtreeEmpty)).map fun state =>
    state.1.modifyCell hIdx fun hotspot => { hotspot with flatHead := state.2 }

def renumber (hIdx : Nat) (manager : LinkedManager) (entityId : UInt32) : LinkedManager :=
  match manager.entities entityId with
  | some entity =>
    manager.setEntity entityId (some { entity with hotspotId := UInt16.ofNat (hIdx + 1) })
  | none => manager

def reclaimHotspot : Option LinkedManager :=
  if manager.activeHotspotsCount = 0 then
    some manager
  else
    let lastIdx := manager.activeHotspotsCount - 1
    let fewer : LinkedManager → LinkedManager := fun manager =>
      { manager with activeHotspotsCount := lastIdx }
    if hIdx ≠ lastIdx then
      let last := manager.hotspotCells lastIdx
      let swapped := { manager with
        hotspotCells := Function.update
          (Function.update manager.hotspotCells lastIdx (manager.hotspotCells hIdx)) hIdx last }
      (last.heads.foldlM (fun (manager : LinkedManager) head =>
        manager.forEachFrom links (renumber hIdx) head manager) swapped).map fewer
    else
      some (fewer manager)

def insert (manager : LinkedManager) (entityId : UInt32) (pos : Vec3Fix) :
    Option (Except SpatialError Unit × LinkedManager) :=
  if manager.maxEntities ≤ entityId.toNat then
    some (.error (.invalidEntityId entityId), manager)
  else if (manager.entities entityId).isSome then
    some (.error (.entityAlreadyExists entityId), manager)
  else
    match manager.getOrCreateHotspot (CellCoord.fromPosition pos) with
    | (.error error, manager) => some (.error error, manager)
    | (.ok hIdx, manager) =>
      let leafIdx := HotspotCell.computeLeafIndex (manager.hotspotCells hIdx).cell pos
      let active := manager.setEntity entityId (some
        { position := pos, hotspotId := UInt16.ofNat (hIdx + 1), leafIdx := leafIdx })
      let pushed :=
        if (manager.hotspotCells hIdx).isSplit then active.pushLeaf hIdx leafIdx entityId
        else active.pushFlat hIdx entityId
      let counted := pushed.modifyCell hIdx fun hotspot =>
        { hotspot with entityCount := hotspot.entityCount + 1 }
      let hotspot := counted.hotspotCells hIdx
      (if !hotspot.isSplit && decide (hotspotSplitThreshold ≤ hotspot.entityCount) then
        counted.splitCell hIdx
      else
        some counted).map fun manager => (.ok (), manager)

def remove : Option (Except SpatialError Unit × LinkedManager) :=
  match manager.entities entityId with
  | none => some (.error (.entityNotFound entityId), manager)
  | some entity =>
    if manager.maxEntities ≤ entityId.toNat ∨ entity.hotspotId = 0 then
      some (.error (.entityNotFound entityId), manager)
    else
      let hIdx := (entity.hotspotId - 1).toNat
      let unlinked :=
        if (manager.hotspotCells hIdx).isSplit then
          manager.unlinkLeaf hIdx entity.leafIdx entityId
        else
          manager.unlinkFlat hIdx entityId
      let counted := unlinked.modifyCell hIdx fun hotspot =>
        { hotspot with entityCount := hotspot.entityCount - 1 }
      let inactive :=
        { counted.setEntity entityId none with
          links := counted.links.reset quadtreeEmpty entityId }
      let hotspot := inactive.hotspotCells hIdx
      let merged :=
        if hotspot.isSplit && decide (hotspot.entityCount ≤ hotspotMergeThreshold) then
          inactive.mergeCell hIdx
        else
          some inactive
      merged.bind fun manager =>
        (if (manager.hotspotCells hIdx).entityCount = 0 then manager.reclaimHotspot hIdx
        else some manager).map fun manager => (.ok (), manager)

def updatePosition (newPos : Vec3Fix) : Option (Except SpatialError Unit × LinkedManager) :=
  match manager.entities entityId with
  | none => some (.error (.entityNotFound entityId), manager)
  | some entity =>
    if manager.maxEntities ≤ entityId.toNat then
      some (.error (.entityNotFound entityId), manager)
    else if CellCoord.fromPosition entity.position ≠ CellCoord.fromPosition newPos then
      (manager.remove entityId).bind fun removed =>
        match removed with
        | (.error error, manager) => some (.error error, manager)
        | (.ok (), manager) => manager.insert entityId newPos
    else
      let moved := manager.setEntity entityId (some { entity with position := newPos })
      let hIdx := (entity.hotspotId - 1).toNat
      let hotspot := moved.hotspotCells hIdx
      let newLeaf := HotspotCell.computeLeafIndex hotspot.cell newPos
      if hotspot.isSplit && decide (entity.leafIdx ≠ newLeaf) then
        let relinked :=
          (moved.unlinkLeaf hIdx entity.leafIdx entityId).pushLeaf hIdx newLeaf entityId
        some (.ok (), relinked.setEntity entityId
          (some { entity with position := newPos, leafIdx := newLeaf }))
      else
        some (.ok (), moved)

variable (center : Vec3Fix) (radiusSq : Fixed64)

def visit (output : QueryOutput) (entityId : UInt32) :
    QueryOutput :=
  match manager.entities entityId with
  | some entity =>
    if entity.position.distanceSquared center ≤ radiusSq then output.emit entityId
    else output
  | none => output

def visitFrom (head : UInt32) (output : QueryOutput) : Option QueryOutput :=
  manager.forEachFrom (fun _ => manager.links) (manager.visit center radiusSq) head output

def queryLeaf (hotspot : LinkedCell) (center : Vec3Fix) (radiusSq : Fixed64)
    (output : QueryOutput) (leaf : Fin 16) : Option QueryOutput :=
  if hotspot.leafCounts leaf = 0 then
    some output
  else if !(HotspotCell.leafAabb hotspot.cell leaf).intersectsCircle center.x center.z radiusSq then
    some output
  else
    manager.visitFrom center radiusSq (hotspot.leafHeads leaf) output

def queryQuadrant (hotspot : LinkedCell) (center : Vec3Fix) (radiusSq : Fixed64)
    (output : QueryOutput) (quadrant : Fin 4) : Option QueryOutput :=
  if !(HotspotCell.quadrantAabb hotspot.cell quadrant).intersectsCircle center.x center.z
      radiusSq then
    some output
  else
    (HotspotCell.quadrantToLeaves quadrant).foldlM (manager.queryLeaf hotspot center radiusSq)
      output

def queryCellHierarchical (output : QueryOutput) (hIdx : Nat) : Option QueryOutput :=
  let hotspot := manager.hotspotCells hIdx
  if !hotspot.isSplit then
    manager.visitFrom center radiusSq hotspot.flatHead output
  else
    (List.finRange 4).foldlM (manager.queryQuadrant hotspot center radiusSq) output

def queryRadius (outputBuffer : List UInt32) : Option (SpatialQueryResult × List UInt32) :=
  ((List.range manager.activeHotspotsCount).foldlM
    (manager.queryCellHierarchical center radiusSq) (QueryOutput.start outputBuffer)).map
      fun output => (output.result, output.buffer)

end LinkedManager

end Eidolon.Spatial
