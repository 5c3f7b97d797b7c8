import Mathlib.Data.Finmap
import Eidolon.Spatial.CompoundStructure

/-!
# Player structures

Structures of pieces, each of which stands on another one. When a piece is destroyed, the
stability of the others is computed again from the ground, and those without any collapse.
The tables are finite maps, and a walk over the pieces is given the order of their keys.
-/

namespace Eidolon.World

open Core Library Spatial

def maxStability : UInt8 := 100

inductive MaterialType where
  | wood
  | stone
  | metal
  | reinforced
  deriving DecidableEq

namespace MaterialType

def asU8 : MaterialType → UInt8
  | .wood => 0
  | .stone => 1
  | .metal => 2
  | .reinforced => 3

def fromU8 (val : UInt8) : Option MaterialType :=
  let nibble := val &&& 0x0F
  if nibble = 0 then some .wood
  else if nibble = 1 then some .stone
  else if nibble = 2 then some .metal
  else if nibble = 3 then some .reinforced
  else none

def maxHealth : MaterialType → UInt32
  | .wood => 250
  | .stone => 500
  | .metal => 1000
  | .reinforced => 2000

def stabilityDecay : MaterialType → UInt8
  | .wood => 15
  | .stone => 8
  | .metal => 4
  | .reinforced => 2

end MaterialType

inductive SnapSocket where
  | center
  | north
  | south
  | east
  | west
  | top
  | bottom
  | diagonal45
  deriving DecidableEq

namespace SnapSocket

def asU8 : SnapSocket → UInt8
  | .center => 0
  | .north => 1
  | .south => 2
  | .east => 3
  | .west => 4
  | .top => 5
  | .bottom => 6
  | .diagonal45 => 7

def localOffset : SnapSocket → Vec3Fix
  | .center => vecFromRaw 0 0 0
  | .north => vecFromRaw 0 0 17179869184
  | .south => vecFromRaw 0 0 (-17179869184)
  | .east => vecFromRaw 17179869184 0 0
  | .west => vecFromRaw (-17179869184) 0 0
  | .top => vecFromRaw 0 12884901888 0
  | .bottom => vecFromRaw 0 (-12884901888) 0
  | .diagonal45 => vecFromRaw 12148001999 0 12148001999

end SnapSocket

structure StructurePieceData where
  pieceTypeByte : UInt8
  materialAndFlags : UInt8
  snappedSocket : UInt8
  deriving DecidableEq

namespace StructurePieceData

def new (pieceType : PieceType) (material : MaterialType) (socket : SnapSocket)
    (variantFlags : UInt8) : StructurePieceData :=
  let matNibble := material.asU8 &&& 0x0F
  let flagsNibble := (variantFlags &&& 0x0F) <<< 4
  { pieceTypeByte := pieceType.asU8
    materialAndFlags := matNibble ||| flagsNibble
    snappedSocket := socket.asU8 }

def pieceType (data : StructurePieceData) : Option PieceType :=
  PieceType.fromU8 data.pieceTypeByte

def material (data : StructurePieceData) : Option MaterialType :=
  MaterialType.fromU8 (data.materialAndFlags &&& 0x0F)

end StructurePieceData

def calculateStability (isGrounded : Bool) (parentStability : UInt8) (material : MaterialType) :
    UInt8 :=
  if isGrounded then maxStability
  else saturatingSub8 parentStability material.stabilityDecay

structure StructurePiece where
  pieceId : UInt32
  parentPieceId : UInt32
  pieceData : StructurePieceData
  worldPosition : Vec3Fix
  worldYaw : QuantizedYaw
  stability : UInt8
  health : UInt32
  maxHealth : UInt32
  deriving DecidableEq

abbrev PieceMap := Finmap fun _ : UInt32 => StructurePiece

structure StructureInstance where
  id : UInt32
  ownerAccountId : UInt64
  isPrefab : Bool
  prefabTypeId : UInt32
  worldPosition : Vec3Fix
  worldYaw : QuantizedYaw
  pieces : PieceMap
  compound : CompoundStructure
  interiorCellId : Option UInt32
  health : UInt32
  maxHealth : UInt32
  lastMaintenanceTick : UInt64

structure StructureManager where
  structures : Finmap fun _ : UInt32 => StructureInstance
  nextStructureId : UInt32
  nextPieceId : UInt32

abbrev StabilityMap := UInt32 → Option UInt8

def groundPiece (pieces : PieceMap) (found : List UInt32 × StabilityMap) (pid : UInt32) :
    List UInt32 × StabilityMap :=
  match pieces.lookup pid with
  | none => found
  | some piece =>
    if piece.parentPieceId = 0 ∧ piece.pieceData.pieceType = some .foundation then
      (found.1 ++ [pid], Function.update found.2 pid (some maxStability))
    else found

def visitChild (pieces : PieceMap) (parentId : UInt32) (parentStab : UInt8)
    (found : List UInt32 × StabilityMap) (childId : UInt32) : List UInt32 × StabilityMap :=
  match pieces.lookup childId with
  | none => found
  | some childPiece =>
    if childPiece.parentPieceId = parentId then
      let mat := childPiece.pieceData.material.getD .wood
      let childStab := calculateStability false parentStab mat
      let existing := (found.2 childId).getD 0
      if 0 < childStab ∧ existing < childStab then
        (found.1 ++ [childId], Function.update found.2 childId (some childStab))
      else found
    else found

/-- Propagates stability from the queue while it is not empty; `none` when that takes more
than the given number of pieces. -/
def propagate (pieces : PieceMap) (order : List UInt32) :
    Nat → List UInt32 → StabilityMap → Option StabilityMap
  | _, [], stability => some stability
  | 0, _ :: _, _ => none
  | fuel + 1, parentId :: queue, stability =>
    let parentStab := (stability parentId).getD 0
    let found := order.foldl (visitChild pieces parentId parentStab) (queue, stability)
    propagate pieces order fuel found.1 found.2

namespace StructureManager

def new : StructureManager where
  structures := ∅
  nextStructureId := 1
  nextPieceId := 1

variable (manager : StructureManager) (ownerAccountId : UInt64)

def newInstance (isPrefab : Bool) (prefabTypeId : UInt32) (position : Vec3Fix)
    (yaw : QuantizedYaw) (material : MaterialType) (interiorCellId : Option UInt32)
    (health : UInt32) : StructureInstance where
  id := manager.nextStructureId
  ownerAccountId := ownerAccountId
  isPrefab := isPrefab
  prefabTypeId := prefabTypeId
  worldPosition := position
  worldYaw := yaw
  pieces := Finmap.singleton manager.nextPieceId
    { pieceId := manager.nextPieceId
      parentPieceId := 0
      pieceData := .new .foundation material .center 0
      worldPosition := position
      worldYaw := yaw
      stability := maxStability
      health := health
      maxHealth := health }
  compound :=
    (CompoundStructure.new manager.nextStructureId).addPiece manager.nextPieceId .foundation
      position
  interiorCellId := interiorCellId
  health := health
  maxHealth := health
  lastMaintenanceTick := 0

def addInstance (instance_ : StructureInstance) : StructureManager where
  structures := manager.structures.insert manager.nextStructureId instance_
  nextStructureId := manager.nextStructureId + 1
  nextPieceId := manager.nextPieceId + 1

def createPrefab (prefabTypeId : UInt32) (position : Vec3Fix) (yaw : QuantizedYaw)
    (interiorCellId : Option UInt32) :
    UInt32 × StructureManager :=
  (manager.nextStructureId,
    manager.addInstance (manager.newInstance ownerAccountId true prefabTypeId position yaw .stone
      interiorCellId 5000))

def placeFoundation (position : Vec3Fix) (yaw : QuantizedYaw) (material : MaterialType) :
    (UInt32 × UInt32) × StructureManager :=
  ((manager.nextStructureId, manager.nextPieceId),
    manager.addInstance (manager.newInstance ownerAccountId false 0 position yaw material none
      material.maxHealth))

def placePiece (structureId parentPieceId : UInt32) (pieceType : PieceType)
    (material : MaterialType) (socket : SnapSocket) (variantFlags : UInt8) :
    Except WorldError UInt32 × StructureManager :=
  match manager.structures.lookup structureId with
  | none => (.error (.structureNotFound structureId), manager)
  | some structure_ =>
    match structure_.pieces.lookup parentPieceId with
    | none => (.error (.pieceNotFound parentPieceId), manager)
    | some parent =>
      let childStability :=
        calculateStability pieceType.isFoundation parent.stability material
      if childStability = 0 then
        (.error .structurallyUnsound, manager)
      else
        let childPos := parent.worldPosition.add socket.localOffset
        let pieceId := manager.nextPieceId
        let childPiece : StructurePiece :=
          { pieceId := pieceId
            parentPieceId := parentPieceId
            pieceData := .new pieceType material socket variantFlags
            worldPosition := childPos
            worldYaw := parent.worldYaw
            stability := childStability
            health := material.maxHealth
            maxHealth := material.maxHealth }
        (.ok pieceId,
          { manager with
            structures := manager.structures.insert structureId
              { structure_ with
                compound := structure_.compound.addPiece pieceId pieceType childPos
                pieces := structure_.pieces.insert pieceId childPiece }
            nextPieceId := manager.nextPieceId + 1 })

def collapse (structure_ : StructureInstance) (cid : UInt32) : StructureInstance :=
  { structure_ with
    pieces := structure_.pieces.erase cid
    compound := (structure_.compound.removePiece cid).2 }

/-- Destroys a piece, and the pieces that are left without stability; returns the identifiers
of all of them. The order is that of the keys after the piece was removed. -/
def destroyPiece (fuel : Nat) (structureId targetPieceId : UInt32) (order : List UInt32) :
    Option (Except WorldError (List UInt32) × StructureManager) :=
  match manager.structures.lookup structureId with
  | none => some (.error (.structureNotFound structureId), manager)
  | some structure_ =>
    if (structure_.pieces.lookup targetPieceId).isNone then
      some (.error (.pieceNotFound targetPieceId), manager)
    else
      let remaining := collapse structure_ targetPieceId
      let grounded := order.foldl (groundPiece remaining.pieces) ([], fun _ => none)
      match propagate remaining.pieces order fuel grounded.1 grounded.2 with
      | none => none
      | some stability =>
        let toCollapse := order.filter fun pid => (stability pid).isNone
        some (.ok (targetPieceId :: toCollapse),
          { manager with
            structures := manager.structures.insert structureId
              (toCollapse.foldl collapse remaining) })

end StructureManager

end Eidolon.World
