import Eidolon.World.SoaStorage

/-!
# Compound structures

Building pieces with a box around each and one outer box around all.  A ray is first tested
against the outer box and then against each piece.  Both tests cut the times at which the ray
is inside the box, one axis after another.
-/

namespace Eidolon.Spatial

open Core

inductive PieceType where
  | foundation
  | wall
  | doorFrame
  | windowWall
  | floor
  | roof
  | stairs
  | pillar
  deriving DecidableEq

namespace PieceType

def asU8 : PieceType → UInt8
  | .foundation => 0
  | .wall => 1
  | .doorFrame => 2
  | .windowWall => 3
  | .floor => 4
  | .roof => 5
  | .stairs => 6
  | .pillar => 7

def fromU8 (val : UInt8) : Option PieceType :=
  if val = 0 then some .foundation
  else if val = 1 then some .wall
  else if val = 2 then some .doorFrame
  else if val = 3 then some .windowWall
  else if val = 4 then some .floor
  else if val = 5 then some .roof
  else if val = 6 then some .stairs
  else if val = 7 then some .pillar
  else none

def isFoundation (pieceType : PieceType) : Bool :=
  pieceType == .foundation

end PieceType

def vecFromRaw (x y z : Int64) : Vec3Fix where
  x := Fixed64.fromRaw x
  y := Fixed64.fromRaw y
  z := Fixed64.fromRaw z

/-- Half the extents of the box: 2, 0.5, 1.5, 0.1, 1 and 0.2 metres, as they are converted. -/
def PieceType.halfExtents : PieceType → Vec3Fix
  | .foundation => vecFromRaw 8589934592 2147483648 8589934592
  | .wall | .doorFrame | .windowWall => vecFromRaw 8589934592 6442450944 429496729
  | .floor => vecFromRaw 8589934592 429496729 8589934592
  | .roof => vecFromRaw 8589934592 4294967296 8589934592
  | .stairs => vecFromRaw 8589934592 6442450944 8589934592
  | .pillar => vecFromRaw 858993459 6442450944 858993459

structure RayHit where
  pieceId : UInt32
  distance : Fixed64
  hitPoint : Vec3Fix
  normal : Vec3Fix
  deriving DecidableEq

structure BvhLeafPiece where
  pieceId : UInt32
  pieceType : PieceType
  center : Vec3Fix
  minBounds : Vec3Fix
  maxBounds : Vec3Fix
  deriving DecidableEq

structure CompoundStructure where
  structureId : UInt32
  minBounds : Vec3Fix
  maxBounds : Vec3Fix
  pieces : List BvhLeafPiece
  deriving DecidableEq

structure Axis where
  origin : Fixed64
  dir : Fixed64
  minBound : Fixed64
  maxBound : Fixed64
  lowerNormal : Vec3Fix
  upperNormal : Vec3Fix
  deriving DecidableEq

def axes (origin dir minB maxB : Vec3Fix) : List Axis :=
  [ { origin := origin.x, dir := dir.x, minBound := minB.x, maxBound := maxB.x
      lowerNormal := vecFromRaw (-4294967296) 0 0, upperNormal := vecFromRaw 4294967296 0 0 },
    { origin := origin.y, dir := dir.y, minBound := minB.y, maxBound := maxB.y
      lowerNormal := vecFromRaw 0 (-4294967296) 0, upperNormal := vecFromRaw 0 4294967296 0 },
    { origin := origin.z, dir := dir.z, minBound := minB.z, maxBound := maxB.z
      lowerNormal := vecFromRaw 0 0 (-4294967296), upperNormal := vecFromRaw 0 0 4294967296 } ]

namespace Axis

variable (axis : Axis)

def Moving : Prop :=
  Fixed64.fromRaw 42949 < axis.dir.abs

instance (axis : Axis) : Decidable axis.Moving :=
  inferInstanceAs (Decidable (_ < _))

def Outside : Prop :=
  axis.origin < axis.minBound ∨ axis.maxBound < axis.origin

instance (axis : Axis) : Decidable axis.Outside :=
  inferInstanceAs (Decidable (_ ∨ _))

def invD : Fixed64 :=
  Fixed64.one.saturatingDiv axis.dir

def timeAt (bound : Fixed64) : Fixed64 :=
  (bound.saturatingSub axis.origin).saturatingMul axis.invD

def Swapped : Prop :=
  axis.timeAt axis.minBound > axis.timeAt axis.maxBound

instance (axis : Axis) : Decidable axis.Swapped :=
  inferInstanceAs (Decidable (_ < _))

def t1 : Fixed64 :=
  if axis.Swapped then axis.timeAt axis.maxBound else axis.timeAt axis.minBound

def t2 : Fixed64 :=
  if axis.Swapped then axis.timeAt axis.minBound else axis.timeAt axis.maxBound

end Axis

def intersectSlab (window : Fixed64 × Fixed64) (axis : Axis) : Option (Fixed64 × Fixed64) :=
  if axis.Moving then
    let tmin := window.1.max axis.t1
    let tmax := window.2.min axis.t2
    if tmin > tmax then none else some (tmin, tmax)
  else if axis.Outside then
    none
  else
    some window

def intersectAabb (origin dir minB maxB : Vec3Fix) (maxDist : Fixed64) : Bool :=
  ((axes origin dir minB maxB).foldlM intersectSlab (Fixed64.zero, maxDist)).isSome

structure LeafWindow where
  tmin : Fixed64
  tmax : Fixed64
  hitNormal : Vec3Fix
  deriving DecidableEq

def leafSlab (window : LeafWindow) (axis : Axis) : Option LeafWindow :=
  if axis.Moving then
    let norm := if axis.Swapped then axis.upperNormal else axis.lowerNormal
    let tmin := if axis.t1 > window.tmin then axis.t1 else window.tmin
    let hitNormal := if axis.t1 > window.tmin then norm else window.hitNormal
    let tmax := window.tmax.min axis.t2
    if tmin > tmax then none else some { tmin := tmin, tmax := tmax, hitNormal := hitNormal }
  else if axis.Outside then
    none
  else
    some window

def raycastLeafAabb (origin dir : Vec3Fix) (piece : BvhLeafPiece) (maxDist : Fixed64) :
    Option RayHit :=
  match (axes origin dir piece.minBounds piece.maxBounds).foldlM leafSlab
      { tmin := Fixed64.zero, tmax := maxDist, hitNormal := vecFromRaw 0 0 0 } with
  | none => none
  | some window =>
    if window.tmin ≤ maxDist ∧ window.tmin ≥ Fixed64.zero then
      some
        { pieceId := piece.pieceId
          distance := window.tmin
          hitPoint := origin.add (dir.scale window.tmin)
          normal := window.hitNormal }
    else
      none

def lowerCorner (first second : Vec3Fix) : Vec3Fix where
  x := first.x.min second.x
  y := first.y.min second.y
  z := first.z.min second.z

def upperCorner (first second : Vec3Fix) : Vec3Fix where
  x := first.x.max second.x
  y := first.y.max second.y
  z := first.z.max second.z

namespace CompoundStructure

def new (structureId : UInt32) : CompoundStructure where
  structureId := structureId
  minBounds := vecFromRaw Int64.maxValue Int64.maxValue Int64.maxValue
  maxBounds := vecFromRaw Int64.minValue Int64.minValue Int64.minValue
  pieces := []

variable (self : CompoundStructure)

def addPiece (pieceId : UInt32) (pieceType : PieceType) (center : Vec3Fix) : CompoundStructure :=
  let half := pieceType.halfExtents
  let minB := center.sub half
  let maxB := center.add half
  { self with
    minBounds := if self.pieces.isEmpty then minB else lowerCorner self.minBounds minB
    maxBounds := if self.pieces.isEmpty then maxB else upperCorner self.maxBounds maxB
    pieces := self.pieces ++
      [{ pieceId := pieceId
         pieceType := pieceType
         center := center
         minBounds := minB
         maxBounds := maxB }] }

def recomputeBounds : CompoundStructure :=
  match self.pieces with
  | [] =>
    { self with
      minBounds := vecFromRaw Int64.maxValue Int64.maxValue Int64.maxValue
      maxBounds := vecFromRaw Int64.minValue Int64.minValue Int64.minValue }
  | first :: rest =>
    { self with
      minBounds := rest.foldl (fun bounds piece => lowerCorner bounds piece.minBounds)
        first.minBounds
      maxBounds := rest.foldl (fun bounds piece => upperCorner bounds piece.maxBounds)
        first.maxBounds }

def removePiece (pieceId : UInt32) : Bool × CompoundStructure :=
  match self.pieces.findIdx? fun piece => piece.pieceId == pieceId with
  | some pos => (true, { self with pieces := World.swapRemove self.pieces pos }.recomputeBounds)
  | none => (false, self)

/-- One piece of the loop in `raycast`: the closest distance and hit so far. -/
def tryPiece (origin dir : Vec3Fix) (closest : Fixed64 × Option RayHit)
    (piece : BvhLeafPiece) : Fixed64 × Option RayHit :=
  match raycastLeafAabb origin dir piece closest.1 with
  | some hit => if hit.distance < closest.1 then (hit.distance, some hit) else closest
  | none => closest

def raycast (rayOrigin rayDir : Vec3Fix) (maxDistance : Fixed64) : Option RayHit :=
  if self.pieces.isEmpty then
    none
  else if !intersectAabb rayOrigin rayDir self.minBounds self.maxBounds maxDistance then
    none
  else
    (self.pieces.foldl (tryPiece rayOrigin rayDir) (maxDistance, none)).2

end CompoundStructure

end Eidolon.Spatial
