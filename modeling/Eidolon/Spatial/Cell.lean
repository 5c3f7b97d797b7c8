import Eidolon.Core.Fixed

/-!
# Spatial cells

The cells of 64 by 32 by 64 metres that a position falls into, and the errors of the
containers over them.  Machine integers wrap around as in a release build.
-/

namespace Eidolon.Spatial

open Core

def cellHorizontalSize : Int32 := 64

def cellVerticalSize : Int32 := 32

inductive SpatialError where
  | entityNotFound (entityId : UInt32)
  | entityAlreadyExists (entityId : UInt32)
  | capacityExceeded
  | invalidEntityId (entityId : UInt32)
  deriving DecidableEq

/-- A discrete cell coordinate. -/
structure CellCoord where
  x : Int32
  y : Int32
  z : Int32
  deriving DecidableEq

namespace CellCoord

def fromPosition (pos : Vec3Fix) : CellCoord where
  x := Int32.ofInt (pos.x.toI32.toInt / cellHorizontalSize.toInt)
  y := Int32.ofInt (pos.y.toI32.toInt / cellVerticalSize.toInt)
  z := Int32.ofInt (pos.z.toI32.toInt / cellHorizontalSize.toInt)

def spatialKey (cell : CellCoord) : UInt64 :=
  let xBits := UInt64.ofNat (cell.x.toInt % 2 ^ 24).toNat
  let zBits := UInt64.ofNat (cell.z.toInt % 2 ^ 24).toNat
  let yBits := UInt64.ofNat (cell.y.toInt % 2 ^ 16).toNat
  (xBits <<< 40) ||| (zBits <<< 16) ||| yBits

end CellCoord

end Eidolon.Spatial
