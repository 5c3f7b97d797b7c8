import Mathlib.Tactic.IntervalCases
import Eidolon.Core.Fixed

/-!
# Quantized coordinates and headings

Coordinates within a cell and headings at three resolutions, and their packings into seven,
five and three bytes.  The arrays of the source are lists of these lengths.
-/

namespace Eidolon.Core

open List

def maxQuantizedVertical : UInt16 := 0x0FFF

def flagCellAnchor : UInt8 := 8

/-- A heading of 256 discrete angles. -/
structure QuantizedYaw where
  byte : UInt8
  deriving DecidableEq

namespace QuantizedYaw

def fromByte (val : UInt8) : QuantizedYaw where
  byte := val

def asByte (self : QuantizedYaw) : UInt8 :=
  self.byte

end QuantizedYaw

structure QuantizedYaw6Bit where
  byte : UInt8
  deriving DecidableEq

structure QuantizedYaw4Bit where
  byte : UInt8
  deriving DecidableEq

/-- Coordinates of 16, 12 and 16 bits. -/
structure QuantizedCellCoord where
  x : UInt16
  y : UInt16
  z : UInt16
  deriving DecidableEq

namespace QuantizedCellCoord

def new (x y z : UInt16) : QuantizedCellCoord where
  x := x
  y := if maxQuantizedVertical < y then maxQuantizedVertical else y
  z := z

def isValid (self : QuantizedCellCoord) : Bool :=
  decide (self.y ≤ maxQuantizedVertical)

def packWithYawAndFlags (self : QuantizedCellCoord) (yaw : QuantizedYaw) (flags : UInt8) :
    List UInt8 :=
  let yBounded := self.y &&& maxQuantizedVertical
  let yawVal := yaw.asByte
  let flagsNibble := flags &&& 0x0F
  [(self.x &&& 0xFF).toUInt8, ((self.x >>> 8) &&& 0xFF).toUInt8, (self.z &&& 0xFF).toUInt8,
    ((self.z >>> 8) &&& 0xFF).toUInt8,
    (yBounded &&& 0xFF).toUInt8,
    ((yBounded >>> 8) &&& 0x0F).toUInt8 ||| ((yawVal &&& 0x0F) <<< 4),
    ((yawVal >>> 4) &&& (0x0F : UInt8)) ||| (flagsNibble <<< 4)]

def unpackWithYawAndFlags (bytes : List UInt8) : QuantizedCellCoord × QuantizedYaw × UInt8 :=
  let byte := fun index => bytes.getD index 0
  let x := (byte 0).toUInt16 ||| ((byte 1).toUInt16 <<< 8)
  let z := (byte 2).toUInt16 ||| ((byte 3).toUInt16 <<< 8)
  let y := (byte 4).toUInt16 ||| ((byte 5 &&& 0x0F).toUInt16 <<< 8)
  let yaw := ((byte 5 >>> 4) &&& (0x0F : UInt8)) ||| ((byte 6 &&& 0x0F) <<< 4)
  let flags := (byte 6 >>> 4) &&& (0x0F : UInt8)
  ({ x := x, y := y, z := z }, QuantizedYaw.fromByte yaw, flags)

end QuantizedCellCoord

structure MidfieldQuantizedCoord where
  x : UInt16
  y : UInt8
  z : UInt16
  deriving DecidableEq

namespace MidfieldQuantizedCoord

def pack (self : MidfieldQuantizedCoord) (yaw : QuantizedYaw6Bit) (flags : UInt8) : List UInt8 :=
  let xVal := self.x &&& 0x03FF
  let zVal := self.z &&& 0x03FF
  let yVal := self.y
  let yawVal := yaw.byte &&& 0x3F
  let flagsNibble := flags &&& 0x0F
  [(xVal &&& 0xFF).toUInt8, ((xVal >>> 8) &&& 0x03).toUInt8 ||| ((zVal &&& 0x3F).toUInt8 <<< 2),
    ((zVal >>> 6) &&& 0x0F).toUInt8 ||| ((yVal &&& 0x0F) <<< 4),
    ((yVal >>> 4) &&& (0x0F : UInt8)) ||| ((yawVal &&& 0x0F) <<< 4),
    ((yawVal >>> 4) &&& (0x03 : UInt8)) ||| (flagsNibble <<< 2)]

def unpack (bytes : List UInt8) : MidfieldQuantizedCoord × QuantizedYaw6Bit × UInt8 :=
  let byte := fun index => bytes.getD index 0
  let x := (byte 0).toUInt16 ||| ((byte 1 &&& 0x03).toUInt16 <<< 8)
  let z := ((byte 1 >>> 2) &&& (0x3F : UInt8)).toUInt16 ||| ((byte 2 &&& 0x0F).toUInt16 <<< 6)
  let y := ((byte 2 >>> 4) &&& (0x0F : UInt8)) ||| ((byte 3 &&& 0x0F) <<< 4)
  let yaw := ((byte 3 >>> 4) &&& (0x0F : UInt8)) ||| ((byte 4 &&& 0x03) <<< 4)
  let flags := (byte 4 >>> 2) &&& (0x0F : UInt8)
  ({ x := x, y := y, z := z }, { byte := yaw }, flags)

end MidfieldQuantizedCoord

structure HorizonQuantizedCoord where
  x : UInt8
  y : UInt8
  z : UInt8
  deriving DecidableEq

namespace HorizonQuantizedCoord

def pack (self : HorizonQuantizedCoord) (heading : QuantizedYaw4Bit) (flags : UInt8) : List UInt8 :=
  let xVal := self.x &&& 0x3F
  let zVal := self.z &&& 0x3F
  let yVal := self.y &&& 0x1F
  let headingVal := heading.byte &&& 0x0F
  let flagsVal := flags &&& 0x07
  [xVal ||| ((zVal &&& 0x03) <<< 6), ((zVal >>> 2) &&& (0x0F : UInt8)) ||| ((yVal &&& 0x0F) <<< 4),
    ((yVal >>> 4) &&& (0x01 : UInt8)) ||| (headingVal <<< 1) ||| (flagsVal <<< 5)]

def unpack (bytes : List UInt8) : HorizonQuantizedCoord × QuantizedYaw4Bit × UInt8 :=
  let byte := fun index => bytes.getD index 0
  let x := byte 0 &&& 0x3F
  let z := ((byte 0 >>> 6) &&& (0x03 : UInt8)) ||| ((byte 1 &&& 0x0F) <<< 2)
  let y := ((byte 1 >>> 4) &&& (0x0F : UInt8)) ||| ((byte 2 &&& 0x01) <<< 4)
  let heading := (byte 2 >>> 1) &&& (0x0F : UInt8)
  let flags := (byte 2 >>> 5) &&& (0x07 : UInt8)
  ({ x := x, y := y, z := z }, { byte := heading }, flags)

end HorizonQuantizedCoord

theorem eq_of_bits8 {first second : UInt8}
    (same : ∀ place, place < 8 → first.toBitVec.getLsbD place = second.toBitVec.getLsbD place) :
    first = second := by
  apply UInt8.eq_of_toBitVec_eq
  apply BitVec.eq_of_getLsbD_eq
  exact same

theorem eq_of_bits16 {first second : UInt16}
    (same : ∀ place, place < 16 → first.toBitVec.getLsbD place = second.toBitVec.getLsbD place) :
    first = second := by
  apply UInt16.eq_of_toBitVec_eq
  apply BitVec.eq_of_getLsbD_eq
  exact same

theorem and_eq_self8 {value mask : UInt8} {width : Nat} (small : value.toNat < 2 ^ width)
    (isMask : mask.toNat = 2 ^ width - 1) : value &&& mask = value := by
  rw [← UInt8.toNat_inj, UInt8.toNat_and, isMask, Nat.and_two_pow_sub_one_eq_mod,
    Nat.mod_eq_of_lt small]

theorem and_eq_self16 {value mask : UInt16} {width : Nat} (small : value.toNat < 2 ^ width)
    (isMask : mask.toNat = 2 ^ width - 1) : value &&& mask = value := by
  rw [← UInt16.toNat_inj, UInt16.toNat_and, isMask, Nat.and_two_pow_sub_one_eq_mod,
    Nat.mod_eq_of_lt small]

theorem and_eq_maxQuantizedVertical {coord : QuantizedCellCoord}
    (isValid : coord.isValid = true) : coord.y &&& maxQuantizedVertical = coord.y := by
  have bound := UInt16.le_iff_toNat_le.mp (of_decide_eq_true isValid)
  have limit : maxQuantizedVertical.toNat = 4095 := by decide
  exact @and_eq_self16 coord.y maxQuantizedVertical 12 (by omega) (by decide)

theorem joined_bytes (value : UInt16) :
    (value &&& 0xFF).toUInt8.toUInt16 ||| (((value >>> 8) &&& 0xFF).toUInt8.toUInt16 <<< 8) =
      value := by
  apply eq_of_bits16
  intro place inside
  simp only [UInt16.toBitVec_or, UInt16.toBitVec_and, UInt16.toBitVec_shiftLeft,
    UInt16.toBitVec_shiftRight, UInt8.toBitVec_toUInt16, UInt16.toBitVec_toUInt8,
    UInt16.toBitVec_ofNat]
  interval_cases place
  all_goals simp

theorem QuantizedCellCoord.unpack_pack (coord : QuantizedCellCoord) (yaw : QuantizedYaw)
    (flags : UInt8) :
    unpackWithYawAndFlags (coord.packWithYawAndFlags yaw flags) =
      ({ coord with y := coord.y &&& maxQuantizedVertical }, yaw, flags &&& 0x0F) := by
  obtain ⟨x, y, z⟩ := coord
  obtain ⟨yaw⟩ := yaw
  rw [packWithYawAndFlags, unpackWithYawAndFlags]
  simp only [getD_cons_zero, getD_cons_succ, QuantizedYaw.fromByte,
    QuantizedYaw.asByte, maxQuantizedVertical, Prod.mk.injEq, mk.injEq,
    QuantizedYaw.mk.injEq]
  refine ⟨⟨joined_bytes x, ?_, joined_bytes z⟩, ?_, ?_⟩
  · apply eq_of_bits16
    intro place inside
    simp only [UInt16.toBitVec_or, UInt16.toBitVec_and, UInt16.toBitVec_shiftLeft,
      UInt16.toBitVec_shiftRight, UInt8.toBitVec_toUInt16, UInt16.toBitVec_toUInt8,
      UInt16.toBitVec_ofNat, UInt8.toBitVec_or, UInt8.toBitVec_and, UInt8.toBitVec_shiftLeft,
      UInt8.toBitVec_ofNat]
    interval_cases place
    all_goals simp
  · apply eq_of_bits8
    intro place inside
    interval_cases place
    all_goals simp
  apply eq_of_bits8
  intro place inside
  interval_cases place
  all_goals simp

theorem MidfieldQuantizedCoord.unpack_pack (coord : MidfieldQuantizedCoord)
    (yaw : QuantizedYaw6Bit) (flags : UInt8) :
    unpack (coord.pack yaw flags) =
      ({ x := coord.x &&& 0x03FF, y := coord.y, z := coord.z &&& 0x03FF },
        { byte := yaw.byte &&& 0x3F }, flags &&& 0x0F) := by
  rw [pack, unpack]
  simp only [getD_cons_zero, getD_cons_succ, Prod.mk.injEq, mk.injEq, QuantizedYaw6Bit.mk.injEq]
  refine ⟨⟨?_, ?_, ?_⟩, ?_, ?_⟩
  · apply eq_of_bits16
    intro place inside
    simp only [UInt16.toBitVec_or, UInt16.toBitVec_and, UInt16.toBitVec_shiftLeft,
      UInt16.toBitVec_shiftRight, UInt8.toBitVec_toUInt16, UInt16.toBitVec_toUInt8,
      UInt16.toBitVec_ofNat, UInt8.toBitVec_or, UInt8.toBitVec_and, UInt8.toBitVec_shiftLeft,
      UInt8.toBitVec_ofNat]
    interval_cases place
    all_goals simp
  · apply eq_of_bits8
    intro place inside
    interval_cases place
    all_goals simp
  · apply eq_of_bits16
    intro place inside
    simp only [UInt16.toBitVec_or, UInt16.toBitVec_and, UInt16.toBitVec_shiftLeft,
      UInt16.toBitVec_shiftRight, UInt8.toBitVec_toUInt16, UInt16.toBitVec_toUInt8,
      UInt16.toBitVec_ofNat, UInt8.toBitVec_or, UInt8.toBitVec_and, UInt8.toBitVec_shiftLeft,
      UInt8.toBitVec_shiftRight, UInt8.toBitVec_ofNat]
    interval_cases place
    all_goals simp
  · apply eq_of_bits8
    intro place inside
    interval_cases place
    all_goals simp
  apply eq_of_bits8
  intro place inside
  interval_cases place
  all_goals simp

theorem HorizonQuantizedCoord.unpack_pack (coord : HorizonQuantizedCoord)
    (heading : QuantizedYaw4Bit) (flags : UInt8) :
    unpack (coord.pack heading flags) =
      ({ x := coord.x &&& 0x3F, y := coord.y &&& 0x1F, z := coord.z &&& 0x3F },
        { byte := heading.byte &&& 0x0F }, flags &&& 0x07) := by
  rw [pack, unpack]
  simp only [getD_cons_zero, getD_cons_succ, Prod.mk.injEq, mk.injEq, QuantizedYaw4Bit.mk.injEq]
  refine ⟨⟨?_, ?_, ?_⟩, ?_, ?_⟩
  all_goals apply eq_of_bits8
  all_goals intro place inside
  all_goals interval_cases place
  all_goals simp

end Eidolon.Core

/-!
## Quantization within a cell

A world position as the indices of its cell and quantized coordinates within it.
-/

namespace Eidolon.Core

/-- The fraction of a cell's edge of two to the `exponent` metres that a local coordinate
makes up, in steps up to `greatest`.  What lies outside of the cell is cut off. -/
def quantizeAxis (localCoordinate : Fixed64) (exponent : Nat) (greatest : Nat) : UInt16 :=
  let clamped := max 0 (min (2 ^ exponent * Fixed64.scale) localCoordinate.raw.toInt)
  UInt16.ofNat (min (clamped.toNat / 2 ^ exponent * greatest / 2 ^ 32) greatest)

def QuantizedCellCoord.quantize (localX localY localZ : Fixed64) : QuantizedCellCoord where
  x := quantizeAxis localX 6 0xFFFF
  y := quantizeAxis localY 5 maxQuantizedVertical.toNat
  z := quantizeAxis localZ 6 0xFFFF

def cellIndex (coordinate : Fixed64) (exponent : Nat) : Int32 :=
  Int32.ofInt (coordinate.raw.toInt / 2 ^ (32 + exponent))

def withinCell (coordinate : Fixed64) (exponent : Nat) : Fixed64 :=
  coordinate.saturatingSub
    (Fixed64.fromI32 (Int32.ofInt ((cellIndex coordinate exponent).toInt * 2 ^ exponent)))

def QuantizedCellCoord.quantizeFromGlobal (pos : Vec3Fix) :
    Int32 × Int32 × Int32 × QuantizedCellCoord :=
  (cellIndex pos.x 6, cellIndex pos.y 5, cellIndex pos.z 6,
    quantize (withinCell pos.x 6) (withinCell pos.y 5) (withinCell pos.z 6))

end Eidolon.Core
