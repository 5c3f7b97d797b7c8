import Mathlib.Data.Int.ModEq
import Eidolon.Core.Dequantization

/-!
# Global coordinates

A sector of 256 metres by its two indices, and a fixed-point offset within it.
-/

namespace Eidolon.Core

structure GlobalCoord where
  sectorX : Int32
  sectorZ : Int32
  offset : Vec3Fix
  deriving DecidableEq

namespace GlobalCoord

/-- The sectors that an offset is away from its own; one sector spans 2 to the 40 raw
units. -/
def sectorShift (offset : Fixed64) : Int32 :=
  Int32.ofInt (offset.raw.toInt / 2 ^ 40)

def withoutShift (offset : Fixed64) (shift : Int32) : Fixed64 :=
  if shift = 0 then offset
  else offset.saturatingSub (Fixed64.fromRaw (Int64.ofInt (shift.toInt * 2 ^ 40)))

/-- Moves whole sectors of the offset into the sector indices, which wrap around. -/
def normalize (self : GlobalCoord) : GlobalCoord :=
  let shiftX := sectorShift self.offset.x
  let shiftZ := sectorShift self.offset.z
  { sectorX := self.sectorX + shiftX
    sectorZ := self.sectorZ + shiftZ
    offset :=
      { x := withoutShift self.offset.x shiftX
        y := self.offset.y
        z := withoutShift self.offset.z shiftZ } }

def new (sectorX sectorZ : Int32) (offset : Vec3Fix) : GlobalCoord :=
  normalize ⟨sectorX, sectorZ, offset⟩

def translate (self : GlobalCoord) (delta : Vec3Fix) : GlobalCoord :=
  new self.sectorX self.sectorZ (self.offset.add delta)

end GlobalCoord

end Eidolon.Core

/-!
## The algebra of global coordinates

On each axis a coordinate stands for a whole number of raw units, sectors times their edge
plus the offset.  Normalizing divides that number by the edge, so that moving and measuring
cancel as long as neither the offset nor the sector index runs out of its bits.
-/

namespace Eidolon.Core

namespace GlobalCoord

def sectorEdgeFixed : Fixed64 :=
  Fixed64.fromI32 256

def fromContinuous (position : Vec3Fix) : GlobalCoord :=
  normalize ⟨0, 0, position⟩

variable (sector : Int32)

def sectorMeters (target : Int32) : Int32 :=
  Int32.ofIntClamp (Int64.ofIntClamp ((target.toInt - sector.toInt) * 256)).toInt

def displacementTo (self target : GlobalCoord) : Vec3Fix where
  x := (Fixed64.fromI32 (sectorMeters self.sectorX target.sectorX)).saturatingAdd
    (target.offset.x.saturatingSub self.offset.x)
  y := target.offset.y.saturatingSub self.offset.y
  z := (Fixed64.fromI32 (sectorMeters self.sectorZ target.sectorZ)).saturatingAdd
    (target.offset.z.saturatingSub self.offset.z)

def sectorCorner : Fixed64 :=
  Fixed64.fromRaw (Int64.ofInt (sector.toInt * 256 * 2 ^ 32))

def toContinuous (self : GlobalCoord) : Vec3Fix where
  x := (sectorCorner self.sectorX).saturatingAdd self.offset.x
  y := self.offset.y
  z := (sectorCorner self.sectorZ).saturatingAdd self.offset.z

def axisPoint (offset : Fixed64) : Int :=
  sector.toInt * 2 ^ 40 + offset.raw.toInt

/-- The horizontal offsets lie within the sector. -/
structure Normalized (coord : GlobalCoord) : Prop where
  xNonneg : Fixed64.zero ≤ coord.offset.x
  xBelow : coord.offset.x < sectorEdgeFixed
  zNonneg : Fixed64.zero ≤ coord.offset.z
  zBelow : coord.offset.z < sectorEdgeFixed

/-- Both coordinates stand for one point. -/
structure SamePoint (left right : GlobalCoord) : Prop where
  x : axisPoint left.sectorX left.offset.x = axisPoint right.sectorX right.offset.x
  y : left.offset.y = right.offset.y
  z : axisPoint left.sectorZ left.offset.z = axisPoint right.sectorZ right.offset.z

/-- Both coordinates stand for one point of the torus on which the sector indices wrap
around. -/
structure SamePointOfTorus (left right : GlobalCoord) : Prop where
  x : axisPoint left.sectorX left.offset.x ≡ axisPoint right.sectorX right.offset.x [ZMOD 2 ^ 72]
  y : left.offset.y = right.offset.y
  z : axisPoint left.sectorZ left.offset.z ≡ axisPoint right.sectorZ right.offset.z [ZMOD 2 ^ 72]

def SectorFits (offset : Fixed64) : Prop :=
  -2 ^ 31 ≤ sector.toInt + offset.raw.toInt / 2 ^ 40 ∧
    sector.toInt + offset.raw.toInt / 2 ^ 40 < 2 ^ 31

variable (coord : GlobalCoord)

/-- The sector indices do not wrap around when the coordinate is normalized. -/
def SectorsFit : Prop :=
  SectorFits coord.sectorX coord.offset.x ∧ SectorFits coord.sectorZ coord.offset.z

def RawFits (raw : Int) : Prop :=
  -2 ^ 63 ≤ raw ∧ raw < 2 ^ 63

/-- The sum of the vectors does not saturate. -/
structure SumFits (offset delta : Vec3Fix) : Prop where
  x : RawFits (offset.x.raw.toInt + delta.x.raw.toInt)
  y : RawFits (offset.y.raw.toInt + delta.y.raw.toInt)
  z : RawFits (offset.z.raw.toInt + delta.z.raw.toInt)

/-- The continuous position of the coordinate is a fixed-point number on each axis. -/
def ContinuousFits : Prop :=
  RawFits (axisPoint coord.sectorX coord.offset.x) ∧
    RawFits (axisPoint coord.sectorZ coord.offset.z)

instance (sector : Int32) (offset : Fixed64) : Decidable (SectorFits sector offset) :=
  inferInstanceAs (Decidable (_ ∧ _))

instance (coord : GlobalCoord) : Decidable (SectorsFit coord) :=
  inferInstanceAs (Decidable (_ ∧ _))

instance (raw : Int) : Decidable (RawFits raw) :=
  inferInstanceAs (Decidable (_ ∧ _))

instance (coord : GlobalCoord) : Decidable (ContinuousFits coord) :=
  inferInstanceAs (Decidable (_ ∧ _))

variable {offset : Fixed64}

theorem within_sector_iff : Fixed64.zero ≤ offset ∧ offset < sectorEdgeFixed ↔
      0 ≤ offset.raw.toInt ∧ offset.raw.toInt < 2 ^ 40 := by
  have zeroIs : Fixed64.zero.raw.toInt = 0 := by decide
  have edgeIs : sectorEdgeFixed.raw.toInt = 2 ^ 40 := by decide
  rw [Fixed64.le_iff, Fixed64.lt_iff, zeroIs, edgeIs]

theorem toInt_sectorShift (offset : Fixed64) :
    (sectorShift offset).toInt = offset.raw.toInt / 2 ^ 40 := by
  have low := offset.raw.le_toInt
  have high := offset.raw.toInt_lt
  exact Int32.toInt_ofInt_of_le (by omega) (by omega)

theorem toInt_withoutShift (offset : Fixed64) :
    (withoutShift offset (sectorShift offset)).raw.toInt = offset.raw.toInt % 2 ^ 40 := by
  have low := offset.raw.le_toInt
  have high := offset.raw.toInt_lt
  have shiftIs := toInt_sectorShift offset
  rw [withoutShift]
  by_cases still : sectorShift offset = 0
  · have nothing : offset.raw.toInt / 2 ^ 40 = 0 := by
      rw [← shiftIs, still]
      decide
    rw [if_pos still]
    omega
  have movedIs : (Int64.ofInt ((sectorShift offset).toInt * 2 ^ 40)).toInt =
      offset.raw.toInt / 2 ^ 40 * 2 ^ 40 := by
    rw [shiftIs]
    exact Int64.toInt_ofInt_of_le (by omega) (by omega)
  rw [if_neg still, Fixed64.toInt_saturatingSub, Fixed64.fromRaw, movedIs, Fixed64.maxRaw]
  omega

theorem within_withoutShift (offset : Fixed64) :
    Fixed64.zero ≤ withoutShift offset (sectorShift offset) ∧
      withoutShift offset (sectorShift offset) < sectorEdgeFixed := by
  rw [within_sector_iff, toInt_withoutShift]
  omega

/-- The wrapped index differs from the sum by whole turns, and by none exactly when the sum
fits. -/
theorem toInt_add_sectorShift (offset : Fixed64) :
    (sector + sectorShift offset).toInt ≡ sector.toInt + offset.raw.toInt / 2 ^ 40 [ZMOD 2 ^ 32] ∧
      ((sector + sectorShift offset).toInt = sector.toInt + offset.raw.toInt / 2 ^ 40 ↔
        SectorFits sector offset) := by
  have low := (sector + sectorShift offset).le_toInt
  have high := (sector + sectorShift offset).toInt_lt
  have wrapped := Int32.toInt_add sector (sectorShift offset)
  rw [toInt_sectorShift] at wrapped
  constructor
  · rw [wrapped]
    exact Int.bmod_emod
  rw [SectorFits]
  constructor
  · omega
  intro fits
  rw [wrapped]
  exact Int.bmod_eq_of_le (by omega) (by omega)

theorem axisPoint_normalize_modEq (offset : Fixed64) :
    axisPoint (sector + sectorShift offset) (withoutShift offset (sectorShift offset)) ≡
      axisPoint sector offset [ZMOD 2 ^ 72] := by
  have turns := (toInt_add_sectorShift sector offset).1
  rw [Int.modEq_iff_dvd] at turns ⊢
  rw [axisPoint, axisPoint, toInt_withoutShift]
  omega

theorem axisPoint_normalize_eq_iff (offset : Fixed64) :
    axisPoint (sector + sectorShift offset) (withoutShift offset (sectorShift offset)) =
      axisPoint sector offset ↔ SectorFits sector offset := by
  rw [← (toInt_add_sectorShift sector offset).2, axisPoint, axisPoint, toInt_withoutShift]
  omega

theorem toInt_sectorMeters {sector target : Int32}
    (near : -2 ^ 23 ≤ target.toInt - sector.toInt ∧ target.toInt - sector.toInt < 2 ^ 23) :
    (sectorMeters sector target).toInt = (target.toInt - sector.toInt) * 256 := by
  have least : Int32.minValue.toInt = -2 ^ 31 := by decide
  have greatest : Int32.maxValue.toInt = 2 ^ 31 - 1 := by decide
  have product : (Int64.ofIntClamp ((target.toInt - sector.toInt) * 256)).toInt =
      (target.toInt - sector.toInt) * 256 := by
    rw [Fixed64.toInt_ofIntClamp, Fixed64.maxRaw]
    omega
  rw [sectorMeters, product, Int32.ofIntClamp, dif_pos (by omega), dif_pos (by omega),
    Int32.toInt_ofIntLE]

variable {sector : Int32}

section

variable (within : Fixed64.zero ≤ offset ∧ offset < sectorEdgeFixed)
include within

theorem axisDisplacement_translate {delta : Fixed64}
    (sumFits : RawFits (offset.raw.toInt + delta.raw.toInt))
    (sectorFits : SectorFits sector (offset.saturatingAdd delta)) :
    (Fixed64.fromI32 (sectorMeters sector
        (sector + sectorShift (offset.saturatingAdd delta)))).saturatingAdd
      ((withoutShift (offset.saturatingAdd delta)
        (sectorShift (offset.saturatingAdd delta))).saturatingSub offset) = delta := by
  have deltaLow := delta.raw.le_toInt
  have sumIs : (offset.saturatingAdd delta).raw.toInt = offset.raw.toInt + delta.raw.toInt := by
    rw [toInt_saturatingAdd, Fixed64.maxRaw]
    rw [RawFits] at sumFits
    omega
  rw [within_sector_iff] at within
  rw [RawFits] at sumFits
  have movedTo := (toInt_add_sectorShift sector (offset.saturatingAdd delta)).2.mpr sectorFits
  have metres := @toInt_sectorMeters sector
    (sector + sectorShift (offset.saturatingAdd delta)) (by omega)
  have remains := toInt_withoutShift (offset.saturatingAdd delta)
  apply Fixed64.eq_of_toInt_eq
  rw [toInt_saturatingAdd, toInt_fromI32, Fixed64.toInt_saturatingSub, Fixed64.maxRaw]
  omega

theorem toInt_sectorCorner_add (fits : RawFits (axisPoint sector offset)) :
    ((sectorCorner sector).saturatingAdd offset).raw.toInt = axisPoint sector offset := by
  rw [within_sector_iff] at within
  rw [RawFits, axisPoint] at fits
  have cornerIs : (sectorCorner sector).raw.toInt = sector.toInt * 256 * 2 ^ 32 :=
    Int64.toInt_ofInt_of_le (by omega) (by omega)
  rw [toInt_saturatingAdd, Fixed64.maxRaw, axisPoint]
  omega

theorem axis_fromContinuous (fits : RawFits (axisPoint sector offset)) :
    0 + sectorShift ((sectorCorner sector).saturatingAdd offset) = sector ∧
      withoutShift ((sectorCorner sector).saturatingAdd offset)
        (sectorShift ((sectorCorner sector).saturatingAdd offset)) = offset := by
  have positionIs := toInt_sectorCorner_add within fits
  rw [within_sector_iff] at within
  rw [axisPoint] at positionIs
  constructor
  · rw [Int32.zero_add, ← Int32.toInt_inj, toInt_sectorShift]
    omega
  apply Fixed64.eq_of_toInt_eq
  rw [toInt_withoutShift]
  omega

end

theorem normalized_normalize (coord : GlobalCoord) : (normalize coord).Normalized where
  xNonneg := (within_withoutShift coord.offset.x).1
  xBelow := (within_withoutShift coord.offset.x).2
  zNonneg := (within_withoutShift coord.offset.z).1
  zBelow := (within_withoutShift coord.offset.z).2

theorem samePointOfTorus_normalize (coord : GlobalCoord) :
    SamePointOfTorus (normalize coord) coord where
  x := axisPoint_normalize_modEq coord.sectorX coord.offset.x
  y := rfl
  z := axisPoint_normalize_modEq coord.sectorZ coord.offset.z

theorem samePoint_normalize_iff : SamePoint (normalize coord) coord ↔ SectorsFit coord := by
  constructor
  · intro same
    exact ⟨(axisPoint_normalize_eq_iff coord.sectorX coord.offset.x).mp same.x,
      (axisPoint_normalize_eq_iff coord.sectorZ coord.offset.z).mp same.z⟩
  intro fits
  exact ⟨(axisPoint_normalize_eq_iff coord.sectorX coord.offset.x).mpr fits.1, rfl,
    (axisPoint_normalize_eq_iff coord.sectorZ coord.offset.z).mpr fits.2⟩

theorem displacementTo_translate_eq {coord : GlobalCoord} {delta : Vec3Fix}
    (normalized : coord.Normalized) (sumFits : SumFits coord.offset delta)
    (sectorsFit : SectorsFit ⟨coord.sectorX, coord.sectorZ, coord.offset.add delta⟩) :
    coord.displacementTo (coord.translate delta) = delta := by
  have alongX := axisDisplacement_translate ⟨normalized.xNonneg, normalized.xBelow⟩ sumFits.x
    sectorsFit.1
  have alongZ := axisDisplacement_translate ⟨normalized.zNonneg, normalized.zBelow⟩ sumFits.z
    sectorsFit.2
  have alongY : (coord.offset.y.saturatingAdd delta.y).saturatingSub coord.offset.y = delta.y := by
    have fits := sumFits.y
    have low := delta.y.raw.le_toInt
    have high := delta.y.raw.toInt_lt
    rw [RawFits] at fits
    apply Fixed64.eq_of_toInt_eq
    rw [Fixed64.toInt_saturatingSub, toInt_saturatingAdd, Fixed64.maxRaw]
    omega
  rw [displacementTo, translate, new, normalize, Vec3Fix.add, alongX, alongY, alongZ]

theorem fromContinuous_toContinuous_eq {coord : GlobalCoord} (normalized : coord.Normalized)
    (fits : ContinuousFits coord) : fromContinuous coord.toContinuous = coord := by
  have alongX := axis_fromContinuous ⟨normalized.xNonneg, normalized.xBelow⟩ fits.1
  have alongZ := axis_fromContinuous ⟨normalized.zNonneg, normalized.zBelow⟩ fits.2
  rw [fromContinuous, toContinuous, normalize, alongX.1, alongX.2, alongZ.1, alongZ.2]

/-- Normalizing keeps the point up to whole turns of the sector indices, and keeps it exactly
when they fit; moving and measuring cancel, and so does the way over the continuous position. -/
theorem algebra :
    (∀ coord, (normalize coord).Normalized ∧ SamePointOfTorus (normalize coord) coord ∧
      (SamePoint (normalize coord) coord ↔ SectorsFit coord)) ∧
    (∀ (coord : GlobalCoord) (delta : Vec3Fix), coord.Normalized → SumFits coord.offset delta →
      SectorsFit ⟨coord.sectorX, coord.sectorZ, coord.offset.add delta⟩ →
        coord.displacementTo (coord.translate delta) = delta) ∧
    ∀ coord : GlobalCoord, coord.Normalized → ContinuousFits coord →
      fromContinuous coord.toContinuous = coord := by
  refine ⟨?_, ?_, ?_⟩
  · intro coord
    exact ⟨normalized_normalize coord, samePointOfTorus_normalize coord,
      samePoint_normalize_iff coord⟩
  · intro coord delta normalized sumFits sectorsFit
    exact displacementTo_translate_eq normalized sumFits sectorsFit
  intro coord normalized fits
  exact fromContinuous_toContinuous_eq normalized fits

/-- Moving back over the edge of the first sector, and the first sector whose continuous
position fits. -/
theorem algebra_backward : displacementTo ⟨0, 5, Vec3Fix.fromI32 255 (-1) 0⟩
        (translate ⟨0, 5, Vec3Fix.fromI32 255 (-1) 0⟩ (Vec3Fix.fromI32 (-3000) 7 (-1))) =
          Vec3Fix.fromI32 (-3000) 7 (-1) ∧
      fromContinuous (toContinuous ⟨-8388608, 5, Vec3Fix.fromI32 255 (-1) 0⟩) =
        ⟨-8388608, 5, Vec3Fix.fromI32 255 (-1) 0⟩ :=
  ⟨algebra.2.1 _ _ ⟨by decide, by decide, by decide, by decide⟩
      ⟨by decide, by decide, by decide⟩ (by decide),
    algebra.2.2 _ ⟨by decide, by decide, by decide, by decide⟩ (by decide)⟩

/-- Beyond the last sector the index wraps around to the first. -/
theorem not_samePoint_lastSector : ¬ ∀ coord : GlobalCoord, SamePoint (normalize coord) coord := by
  intro always
  have same := (always ⟨2 ^ 31 - 1, 0, Vec3Fix.fromI32 256 0 0⟩).x
  exact absurd same (by decide)

end GlobalCoord

end Eidolon.Core
