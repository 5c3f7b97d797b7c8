import Eidolon.Core.FixedOrder
import Eidolon.Core.Quant
import Eidolon.Library.Rescale

/-!
# Decoding of quantized coordinates

Both directions round down, so that a coordinate that is decoded and encoded again loses a
step unless it stands at one of the two ends of its range.
-/

namespace Eidolon.Core

open Library

/-- The coordinate of a code out of `greatest` within a cell of two to the `exponent` metres. -/
def dequantizeAxis (code : UInt16) (exponent : Nat) (greatest : UInt16) : Fixed64 :=
  ((Fixed64.fromI32 (Int32.ofNat code.toNat)).saturatingDiv
    (Fixed64.fromI32 (Int32.ofNat greatest.toNat))).saturatingMul
      (Fixed64.fromI32 (Int32.ofNat (2 ^ exponent)))

namespace QuantizedCellCoord

def dequantize (self : QuantizedCellCoord) : Vec3Fix where
  x := dequantizeAxis self.x 6 0xFFFF
  y := dequantizeAxis (self.y &&& maxQuantizedVertical) 5 maxQuantizedVertical
  z := dequantizeAxis self.z 6 0xFFFF

end QuantizedCellCoord

def cellOrigin (cell : Int32) (exponent : Nat) : Fixed64 :=
  Fixed64.fromI32 (Int32.ofInt (cell.toInt * 2 ^ exponent))

def QuantizedCellCoord.dequantizeToGlobal (cellX cellY cellZ : Int32)
    (quant : QuantizedCellCoord) : Vec3Fix :=
  Vec3Fix.add ⟨cellOrigin cellX 6, cellOrigin cellY 5, cellOrigin cellZ 6⟩ quant.dequantize

theorem toInt_fromI32 (val : Int32) : (Fixed64.fromI32 val).raw.toInt = val.toInt * 2 ^ 32 := by
  have low := val.le_toInt
  have high := val.toInt_lt
  rw [Fixed64.fromI32, Fixed64.scale]
  exact Int64.toInt_ofInt_of_le (by omega) (by omega)

theorem toInt_saturatingDiv_of_pos {self rhs : Fixed64} (nonneg : 0 ≤ self.raw.toInt)
    (positive : 0 < rhs.raw.toInt) :
    (self.saturatingDiv rhs).raw.toInt =
      min (self.raw.toInt * 2 ^ 32 / rhs.raw.toInt) Fixed64.maxRaw := by
  have notZero : ¬ rhs.raw = 0 := by
    intro isZero
    rw [isZero] at positive
    exact absurd positive (by decide)
  have scaled : 0 ≤ self.raw.toInt * 2 ^ 32 := by
    omega
  rw [Fixed64.saturatingDiv, if_neg notZero, Fixed64.scale]
  rw [Fixed64.toInt_ofIntClamp_of_nonneg (Int.tdiv_nonneg scaled (by omega)),
    Int.tdiv_eq_ediv_of_nonneg scaled]

theorem toInt_saturatingMul_of_nonneg {self rhs : Fixed64} (first : 0 ≤ self.raw.toInt)
    (second : 0 ≤ rhs.raw.toInt) :
    (self.saturatingMul rhs).raw.toInt =
      min (self.raw.toInt * rhs.raw.toInt / 2 ^ 32) Fixed64.maxRaw :=
  Fixed64.toInt_ofIntClamp_of_nonneg (Int.ediv_nonneg (Int.mul_nonneg first second) (by decide))

variable {exponent : Nat}

theorem toInt_dequantizeAxis {code greatest : UInt16} (positive : 0 < greatest.toNat)
    (inside : code.toNat ≤ greatest.toNat) (small : exponent ≤ 6) :
    (dequantizeAxis code exponent greatest).raw.toInt =
      ((2 ^ exponent * ofCode (2 ^ 32) greatest.toNat code.toNat : Nat) : Int) := by
  have greatestBound := greatest.toNat_lt
  have power : 2 ^ exponent ≤ 2 ^ 6 := Nat.pow_le_pow_right (by decide) small
  have fractionBound : ofCode (2 ^ 32) greatest.toNat code.toNat ≤ 2 ^ 32 := ofCode_le inside
  have codeIs : (Fixed64.fromI32 (Int32.ofNat code.toNat)).raw.toInt = code.toNat * 2 ^ 32 := by
    rw [toInt_fromI32, Int32.toInt_ofNat_of_lt (by omega)]
  have greatestIs : (Fixed64.fromI32 (Int32.ofNat greatest.toNat)).raw.toInt =
      greatest.toNat * 2 ^ 32 := by
    rw [toInt_fromI32, Int32.toInt_ofNat_of_lt (by omega)]
  have edgeIs : (Fixed64.fromI32 (Int32.ofNat (2 ^ exponent))).raw.toInt =
      ((2 ^ exponent : Nat) : Int) * 2 ^ 32 := by
    rw [toInt_fromI32, Int32.toInt_ofNat_of_lt (by omega)]
  have fraction : (code.toNat * 2 ^ 32 * 2 ^ 32 : Int) / (greatest.toNat * 2 ^ 32) =
      ofCode (2 ^ 32) greatest.toNat code.toNat := by
    rw [Int.mul_ediv_mul_of_pos_left _ _ (by decide)]
    norm_cast
  have divided : ((Fixed64.fromI32 (Int32.ofNat code.toNat)).saturatingDiv
      (Fixed64.fromI32 (Int32.ofNat greatest.toNat))).raw.toInt =
        ofCode (2 ^ 32) greatest.toNat code.toNat := by
    rw [toInt_saturatingDiv_of_pos (by omega) (by omega), codeIs, greatestIs, Fixed64.maxRaw]
    omega
  have productBound : 2 ^ exponent * ofCode (2 ^ 32) greatest.toNat code.toNat ≤
      2 ^ 6 * 2 ^ 32 := Nat.mul_le_mul power fractionBound
  have product : (ofCode (2 ^ 32) greatest.toNat code.toNat : Int) *
      (((2 ^ exponent : Nat) : Int) * 2 ^ 32) / 2 ^ 32 =
        ((2 ^ exponent * ofCode (2 ^ 32) greatest.toNat code.toNat : Nat) : Int) := by
    rw [← Int.mul_assoc, Int.mul_ediv_cancel _ (by decide), Int.mul_comm, Int.natCast_mul]
  have edgeNonneg : 0 ≤ ((2 ^ exponent : Nat) : Int) * 2 ^ 32 :=
    Int.mul_nonneg (Int.natCast_nonneg _) (by decide)
  rw [dequantizeAxis, toInt_saturatingMul_of_nonneg (by omega)
    (by rw [edgeIs]; exact edgeNonneg), divided, edgeIs, product, Fixed64.maxRaw]
  generalize 2 ^ exponent * ofCode (2 ^ 32) greatest.toNat code.toNat = position at *
  omega

theorem toNat_quantizeAxis {localCoordinate : Fixed64} {greatest : Nat}
    (nonneg : 0 ≤ localCoordinate.raw.toInt)
    (inside : localCoordinate.raw.toInt ≤ 2 ^ exponent * 2 ^ 32) (narrow : greatest < 2 ^ 16) :
    (quantizeAxis localCoordinate exponent greatest).toNat =
      toCode (2 ^ 32) greatest (localCoordinate.raw.toInt.toNat / 2 ^ exponent) := by
  have clamped : max 0 (min (2 ^ exponent * Fixed64.scale) localCoordinate.raw.toInt) =
      localCoordinate.raw.toInt := by
    rw [Fixed64.scale]
    omega
  have fraction : localCoordinate.raw.toInt.toNat / 2 ^ exponent ≤ 2 ^ 32 := by
    apply Nat.div_le_of_le_mul
    rw [Int.toNat_le]
    exact_mod_cast inside
  have coded : toCode (2 ^ 32) greatest (localCoordinate.raw.toInt.toNat / 2 ^ exponent) ≤
      greatest := toCode_le fraction
  rw [quantizeAxis]
  simp only [clamped]
  rw [← toCode, Nat.min_eq_left coded, UInt16.toNat_ofNat_of_lt' (Nat.lt_of_le_of_lt coded narrow)]

theorem quantizeAxis_le (localCoordinate : Fixed64) (exponent : Nat) {greatest : Nat}
    (narrow : greatest < 2 ^ 16) :
    (quantizeAxis localCoordinate exponent greatest).toNat ≤ greatest := by
  rw [quantizeAxis, UInt16.toNat_ofNat_of_lt' (Nat.lt_of_le_of_lt (Nat.min_le_right _ _) narrow)]
  exact Nat.min_le_right _ _

/-- A coordinate that is decoded and encoded again has the same code if it stands at one of
the ends, and the next lower one otherwise. -/
theorem quantizeAxis_dequantizeAxis {code greatest : UInt16} (positive : 0 < greatest.toNat)
    (inside : code.toNat ≤ greatest.toNat) (small : exponent ≤ 6) :
    (quantizeAxis (dequantizeAxis code exponent greatest) exponent greatest.toNat).toNat =
      if greatest.toNat ∣ code.toNat * 2 ^ 32 then code.toNat else code.toNat - 1 := by
  have decoded := toInt_dequantizeAxis positive inside small
  have fractionBound : ofCode (2 ^ 32) greatest.toNat code.toNat ≤ 2 ^ 32 := ofCode_le inside
  have nonneg : 0 ≤ (dequantizeAxis code exponent greatest).raw.toInt := by
    rw [decoded]
    exact Int.natCast_nonneg _
  have atMost : (dequantizeAxis code exponent greatest).raw.toInt ≤ 2 ^ exponent * 2 ^ 32 := by
    rw [decoded]
    exact_mod_cast Nat.mul_le_mul_left (2 ^ exponent) fractionBound
  have fraction : (dequantizeAxis code exponent greatest).raw.toInt.toNat / 2 ^ exponent =
      ofCode (2 ^ 32) greatest.toNat code.toNat := by
    rw [decoded, Int.toNat_natCast, Nat.mul_div_cancel_left _ (Nat.pow_pos (by decide))]
  rw [toNat_quantizeAxis nonneg atMost greatest.toNat_lt, fraction]
  exact toCode_ofCode positive (by have bound := greatest.toNat_lt; omega)

namespace QuantizedCellCoord

/-- The coordinate that an entity has after it was decoded and encoded. -/
def requantize (self : QuantizedCellCoord) : QuantizedCellCoord :=
  quantize self.dequantize.x self.dequantize.y self.dequantize.z

/-- Every coordinate stands at one of the two ends of its range. -/
def AtCorner (self : QuantizedCellCoord) : Prop :=
  (self.x = 0 ∨ self.x = 0xFFFF) ∧ (self.y = 0 ∨ self.y = maxQuantizedVertical) ∧
    (self.z = 0 ∨ self.z = 0xFFFF)

end QuantizedCellCoord

theorem requantizeAxis_eq_iff {code greatest : UInt16} {exponent : Nat}
    (positive : 0 < greatest.toNat) (odd : Nat.Coprime greatest.toNat (2 ^ 32))
    (inside : code.toNat ≤ greatest.toNat) (small : exponent ≤ 6) :
    quantizeAxis (dequantizeAxis code exponent greatest) exponent greatest.toNat = code ↔
      code = 0 ∨ code = greatest := by
  rw [← UInt16.toNat_inj, quantizeAxis_dequantizeAxis positive inside small,
    ← UInt16.toNat_inj, ← UInt16.toNat_inj, UInt16.toNat_zero, ← dvd_code_mul_iff odd inside]
  by_cases divides : greatest.toNat ∣ code.toNat * 2 ^ 32
  · rw [if_pos divides]
    exact iff_of_true rfl divides
  rw [if_neg divides]
  have notZero : code.toNat ≠ 0 := by
    intro isZero
    rw [isZero] at divides
    exact divides (Nat.dvd_zero _)
  exact iff_of_false (by omega) divides

theorem QuantizedCellCoord.quantize_dequantize_iff (coord : QuantizedCellCoord)
    (valid : coord.isValid = true) :
    quantize coord.dequantize.x coord.dequantize.y coord.dequantize.z = coord ↔ coord.AtCorner := by
  have greatestHorizontal : (0xFFFF : UInt16).toNat = 0xFFFF := by decide
  have greatestVertical : maxQuantizedVertical.toNat = 0x0FFF := by decide
  have horizontal : ∀ code : UInt16, quantizeAxis (dequantizeAxis code 6 0xFFFF) 6 0xFFFF = code ↔
        code = 0 ∨ code = 0xFFFF := by
    intro code
    have bound := code.toNat_lt
    have axis := @requantizeAxis_eq_iff code 0xFFFF 6 (by omega)
      (by decide) (by omega) (Nat.le_refl 6)
    exact axis
  have vertical : quantizeAxis (dequantizeAxis coord.y 5 maxQuantizedVertical) 5
      maxQuantizedVertical.toNat = coord.y ↔ coord.y = 0 ∨ coord.y = maxQuantizedVertical :=
    requantizeAxis_eq_iff (by omega)
      (by decide) (UInt16.le_iff_toNat_le.mp (of_decide_eq_true valid))
      (by decide)
  have parts : quantize coord.dequantize.x coord.dequantize.y coord.dequantize.z = coord ↔
      quantizeAxis (dequantizeAxis coord.x 6 0xFFFF) 6 0xFFFF = coord.x ∧
        quantizeAxis (dequantizeAxis coord.y 5 maxQuantizedVertical) 5
          maxQuantizedVertical.toNat = coord.y ∧
        quantizeAxis (dequantizeAxis coord.z 6 0xFFFF) 6 0xFFFF = coord.z := by
    rw [dequantize, and_eq_maxQuantizedVertical valid]
    exact (QuantizedCellCoord.mk.injEq _ _ _ _ _ _).to_iff
  rw [parts, horizontal, vertical, horizontal, AtCorner]

/-- Decoding and encoding gives a valid coordinate back exactly when it stands at the ends
of its ranges, and so does repeating it any number of times. -/
theorem QuantizedCellCoord.requantize_eq_iff (coord : QuantizedCellCoord)
    (valid : coord.isValid = true) :
    (quantize coord.dequantize.x coord.dequantize.y coord.dequantize.z = coord ↔ coord.AtCorner) ∧
    ((∀ times, requantize^[times] coord = coord) ↔ coord.AtCorner) := by
  have once := coord.quantize_dequantize_iff valid
  refine ⟨once, fun always => once.mp (always 1), fun atCorner times => ?_⟩
  exact Function.iterate_fixed (once.mpr atCorner) times

def nextToOrigin : QuantizedCellCoord :=
  QuantizedCellCoord.new 1 0 0

theorem nextToOrigin_moves : ¬ ∀ coord : QuantizedCellCoord, coord.isValid = true →
      QuantizedCellCoord.quantize coord.dequantize.x coord.dequantize.y coord.dequantize.z =
        coord := by
  intro stable
  have moved := stable nextToOrigin (by decide)
  revert moved
  decide

theorem requantize_eq_iff_origin : (QuantizedCellCoord.new 0 0 0).isValid = true ∧
    (QuantizedCellCoord.quantize (QuantizedCellCoord.new 0 0 0).dequantize.x
        (QuantizedCellCoord.new 0 0 0).dequantize.y (QuantizedCellCoord.new 0 0 0).dequantize.z =
          QuantizedCellCoord.new 0 0 0 ↔ (QuantizedCellCoord.new 0 0 0).AtCorner) ∧
    ((∀ times, QuantizedCellCoord.requantize^[times] (QuantizedCellCoord.new 0 0 0) =
        QuantizedCellCoord.new 0 0 0) ↔ (QuantizedCellCoord.new 0 0 0).AtCorner) :=
  ⟨by decide, QuantizedCellCoord.requantize_eq_iff (QuantizedCellCoord.new 0 0 0) (by decide)⟩

theorem toInt_saturatingAdd (left right : Fixed64) : (left.saturatingAdd right).raw.toInt =
      max (-2 ^ 63) (min (left.raw.toInt + right.raw.toInt) Fixed64.maxRaw) :=
  Fixed64.toInt_ofIntClamp _

def IsEdge (exponent : Nat) : Prop :=
  exponent = 5 ∨ exponent = 6

theorem toInt_cellIndex {coordinate : Fixed64} (edge : IsEdge exponent) :
    (cellIndex coordinate exponent).toInt = coordinate.raw.toInt / 2 ^ (32 + exponent) := by
  have low := coordinate.raw.le_toInt
  have high := coordinate.raw.toInt_lt
  rcases edge with rfl | rfl
  · exact Int32.toInt_ofInt_of_le (by omega) (by omega)
  exact Int32.toInt_ofInt_of_le (by omega) (by omega)

theorem toInt_cellOrigin {coordinate : Fixed64} {exponent : Nat} (edge : IsEdge exponent) :
    (cellOrigin (cellIndex coordinate exponent) exponent).raw.toInt =
      coordinate.raw.toInt / 2 ^ (32 + exponent) * 2 ^ (32 + exponent) := by
  have low := coordinate.raw.le_toInt
  have high := coordinate.raw.toInt_lt
  rw [cellOrigin, toInt_fromI32, toInt_cellIndex edge]
  rcases edge with rfl | rfl
  · rw [Int32.toInt_ofInt_of_le (by omega) (by omega)]
    omega
  rw [Int32.toInt_ofInt_of_le (by omega) (by omega)]
  omega

theorem toInt_withinCell {coordinate : Fixed64} {exponent : Nat} (edge : IsEdge exponent) :
    (withinCell coordinate exponent).raw.toInt = coordinate.raw.toInt % 2 ^ (32 + exponent) := by
  have origin := @toInt_cellOrigin coordinate exponent edge
  rw [cellOrigin] at origin
  rw [withinCell, Fixed64.toInt_saturatingSub, Fixed64.maxRaw]
  rcases edge with rfl | rfl
  · omega
  omega

variable (coordinate : Fixed64)

def decodedAxis (exponent : Nat) (greatest : UInt16) : Fixed64 :=
  (cellOrigin (cellIndex coordinate exponent) exponent).saturatingAdd
    (dequantizeAxis (quantizeAxis (withinCell coordinate exponent) exponent greatest.toNat)
      exponent greatest)

/-- A decoded coordinate is in the same cell, and not above the coordinate by what a code
loses of the fraction of the edge. -/
theorem toInt_decodedAxis {coordinate : Fixed64} {exponent : Nat} {greatest : UInt16}
    (edge : IsEdge exponent) (positive : 0 < greatest.toNat) :
    ∃ fraction decoded : Nat, decoded ≤ fraction ∧
      (fraction - decoded) * greatest.toNat < 2 ^ 32 + greatest.toNat ∧
      coordinate.raw.toInt % 2 ^ (32 + exponent) / 2 ^ exponent = fraction ∧
      (decodedAxis coordinate exponent greatest).raw.toInt =
        coordinate.raw.toInt / 2 ^ (32 + exponent) * 2 ^ (32 + exponent) +
          2 ^ exponent * decoded := by
  have low := coordinate.raw.le_toInt
  have high := coordinate.raw.toInt_lt
  have within := @toInt_withinCell coordinate exponent edge
  have origin := @toInt_cellOrigin coordinate exponent edge
  have small : exponent ≤ 6 := by
    rcases edge with rfl | rfl
    · decide
    decide
  have nonneg : 0 ≤ (withinCell coordinate exponent).raw.toInt := by
    rw [within]
    exact Int.emod_nonneg _ (by positivity)
  have inside : (withinCell coordinate exponent).raw.toInt ≤ 2 ^ exponent * 2 ^ 32 := by
    rw [within, ← Int.pow_add, Nat.add_comm]
    exact Int.le_of_lt (Int.emod_lt_of_pos _ (by positivity))
  have coded := toNat_quantizeAxis nonneg inside greatest.toNat_lt
  have codeInside : (quantizeAxis (withinCell coordinate exponent) exponent
      greatest.toNat).toNat ≤ greatest.toNat := by
    rw [coded]
    refine toCode_le ?_
    apply Nat.div_le_of_le_mul
    rw [Int.toNat_le]
    exact_mod_cast inside
  have decodedIs := toInt_dequantizeAxis positive codeInside small
  rw [coded] at decodedIs
  have fractionIs : coordinate.raw.toInt % 2 ^ (32 + exponent) / 2 ^ exponent =
      ((withinCell coordinate exponent).raw.toInt.toNat / 2 ^ exponent : Nat) := by
    rw [← within, Int.natCast_ediv, Int.toNat_of_nonneg nonneg, Nat.cast_pow, Nat.cast_ofNat]
  have decodedLe : ofCode (2 ^ 32) greatest.toNat (toCode (2 ^ 32) greatest.toNat
      ((withinCell coordinate exponent).raw.toInt.toNat / 2 ^ exponent)) ≤
        (withinCell coordinate exponent).raw.toInt.toNat / 2 ^ exponent := ofCode_toCode_le _
  refine ⟨_, _, decodedLe, loss_lt positive (by decide), fractionIs, ?_⟩
  rw [decodedAxis, toInt_saturatingAdd, Fixed64.maxRaw]
  rcases edge with rfl | rfl
  · omega
  omega

theorem cellIndex_decodedAxis {coordinate : Fixed64} {greatest : UInt16} (edge : IsEdge exponent)
    (positive : 0 < greatest.toNat) :
    cellIndex (decodedAxis coordinate exponent greatest) exponent =
      cellIndex coordinate exponent := by
  obtain ⟨fraction, decoded, atMost, -, fractionIs, decodedIs⟩ :=
    @toInt_decodedAxis coordinate exponent greatest edge positive
  refine congrArg Int32.ofInt ?_
  rcases edge with rfl | rfl
  · omega
  omega

theorem horizontal_loss : (decodedAxis coordinate 6 0xFFFF).raw.toInt ≤ coordinate.raw.toInt ∧
      1000 * (coordinate.raw.toInt - (decodedAxis coordinate 6 0xFFFF).raw.toInt) < 2 ^ 32 := by
  have greatest : (0xFFFF : UInt16).toNat = 65535 := by decide
  obtain ⟨fraction, decoded, atMost, loss, fractionIs, decodedIs⟩ :=
    @toInt_decodedAxis coordinate 6 0xFFFF (Or.inr rfl) (by decide)
  rw [greatest] at loss
  constructor
  · omega
  omega

theorem vertical_loss :
    (decodedAxis coordinate 5 maxQuantizedVertical).raw.toInt ≤ coordinate.raw.toInt ∧
      100000 * (coordinate.raw.toInt -
        (decodedAxis coordinate 5 maxQuantizedVertical).raw.toInt) < 782 * 2 ^ 32 := by
  have greatest : maxQuantizedVertical.toNat = 4095 := by decide
  obtain ⟨fraction, decoded, atMost, loss, fractionIs, decodedIs⟩ :=
    @toInt_decodedAxis coordinate 5 maxQuantizedVertical (Or.inl rfl) (by decide)
  rw [greatest] at loss
  constructor
  · omega
  omega

end Eidolon.Core
