import Eidolon.Core.Quant
import Eidolon.Library.Run

/-!
# Delta transforms

Updates of a transform against a baseline that the client has acknowledged, in four sizes,
and their packing into bytes.
-/

namespace Eidolon.Core

open List

def tier1HorizontalStep : Int := 16

def tier1VerticalStep : Int := 2

def tier1YawStep : Int := 4

def tier2HorizontalStep : Int := 8

def tier2VerticalStep : Int := 2

inductive DeltaTier where
  | stationary
  | small
  | medium
  | full
  deriving DecidableEq

namespace DeltaTier

def fromTag (tag : UInt8) : DeltaTier :=
  match (tag &&& 0x03).toNat with
  | 0 => stationary
  | 1 => small
  | 2 => medium
  | _ => full

def tag : DeltaTier → UInt8
  | stationary => 0
  | small => 1
  | medium => 2
  | full => 3

theorem fromTag_tag (tier : DeltaTier) : fromTag tier.tag = tier := by
  cases tier with
  | _ => rfl

end DeltaTier

inductive DeltaTransform where
  | stationary
  | small (dx dz dy dyaw : Int8)
  | medium (dx dz dy : Int8) (yaw : QuantizedYaw)
  | full (coord : QuantizedCellCoord) (yaw : QuantizedYaw) (flags : UInt8)
  deriving DecidableEq

namespace DeltaTransform

def tier : DeltaTransform → DeltaTier
  | stationary => .stationary
  | small _ _ _ _ => .small
  | medium _ _ _ _ => .medium
  | full _ _ _ => .full

def inSteps (difference step : Int) : Int :=
  (difference + step / 2 * difference.sign).tdiv step

variable (baseCoord : QuantizedCellCoord)

def compute (baseYaw : QuantizedYaw) (targetCoord : QuantizedCellCoord) (targetYaw : QuantizedYaw)
    (targetFlags : UInt8) :
    DeltaTransform :=
  if targetFlags &&& flagCellAnchor ≠ 0 then
    full targetCoord targetYaw targetFlags
  else
    let diffX : Int := targetCoord.x.toNat - baseCoord.x.toNat
    let diffY : Int := targetCoord.y.toNat - baseCoord.y.toNat
    let diffZ : Int := targetCoord.z.toNat - baseCoord.z.toNat
    let diffYaw := targetYaw.asByte.toInt8 - baseYaw.asByte.toInt8
    if diffX.natAbs < tier1HorizontalStep ∧ diffZ.natAbs < tier1HorizontalStep ∧
        diffY.natAbs < tier1VerticalStep ∧ diffYaw = 0 then
      stationary
    else
      let sDx := inSteps diffX tier1HorizontalStep
      let sDz := inSteps diffZ tier1HorizontalStep
      let sDy := inSteps diffY tier1VerticalStep
      let sDyaw := inSteps diffYaw.toInt tier1YawStep
      if (-8 ≤ sDx ∧ sDx ≤ 7) ∧ (-8 ≤ sDz ∧ sDz ≤ 7) ∧ (-4 ≤ sDy ∧ sDy ≤ 3) ∧
          (-4 ≤ sDyaw ∧ sDyaw ≤ 3) then
        small (Int8.ofInt sDx) (Int8.ofInt sDz) (Int8.ofInt sDy) (Int8.ofInt sDyaw)
      else
        let mDx := inSteps diffX tier2HorizontalStep
        let mDz := inSteps diffZ tier2HorizontalStep
        let mDy := inSteps diffY tier2VerticalStep
        if (-128 ≤ mDx ∧ mDx ≤ 127) ∧ (-128 ≤ mDz ∧ mDz ≤ 127) ∧ (-32 ≤ mDy ∧ mDy ≤ 31) then
          medium (Int8.ofInt mDx) (Int8.ofInt mDz) (Int8.ofInt mDy) targetYaw
        else
          full targetCoord targetYaw targetFlags

def packed : DeltaTransform → List UInt8
  | stationary => [DeltaTier.stationary.tag]
  | small dx dz dy dyaw =>
    let uDx := (dx + 8).toInt16.toUInt16 &&& 0x0F
    let uDz := (dz + 8).toInt16.toUInt16 &&& 0x0F
    let uDy := (dy + 4).toInt16.toUInt16 &&& 0x07
    let uDyaw := (dyaw + 4).toInt16.toUInt16 &&& 0x07
    let word := DeltaTier.small.tag.toUInt16 ||| (uDx <<< 2) ||| (uDz <<< 6) |||
      (uDy <<< 10) ||| (uDyaw <<< 13)
    [(word &&& 0xFF).toUInt8, ((word >>> 8) &&& 0xFF).toUInt8]
  | medium dx dz dy yaw =>
    let uDy := (dy + 32).toUInt8 &&& 0x3F
    [DeltaTier.medium.tag ||| (uDy <<< 2), dx.toUInt8, dz.toUInt8, yaw.asByte]
  | full coord yaw flags =>
    (DeltaTier.full.tag ||| ((flags &&& 0x0F) <<< 2)) :: coord.packWithYawAndFlags yaw flags

def packToSlice (self : DeltaTransform) (out : List UInt8) : Option Nat × List UInt8 :=
  if out.length < self.packed.length then
    (none, out)
  else
    (some self.packed.length, self.packed ++ out.drop self.packed.length)

def unpackFromSlice (slice : List UInt8) : Option (DeltaTransform × Nat) :=
  match slice with
  | [] => none
  | first :: rest =>
    match DeltaTier.fromTag first with
    | .stationary => some (stationary, 1)
    | .small =>
      match rest with
      | second :: _ =>
        let word := first.toUInt16 ||| (second.toUInt16 <<< 8)
        let uDx := ((word >>> 2) &&& (0x0F : UInt16)).toUInt8.toInt8
        let uDz := ((word >>> 6) &&& (0x0F : UInt16)).toUInt8.toInt8
        let uDy := ((word >>> 10) &&& (0x07 : UInt16)).toUInt8.toInt8
        let uDyaw := ((word >>> 13) &&& (0x07 : UInt16)).toUInt8.toInt8
        some (small (uDx - 8) (uDz - 8) (uDy - 4) (uDyaw - 4), 2)
      | _ => none
    | .medium =>
      match rest with
      | second :: third :: fourth :: _ =>
        let uDy := (first >>> 2) &&& (0x3F : UInt8)
        some (medium second.toInt8 third.toInt8 (uDy.toInt8 - 32) (QuantizedYaw.fromByte fourth), 4)
      | _ => none
    | .full =>
      if rest.length < 7 then
        none
      else
        let (coord, yaw, flags) :=
          QuantizedCellCoord.unpackWithYawAndFlags (rest.take 7)
        some (full coord yaw flags, 8)

/-- What is sent of an update: full ones have room for four flags and for the low twelve
bits of the vertical coordinate. -/
def onWire : DeltaTransform → DeltaTransform
  | full coord yaw flags =>
    full { coord with y := coord.y &&& maxQuantizedVertical } yaw (flags &&& 0x0F)
  | other => other

/-- The steps have the sizes that the tier has room for. -/
def Fits : DeltaTransform → Prop
  | small dx dz dy dyaw =>
    (-8 ≤ dx.toInt ∧ dx.toInt ≤ 7) ∧ (-8 ≤ dz.toInt ∧ dz.toInt ≤ 7) ∧
      (-4 ≤ dy.toInt ∧ dy.toInt ≤ 3) ∧ (-4 ≤ dyaw.toInt ∧ dyaw.toInt ≤ 3)
  | medium _ _ dy _ => -32 ≤ dy.toInt ∧ dy.toInt ≤ 31
  | _ => True

theorem toInt_ofInt_step {value : Int} (low : -128 ≤ value) (high : value ≤ 127) :
    (Int8.ofInt value).toInt = value :=
  Int8.toInt_ofInt_of_le low (by omega)

theorem fits_compute (baseYaw : QuantizedYaw) (targetCoord : QuantizedCellCoord)
    (targetYaw : QuantizedYaw) (targetFlags : UInt8) :
    (compute baseCoord baseYaw targetCoord targetYaw targetFlags).Fits := by
  rw [compute]
  split
  · trivial
  simp only
  split
  · trivial
  split
  · rename_i small
    obtain ⟨dx, dz, dy, dyaw⟩ := small
    rw [Fits, toInt_ofInt_step (by omega) (by omega), toInt_ofInt_step (by omega) (by omega),
      toInt_ofInt_step (by omega) (by omega), toInt_ofInt_step (by omega) (by omega)]
    exact ⟨dx, dz, dy, dyaw⟩
  split
  · rename_i medium
    obtain ⟨_, _, dy⟩ := medium
    rw [Fits, toInt_ofInt_step (by omega) (by omega)]
    exact dy
  trivial

theorem full_of_compute {baseCoord : QuantizedCellCoord} {baseYaw : QuantizedYaw}
    {targetCoord : QuantizedCellCoord} {targetYaw : QuantizedYaw} {targetFlags : UInt8}
    {coord : QuantizedCellCoord} {yaw : QuantizedYaw} {flags : UInt8}
    (isFull : compute baseCoord baseYaw targetCoord targetYaw targetFlags = full coord yaw flags) :
    coord = targetCoord ∧ flags = targetFlags := by
  rw [compute] at isFull
  split at isFull
  · cases isFull
    exact ⟨rfl, rfl⟩
  simp only at isFull
  split at isFull
  · cases isFull
  split at isFull
  · cases isFull
  split at isFull
  · cases isFull
  cases isFull
  exact ⟨rfl, rfl⟩

variable {self : DeltaTransform}

theorem onWire_of_valid (valid : ∀ coord yaw flags, self = full coord yaw flags →
      coord.isValid = true ∧ flags.toNat < 16) : self.onWire = self := by
  cases self with
  | full coord yaw flags =>
    obtain ⟨isValid, fewFlags⟩ := valid coord yaw flags rfl
    rw [onWire, and_eq_maxQuantizedVertical isValid,
      @and_eq_self8 flags 0x0F 4 (by omega) (by decide)]
  | _ => rfl

theorem exists_biased {step : Int8} {bias : Nat} (low : -bias ≤ step.toInt)
    (high : step.toInt < bias) : ∃ index : Fin (2 * bias), step = Int8.ofInt (index.val - bias) := by
  refine ⟨⟨(step.toInt + bias).toNat, by omega⟩, ?_⟩
  rw [Int.toNat_of_nonneg (by omega), Int.add_sub_cancel, Int8.ofInt_toInt]

variable {step : Int8}

theorem unbiased4 (low : -8 ≤ step.toInt) (high : step.toInt ≤ 7) :
    ((step + 8).toInt16.toUInt16 &&& 0x0F).toUInt8.toInt8 - 8 = step := by
  obtain ⟨index, isStep⟩ := @exists_biased step 8 low (by omega)
  rw [isStep]
  clear isStep
  revert index
  decide

theorem unbiased3 (low : -4 ≤ step.toInt) (high : step.toInt ≤ 3) :
    ((step + 4).toInt16.toUInt16 &&& 0x07).toUInt8.toInt8 - 4 = step := by
  obtain ⟨index, isStep⟩ := @exists_biased step 4 low (by omega)
  rw [isStep]
  clear isStep
  revert index
  decide

theorem unbiased6 (low : -32 ≤ step.toInt) (high : step.toInt ≤ 31) :
    ((step + 32).toUInt8 &&& 0x3F).toInt8 - 32 = step := by
  obtain ⟨index, isStep⟩ := @exists_biased step 32 low (by omega)
  rw [isStep]
  clear isStep
  revert index
  decide

theorem fields_of_word (dx dz dy dyaw : UInt16) :
    let word := DeltaTier.small.tag.toUInt16 ||| ((dx &&& 0x0F) <<< 2) |||
      ((dz &&& 0x0F) <<< 6) ||| ((dy &&& 0x07) <<< 10) ||| ((dyaw &&& 0x07) <<< 13)
    (word >>> 2) &&& 0x0F = dx &&& 0x0F ∧ (word >>> 6) &&& 0x0F = dz &&& 0x0F ∧
      (word >>> 10) &&& 0x07 = dy &&& 0x07 ∧ (word >>> 13) &&& 0x07 = dyaw &&& 0x07 ∧
        (word &&& 0xFF).toUInt8 &&& 0x03 = 1 := by
  have tag : DeltaTier.small.tag.toUInt16 = 1 := by decide
  rw [tag]
  refine ⟨?_, ?_, ?_, ?_, ?_⟩
  · apply eq_of_bits16
    intro place inside
    interval_cases place
    all_goals simp
  · apply eq_of_bits16
    intro place inside
    interval_cases place
    all_goals simp
  · apply eq_of_bits16
    intro place inside
    interval_cases place
    all_goals simp
  · apply eq_of_bits16
    intro place inside
    interval_cases place
    all_goals simp
  apply eq_of_bits8
  intro place inside
  interval_cases place
  all_goals simp

theorem fromTag_or (tier : DeltaTier) (field : UInt8) :
    DeltaTier.fromTag (tier.tag ||| (field <<< 2)) = tier := by
  have low : (tier.tag ||| (field <<< 2)) &&& 0x03 = tier.tag &&& 0x03 := by
    apply eq_of_bits8
    intro place inside
    interval_cases place
    all_goals simp
  rw [DeltaTier.fromTag, low]
  exact DeltaTier.fromTag_tag tier

theorem field_of_medium (field : UInt8) :
    ((DeltaTier.medium.tag ||| ((field &&& 0x3F) <<< 2)) >>> 2) &&& 0x3F = field &&& 0x3F := by
  have tag : DeltaTier.medium.tag = 2 := rfl
  rw [tag]
  apply eq_of_bits8
  intro place inside
  interval_cases place
  all_goals simp

theorem unpackFromSlice_packed (fits : self.Fits) (rest : List UInt8) :
    unpackFromSlice (self.packed ++ rest) = some (self.onWire, self.packed.length) := by
  cases self with
  | stationary => rfl
  | small dx dz dy dyaw =>
    obtain ⟨⟨dxLow, dxHigh⟩, ⟨dzLow, dzHigh⟩, ⟨dyLow, dyHigh⟩, dyawLow, dyawHigh⟩ := fits
    obtain ⟨xField, zField, yField, yawField, tag⟩ := fields_of_word
      (dx + 8).toInt16.toUInt16 (dz + 8).toInt16.toUInt16 (dy + 4).toInt16.toUInt16
        (dyaw + 4).toInt16.toUInt16
    rw [packed]
    simp only [cons_append, nil_append]
    rw [unpackFromSlice, DeltaTier.fromTag, tag]
    simp only [joined_bytes, xField, zField, yField, yawField, unbiased4 dxLow dxHigh,
      unbiased4 dzLow dzHigh, unbiased3 dyLow dyHigh, unbiased3 dyawLow dyawHigh]
    rfl
  | medium dx dz dy yaw =>
    rw [packed]
    simp only [cons_append, nil_append]
    rw [unpackFromSlice, fromTag_or]
    simp only [field_of_medium, unbiased6 fits.1 fits.2, Int8.toInt8_toUInt8]
    rfl
  | full coord yaw flags =>
    have length : (coord.packWithYawAndFlags yaw flags).length = 7 := rfl
    rw [packed, cons_append]
    unfold unpackFromSlice
    simp only [fromTag_or]
    rw [if_neg, take_left' length, QuantizedCellCoord.unpack_pack]
    · rfl
    rw [length_append]
    omega

theorem unpackFromSlice_packToSlice (fits : self.Fits) {out after : List UInt8} {count : Nat}
    (written : self.packToSlice out = (some count, after)) :
    unpackFromSlice after = some (self.onWire, count) := by
  rw [packToSlice] at written
  split at written
  · cases written
  cases written
  exact unpackFromSlice_packed fits _

end DeltaTransform

end Eidolon.Core

/-!
## Following a target by deltas

What an update does to the state that it is computed against.  A step is rounded to the
nearest multiple of its size and a deadband swallows what is small, but every update is
computed against the state that was reached, so that nothing adds up along a run.
-/

namespace Eidolon.Core

open Library List

namespace DeltaTransform

/-- A coordinate moved by so many steps and cut off at the ends of its range. -/
def moved (base : UInt16) (steps : Int8) (step : Int) (greatest : Nat) : UInt16 :=
  UInt16.ofNat (max 0 (min (base.toNat + steps.toInt * step) greatest)).toNat

def apply (self : DeltaTransform) (baseCoord : QuantizedCellCoord) (baseYaw : QuantizedYaw) :
    QuantizedCellCoord × QuantizedYaw × UInt8 :=
  match self with
  | stationary => (baseCoord, baseYaw, 0)
  | small dx dz dy dyaw =>
    (QuantizedCellCoord.new (moved baseCoord.x dx tier1HorizontalStep 0xFFFF)
        (moved baseCoord.y dy tier1VerticalStep 4095)
        (moved baseCoord.z dz tier1HorizontalStep 0xFFFF),
      QuantizedYaw.fromByte (baseYaw.asByte + (dyaw * Int8.ofInt tier1YawStep).toUInt8), 0)
  | medium dx dz dy yaw =>
    (QuantizedCellCoord.new (moved baseCoord.x dx tier2HorizontalStep 0xFFFF)
        (moved baseCoord.y dy tier2VerticalStep 4095)
        (moved baseCoord.z dz tier2HorizontalStep 0xFFFF),
      yaw, 0)
  | full coord yaw flags => (coord, yaw, flags)

theorem inSteps_eq {step : Int} (positive : 0 < step) (difference : Int) : inSteps difference step =
      if 0 ≤ difference then (difference + step / 2) / step
      else -((step / 2 - difference) / step) := by
  rw [inSteps]
  rcases Int.lt_trichotomy difference 0 with negative | zero | above
  · have mirrored : difference + step / 2 * difference.sign = -(step / 2 - difference) := by
      rw [Int.sign_eq_neg_one_of_neg negative]
      omega
    rw [if_neg (by omega), mirrored, Int.neg_tdiv, Int.tdiv_eq_ediv_of_nonneg (by omega)]
  · subst zero
    have nothing : step / 2 / step = 0 := Int.ediv_eq_zero_of_lt (by omega) (by omega)
    rw [Int.sign_zero, Int.mul_zero, Int.add_zero, Int.zero_tdiv, if_pos (Int.le_refl 0),
      Int.zero_add, nothing]
  rw [Int.sign_eq_one_of_pos above, Int.mul_one, if_pos (by omega),
    Int.tdiv_eq_ediv_of_nonneg (by omega)]

theorem inSteps_near {step difference : Int} (known : step = 16 ∨ step = 8 ∨ step = 4 ∨ step = 2) :
    -(step / 2) ≤ difference - inSteps difference step * step ∧
      difference - inSteps difference step * step ≤ step / 2 := by
  have positive : 0 < step := by
    omega
  rw [inSteps_eq positive]
  rcases known with rfl | rfl | rfl | rfl
  · split <;> omega
  · split <;> omega
  · split <;> omega
  split <;> omega

theorem moved_near {base target : UInt16} {step : Int} {greatest : Nat}
    (known : step = 16 ∨ step = 8 ∨ step = 4 ∨ step = 2) (narrow : greatest < 2 ^ 16)
    (inside : target.toNat ≤ greatest) (low : -128 ≤ inSteps (target.toNat - base.toNat) step)
    (high : inSteps (target.toNat - base.toNat) step ≤ 127) :
    (moved base (Int8.ofInt (inSteps (target.toNat - base.toNat) step)) step greatest).toNat ≤
        greatest ∧
      ((target.toNat : Int) - (moved base
        (Int8.ofInt (inSteps (target.toNat - base.toNat) step)) step greatest).toNat).natAbs ≤
          step / 2 := by
  obtain ⟨below, above⟩ := @inSteps_near step ((target.toNat : Int) - base.toNat) known
  rw [moved, toInt_ofInt_step low high]
  generalize inSteps ((target.toNat : Int) - base.toNat) step * step = change at below above
  have atMost : (max 0 (min ((base.toNat : Int) + change) greatest)).toNat ≤ greatest := by
    omega
  rw [UInt16.toNat_ofNat_of_lt' (Nat.lt_of_le_of_lt atMost narrow)]
  constructor
  · exact atMost
  omega

def turn (source target : QuantizedYaw) : Int :=
  (target.asByte.toInt8 - source.asByte.toInt8).toInt

theorem sub_add_eq8 (first second third : Int8) :
    first - (second + third) = first - second - third := by
  grind

theorem turn_small {baseYaw targetYaw : QuantizedYaw}
    (low : -4 ≤ inSteps (turn baseYaw targetYaw) tier1YawStep)
    (high : inSteps (turn baseYaw targetYaw) tier1YawStep ≤ 3) :
    (turn (QuantizedYaw.fromByte (baseYaw.asByte +
      (Int8.ofInt (inSteps (turn baseYaw targetYaw) tier1YawStep) *
        Int8.ofInt tier1YawStep).toUInt8)) targetYaw).natAbs ≤ 2 := by
  obtain ⟨below, above⟩ := @inSteps_near tier1YawStep (turn baseYaw targetYaw)
    (.inr (.inr (.inl rfl)))
  rw [tier1YawStep] at low high below above ⊢
  generalize steps : inSteps (turn baseYaw targetYaw) 4 = count at low high below above ⊢
  have rest : targetYaw.asByte.toInt8 - (baseYaw.asByte +
      (Int8.ofInt count * Int8.ofInt 4).toUInt8).toInt8 =
        targetYaw.asByte.toInt8 - baseYaw.asByte.toInt8 - Int8.ofInt count * Int8.ofInt 4 := by
    rw [UInt8.toInt8_add]
    exact sub_add_eq8 _ _ _
  have countIs : (Int8.ofInt count * Int8.ofInt 4).toInt = count * 4 := by
    have four : (Int8.ofInt 4).toInt = 4 := by decide
    rw [Int8.toInt_mul, toInt_ofInt_step (by omega) (by omega), four]
    exact Int.bmod_eq_of_le (by omega) (by omega)
  have turned : (targetYaw.asByte.toInt8 - baseYaw.asByte.toInt8).toInt =
      turn baseYaw targetYaw := rfl
  change (targetYaw.asByte.toInt8 - (baseYaw.asByte +
    (Int8.ofInt count * Int8.ofInt 4).toUInt8).toInt8).toInt.natAbs ≤ 2
  rw [rest, Int8.toInt_sub, Int.bmod_eq_of_le (by omega) (by omega)]
  omega

/-- The four outcomes of `compute`, with what the state and the target have to do with each
other. -/
theorem compute_cases (baseCoord : QuantizedCellCoord) (baseYaw : QuantizedYaw)
    (targetCoord : QuantizedCellCoord) (targetYaw : QuantizedYaw) {targetFlags : UInt8}
    (noAnchor : targetFlags &&& flagCellAnchor = 0) :
    let diffX : Int := targetCoord.x.toNat - baseCoord.x.toNat
    let diffY : Int := targetCoord.y.toNat - baseCoord.y.toNat
    let diffZ : Int := targetCoord.z.toNat - baseCoord.z.toNat
    let update := compute baseCoord baseYaw targetCoord targetYaw targetFlags
    (update = stationary ∧ diffX.natAbs < 16 ∧ diffZ.natAbs < 16 ∧ diffY.natAbs < 2 ∧
      turn baseYaw targetYaw = 0) ∨
    (update = small (Int8.ofInt (inSteps diffX 16)) (Int8.ofInt (inSteps diffZ 16))
        (Int8.ofInt (inSteps diffY 2)) (Int8.ofInt (inSteps (turn baseYaw targetYaw) 4)) ∧
      (-8 ≤ inSteps diffX 16 ∧ inSteps diffX 16 ≤ 7) ∧
      (-8 ≤ inSteps diffZ 16 ∧ inSteps diffZ 16 ≤ 7) ∧
      (-4 ≤ inSteps diffY 2 ∧ inSteps diffY 2 ≤ 3) ∧
      (-4 ≤ inSteps (turn baseYaw targetYaw) 4 ∧ inSteps (turn baseYaw targetYaw) 4 ≤ 3)) ∨
    (update = medium (Int8.ofInt (inSteps diffX 8)) (Int8.ofInt (inSteps diffZ 8))
        (Int8.ofInt (inSteps diffY 2)) targetYaw ∧
      (-128 ≤ inSteps diffX 8 ∧ inSteps diffX 8 ≤ 127) ∧
      (-128 ≤ inSteps diffZ 8 ∧ inSteps diffZ 8 ≤ 127) ∧
      (-32 ≤ inSteps diffY 2 ∧ inSteps diffY 2 ≤ 31)) ∨
    (update = full targetCoord targetYaw targetFlags ∧
      ¬ ((-128 ≤ inSteps diffX 8 ∧ inSteps diffX 8 ≤ 127) ∧
        (-128 ≤ inSteps diffZ 8 ∧ inSteps diffZ 8 ≤ 127) ∧
        (-32 ≤ inSteps diffY 2 ∧ inSteps diffY 2 ≤ 31))) := by
  intro diffX diffY diffZ update
  have unfolded : update = compute baseCoord baseYaw targetCoord targetYaw targetFlags := rfl
  rw [compute, if_neg (not_not.mpr noAnchor)] at unfolded
  dsimp only at unfolded
  split at unfolded
  · rename_i still
    obtain ⟨stillX, stillZ, stillY, sameYaw⟩ := still
    rw [tier1HorizontalStep] at stillX stillZ
    rw [tier1VerticalStep] at stillY
    refine .inl ⟨unfolded, by omega, by omega, by omega, ?_⟩
    rw [turn, sameYaw]
    rfl
  split at unfolded
  · rename_i ranges
    exact .inr (.inl ⟨unfolded, ranges⟩)
  split at unfolded
  · rename_i ranges
    exact .inr (.inr (.inl ⟨unfolded, ranges⟩))
  rename_i ranges
  exact .inr (.inr (.inr ⟨unfolded, ranges⟩))

end DeltaTransform

open DeltaTransform

/-- A transform without flags. -/
abbrev DeltaState : Type := QuantizedCellCoord × QuantizedYaw

/-- A transform that a state is to follow. -/
structure DeltaTarget where
  coord : QuantizedCellCoord
  yaw : QuantizedYaw
  flags : UInt8
  deriving DecidableEq

namespace DeltaTarget

/-- The coordinate is valid and no flag asks for a cell anchor. -/
def Valid (target : DeltaTarget) : Prop :=
  target.coord.isValid = true ∧ target.flags &&& flagCellAnchor = 0

def update (target : DeltaTarget) (state : DeltaState) : DeltaTransform :=
  compute state.1 state.2 target.coord target.yaw target.flags

end DeltaTarget

variable (state : DeltaState) (target : DeltaTarget)

/-- Both sides adopt the state that the update leads to. -/
def follow : DeltaState :=
  let (coord, yaw, _) := (target.update state).apply state.1 state.2
  (coord, yaw)

/-- A state is within 15 units of a target horizontally, one vertically and two steps of yaw
on the circle. -/
structure Near (state : DeltaState) (target : DeltaTarget) : Prop where
  x : ((target.coord.x.toNat : Int) - state.1.x.toNat).natAbs ≤ 15
  y : ((target.coord.y.toNat : Int) - state.1.y.toNat).natAbs ≤ 1
  z : ((target.coord.z.toNat : Int) - state.1.z.toNat).natAbs ≤ 15
  yaw : (turn state.2 target.yaw).natAbs ≤ 2

def HeldButFlags : DeltaTransform → Prop
  | .full coord _ _ => coord.isValid = true
  | update => update.Fits

def Held (update : DeltaTransform) : Prop :=
  HeldButFlags update ∧ ∀ coord yaw flags, update = .full coord yaw flags → flags.toNat < 16

theorem near_moved {baseCoord targetCoord : QuantizedCellCoord} {step : Int}
    (horizontal : step = 16 ∨ step = 8) (valid : targetCoord.isValid = true)
    (rangeX : -128 ≤ inSteps (targetCoord.x.toNat - baseCoord.x.toNat) step ∧
      inSteps (targetCoord.x.toNat - baseCoord.x.toNat) step ≤ 127)
    (rangeZ : -128 ≤ inSteps (targetCoord.z.toNat - baseCoord.z.toNat) step ∧
      inSteps (targetCoord.z.toNat - baseCoord.z.toNat) step ≤ 127)
    (rangeY : -128 ≤ inSteps (targetCoord.y.toNat - baseCoord.y.toNat) 2 ∧
      inSteps (targetCoord.y.toNat - baseCoord.y.toNat) 2 ≤ 127)
    {targetYaw stateYaw : QuantizedYaw} (flags : UInt8)
    (turned : (turn stateYaw targetYaw).natAbs ≤ 2) :
    Near (QuantizedCellCoord.new
        (moved baseCoord.x (Int8.ofInt (inSteps (targetCoord.x.toNat - baseCoord.x.toNat) step))
          step 0xFFFF)
        (moved baseCoord.y (Int8.ofInt (inSteps (targetCoord.y.toNat - baseCoord.y.toNat) 2))
          2 4095)
        (moved baseCoord.z (Int8.ofInt (inSteps (targetCoord.z.toNat - baseCoord.z.toNat) step))
          step 0xFFFF), stateYaw) ⟨targetCoord, targetYaw, flags⟩ := by
  have known : step = 16 ∨ step = 8 ∨ step = 4 ∨ step = 2 := by
    omega
  have limit : maxQuantizedVertical.toNat = 4095 := by decide
  have targetY := UInt16.le_iff_toNat_le.mp (of_decide_eq_true valid)
  have targetX := targetCoord.x.toNat_lt
  have targetZ := targetCoord.z.toNat_lt
  obtain ⟨-, nearX⟩ := @moved_near baseCoord.x targetCoord.x step 0xFFFF known (by decide)
    (by omega) rangeX.1 rangeX.2
  obtain ⟨-, nearZ⟩ := @moved_near baseCoord.z targetCoord.z step 0xFFFF known (by decide)
    (by omega) rangeZ.1 rangeZ.2
  obtain ⟨insideY, nearY⟩ := @moved_near baseCoord.y targetCoord.y 2 4095
    (.inr (.inr (.inr rfl))) (by decide) (by omega) rangeY.1 rangeY.2
  have notAbove : ¬ maxQuantizedVertical < moved baseCoord.y
      (Int8.ofInt (inSteps (targetCoord.y.toNat - baseCoord.y.toNat) 2)) 2 4095 := by
    rw [UInt16.lt_iff_toNat_lt]
    omega
  rw [QuantizedCellCoord.new, if_neg notAbove]
  exact ⟨by dsimp only; omega, by dsimp only; omega, by dsimp only; omega, turned⟩

theorem turn_self (yaw : QuantizedYaw) : turn yaw yaw = 0 := by
  rw [turn, Int8.sub_self]
  rfl

theorem wider {value low high lower higher : Int} (below : lower ≤ low) (above : high ≤ higher)
    (range : low ≤ value ∧ value ≤ high) : lower ≤ value ∧ value ≤ higher :=
  ⟨Int.le_trans below range.1, Int.le_trans range.2 above⟩

theorem near_follow {target : DeltaTarget} (valid : target.Valid) :
    Near (follow state target) target := by
  obtain ⟨coord, yaw⟩ := state
  obtain ⟨targetCoord, targetYaw, flags⟩ := target
  obtain ⟨isValid, noAnchor⟩ := valid
  rw [follow, DeltaTarget.update]
  rcases compute_cases coord yaw targetCoord targetYaw noAnchor with
    ⟨isUpdate, stillX, stillZ, stillY, sameYaw⟩ | ⟨isUpdate, rangeX, rangeZ, rangeY, rangeYaw⟩ |
      ⟨isUpdate, rangeX, rangeZ, rangeY⟩ | ⟨isUpdate, -⟩
  · rw [isUpdate]
    refine ⟨?_, ?_, ?_, ?_⟩
    · dsimp only [apply]
      omega
    · dsimp only [apply]
      omega
    · dsimp only [apply]
      omega
    dsimp only [apply]
    omega
  · rw [isUpdate]
    exact near_moved (.inl rfl) isValid (wider (by decide) (by decide) rangeX)
      (wider (by decide) (by decide) rangeZ) (wider (by decide) (by decide) rangeY) flags
      (turn_small rangeYaw.1 rangeYaw.2)
  · rw [isUpdate]
    refine near_moved (.inr rfl) isValid rangeX rangeZ (wider (by decide) (by decide) rangeY)
      flags ?_
    rw [turn_self]
    decide
  rw [isUpdate]
  refine ⟨?_, ?_, ?_, ?_⟩
  · dsimp only [apply]
    omega
  · dsimp only [apply]
    omega
  · dsimp only [apply]
    omega
  dsimp only [apply]
  rw [turn_self]
  decide

theorem held_update {target : DeltaTarget} (valid : target.Valid) :
    HeldButFlags (target.update state) ∧
      (target.flags.toNat < 16 → Held (target.update state)) := by
  have fits : (target.update state).Fits := fits_compute _ _ _ _ _
  have isTarget : ∀ coord yaw flags, target.update state = .full coord yaw flags →
      coord = target.coord ∧ flags = target.flags :=
    fun coord yaw flags isFull => full_of_compute isFull
  have heldButFlags : HeldButFlags (target.update state) := by
    cases outcome : target.update state with
    | full coord yaw flags =>
      rw [(isTarget coord yaw flags outcome).1]
      exact valid.1
    | stationary => trivial
    | _ =>
      rw [outcome] at fits
      exact fits
  refine ⟨heldButFlags, fun few => ⟨heldButFlags, fun coord yaw flags isFull => ?_⟩⟩
  rw [(isTarget coord yaw flags isFull).2]
  exact few

/-- What is asked of a step: the state that is reached is near the target, and the update
fits its wire form. -/
def Follows : Prop :=
  Near (follow state target) target ∧ Held (target.update state)

/-- The same, where flags beyond the four that are sent may be lost. -/
def FollowsButFlags : Prop :=
  Near (follow state target) target ∧ HeldButFlags (target.update state) ∧
    (target.flags.toNat < 16 → Held (target.update state))

/-- Along every run of valid targets each step ends near its target, whatever the start. -/
theorem followsButFlags_throughout (start : DeltaState) {targets : List DeltaTarget}
    (valid : ∀ target ∈ targets, target.Valid) : EachStep follow FollowsButFlags start targets := by
  have assumed : EachStep follow (fun _ target => target.Valid) start targets :=
    eachStep_of_forall valid start
  have always : ∀ state : DeltaState, ∀ target : DeltaTarget, True → target.Valid → True :=
    fun _ _ _ _ => trivial
  exact eachStep_of_invariant always
    (fun state target _ now => ⟨near_follow state now, held_update state now⟩) trivial assumed

/-- A jump with a small step behind it. -/
theorem followsButFlags_jump : EachStep follow FollowsButFlags (⟨0, 0, 0⟩, ⟨0⟩)
      [⟨⟨65535, 4095, 0⟩, ⟨255⟩, 7⟩, ⟨⟨65500, 4090, 30⟩, ⟨2⟩, 0⟩] := by
  refine followsButFlags_throughout _ ?_
  intro target member
  simp only [mem_cons, not_mem_nil, or_false] at member
  rcases member with rfl | rfl
  · exact ⟨by decide, by decide⟩
  exact ⟨by decide, by decide⟩

/-- A full update with a flag that is not among the four that are sent. -/
theorem not_follows_immobilized :
    ¬ ∀ (start : DeltaState) (targets : List DeltaTarget), start.1.isValid = true →
      (∀ target ∈ targets, target.Valid) → EachStep follow Follows start targets := by
  intro all
  have steps := all (⟨0, 0, 0⟩, ⟨0⟩) [⟨⟨60000, 0, 0⟩, ⟨0⟩, 16⟩] (by decide) (by
    intro target member
    obtain rfl := List.mem_singleton.mp member
    exact ⟨by decide, by decide⟩)
  have few := steps.1.2.2 ⟨60000, 0, 0⟩ ⟨0⟩ 16 (by decide)
  exact absurd few (by decide)

end Eidolon.Core
