import Mathlib.Algebra.Order.Ring.Int
import Mathlib.Tactic.Ring
import Eidolon.Core.Fixed

/-!
# Distances of fixed-point vectors

A squared distance is the sum of the squares along the three axes, each rounded down, where
every step is cut off at the largest number.  Below that number nothing has been cut off.
-/

namespace Eidolon.Core

open Nat

namespace Fixed64

def maxRaw : Int := 2 ^ 63 - 1

theorem toInt_le_maxRaw (self : Fixed64) : self.raw.toInt ≤ maxRaw := by
  have bound := self.raw.toInt_lt
  rw [maxRaw]
  omega

theorem toInt_ofIntClamp (value : Int) :
    (Int64.ofIntClamp value).toInt = max (-2 ^ 63) (min value maxRaw) := by
  have least : Int64.minValue.toInt = -2 ^ 63 := by decide
  have greatest : Int64.maxValue.toInt = maxRaw := by decide
  rw [Int64.ofIntClamp, maxRaw]
  rw [maxRaw] at greatest
  split
  · split
    · rw [Int64.toInt_ofIntLE]
      omega
    omega
  omega

theorem toInt_ofIntClamp_of_nonneg {value : Int} (nonneg : 0 ≤ value) :
    (Int64.ofIntClamp value).toInt = min value maxRaw := by
  rw [toInt_ofIntClamp, maxRaw]
  omega

theorem le_iff {left right : Fixed64} : left ≤ right ↔ left.raw.toInt ≤ right.raw.toInt :=
  Int64.le_iff_toInt_le

theorem lt_iff {left right : Fixed64} : left < right ↔ left.raw.toInt < right.raw.toInt :=
  Int64.lt_iff_toInt_lt

theorem sqrtLoop_eq {number found digits remainder root : Nat}
    (remains : remainder + found * found = number) (shifted : root = found * 2 ^ digits)
    (below : number < (found + 2 ^ digits) * (found + 2 ^ digits))
    (divides : 2 ^ digits ∣ found) : sqrtLoop digits remainder root = Nat.sqrt number := by
  induction digits generalizing found remainder root with
  | zero =>
    rw [pow_zero, mul_one] at shifted
    rw [sqrtLoop, shifted]
    apply le_antisymm
    · rw [le_sqrt]
      omega
    exact Nat.lt_succ_iff.mp (Nat.sqrt_lt.mpr below)
  | succ digits ih =>
    have place : 2 ^ (digits + 1) = 2 ^ digits + 2 ^ digits := by
      rw [Nat.pow_succ, Nat.mul_two]
    have square : (4 : Nat) ^ digits = 2 ^ digits * 2 ^ digits := by
      rw [← Nat.mul_pow]
    have halved : root / 2 = found * 2 ^ digits := by
      rw [shifted, place, Nat.mul_add, ← Nat.two_mul, Nat.mul_div_cancel_left _ (by decide)]
    have smaller : 2 ^ digits ∣ found := dvd_trans ⟨2, Nat.pow_succ _ _⟩ divides
    have doubled : root = found * 2 ^ digits + found * 2 ^ digits := by
      rw [shifted, place, Nat.mul_add]
    -- The square of the root with the next digit set.
    have next : (found + 2 ^ digits) * (found + 2 ^ digits) =
        found * found + (root + 4 ^ digits) := by
      rw [doubled, square]
      ring
    rw [sqrtLoop]
    split
    · refine @ih (found + 2 ^ digits) _ _ ?_ ?_ ?_ ?_
      · omega
      · rw [halved, square, add_mul]
      · rw [add_assoc, ← place]
        exact below
      exact Nat.dvd_add smaller (dvd_refl _)
    refine ih remains halved ?_ smaller
    omega

theorem sqrtLoop_log2 (number : Nat) :
    sqrtLoop (Nat.log2 number / 2 + 1) number 0 = Nat.sqrt number := by
  refine sqrtLoop_eq (by rw [Nat.add_zero]) (Nat.zero_mul _).symm ?_ (dvd_zero _)
  rw [zero_add, ← pow_add]
  refine lt_of_lt_of_le Nat.lt_log2_self (Nat.pow_le_pow_right (by decide) ?_)
  omega

theorem sqrt_toInt {self : Fixed64} (positive : 0 < self.raw.toInt) :
    self.sqrt.raw.toInt = Nat.sqrt (self.raw.toInt * 2 ^ 32).toNat := by
  have notNegative : ¬ self.raw ≤ 0 := by
    rw [Int64.le_iff_toInt_le]
    have zeroIs : (0 : Int64).toInt = 0 := by decide
    omega
  have bound := self.raw.toInt_lt
  have small : Nat.sqrt (self.raw.toInt * 2 ^ 32).toNat < 2 ^ 48 := by
    rw [sqrt_lt]
    omega
  rw [sqrt, if_neg notNegative]
  simp only [sqrtLoop_log2, scale]
  rw [toInt_ofIntClamp, maxRaw]
  omega

def axisSquare (left right : Fixed64) : Fixed64 :=
  (left.saturatingSub right).saturatingMul (left.saturatingSub right)

theorem toInt_saturatingSub (left right : Fixed64) : (left.saturatingSub right).raw.toInt =
      max (-2 ^ 63) (min (left.raw.toInt - right.raw.toInt) maxRaw) :=
  toInt_ofIntClamp _

theorem toInt_saturatingAdd_of_nonneg {left right : Fixed64} (first : 0 ≤ left.raw.toInt)
    (second : 0 ≤ right.raw.toInt) :
    (left.saturatingAdd right).raw.toInt = min (left.raw.toInt + right.raw.toInt) maxRaw := by
  apply toInt_ofIntClamp_of_nonneg
  omega

theorem toInt_mul_self (self : Fixed64) : (self.saturatingMul self).raw.toInt =
      min (self.raw.toInt * self.raw.toInt / 2 ^ 32) maxRaw := by
  apply toInt_ofIntClamp_of_nonneg
  exact Int.ediv_nonneg (mul_self_nonneg _) (by decide)

theorem square_le_square {value other : Int} (closer : value.natAbs ≤ other.natAbs) :
    value * value ≤ other * other := by
  rw [← Int.natAbs_mul_self, ← Int.natAbs_mul_self (a := other)]
  exact Int.ofNat_le.mpr (Nat.mul_le_mul closer closer)

theorem maxRaw_le_square {value : Int} (large : maxRaw.natAbs ≤ value.natAbs) :
    maxRaw ≤ value * value / 2 ^ 32 := by
  have square := square_le_square large
  have bound : maxRaw * 2 ^ 32 ≤ maxRaw * maxRaw := by decide
  omega

theorem toInt_axisSquare (left right : Fixed64) : (axisSquare left right).raw.toInt =
      min ((left.raw.toInt - right.raw.toInt) * (left.raw.toInt - right.raw.toInt) / 2 ^ 32)
        maxRaw := by
  rw [axisSquare, toInt_mul_self, toInt_saturatingSub]
  generalize left.raw.toInt - right.raw.toInt = difference
  by_cases inside : -2 ^ 63 ≤ difference ∧ difference ≤ maxRaw
  · rw [min_eq_left inside.2, max_eq_right inside.1]
  have cut : maxRaw.natAbs ≤ (max (-2 ^ 63) (min difference maxRaw)).natAbs := by
    rw [maxRaw] at inside ⊢
    omega
  have far : maxRaw.natAbs ≤ difference.natAbs := by
    rw [maxRaw] at inside ⊢
    omega
  rw [min_eq_right (maxRaw_le_square cut), min_eq_right (maxRaw_le_square far)]

theorem axisSquare_nonneg (left right : Fixed64) : 0 ≤ (axisSquare left right).raw.toInt := by
  rw [toInt_axisSquare]
  exact le_min (Int.ediv_nonneg (mul_self_nonneg _) (by decide)) (by decide)

theorem axisSquare_mono {left right first second : Fixed64}
    (closer : (left.raw.toInt - right.raw.toInt).natAbs ≤
      (first.raw.toInt - second.raw.toInt).natAbs) :
    (axisSquare left right).raw.toInt ≤ (axisSquare first second).raw.toInt := by
  rw [toInt_axisSquare, toInt_axisSquare]
  apply min_le_min_right
  exact Int.ediv_le_ediv (by decide) (square_le_square closer)

end Fixed64

namespace Vec3Fix

open Fixed64

theorem toInt_distanceSquared (self other : Vec3Fix) : (self.distanceSquared other).raw.toInt =
      min ((axisSquare self.x other.x).raw.toInt + (axisSquare self.y other.y).raw.toInt +
        (axisSquare self.z other.z).raw.toInt) maxRaw := by
  have first := axisSquare_nonneg self.x other.x
  have second := axisSquare_nonneg self.y other.y
  have third := axisSquare_nonneg self.z other.z
  have partly := toInt_saturatingAdd_of_nonneg first second
  have positive : 0 ≤ maxRaw := by decide
  change (((axisSquare self.x other.x).saturatingAdd
    (axisSquare self.y other.y)).saturatingAdd (axisSquare self.z other.z)).raw.toInt = _
  rw [toInt_saturatingAdd_of_nonneg (by omega) third]
  omega

end Vec3Fix

end Eidolon.Core

/-!
## The order of fixed-point numbers

Fixed-point numbers are ordered as their raw numbers.  The rounded operations keep the order:
subtracting one number, and multiplying by one number of known sign.
-/

namespace Eidolon.Core

open Nat

namespace Fixed64

def one : Fixed64 where
  raw := Int64.ofInt scale

def abs (self : Fixed64) : Fixed64 where
  raw := Int64.ofIntClamp self.raw.toInt.natAbs

def min (self other : Fixed64) : Fixed64 :=
  if self.raw < other.raw then self else other

def max (self other : Fixed64) : Fixed64 :=
  if self.raw > other.raw then self else other

theorem eq_of_toInt_eq {left right : Fixed64} (same : left.raw.toInt = right.raw.toInt) :
    left = right := by
  exact congrArg Fixed64.mk (Int64.toInt_inj.mp same)

theorem min_def (left right : Fixed64) : left.min right = if left ≤ right then left else right := by
  rw [Fixed64.min]
  by_cases below : left.raw < right.raw
  · have atMost : left ≤ right := by
      rw [Int64.lt_iff_toInt_lt] at below
      rw [le_iff]
      omega
    rw [if_pos below, if_pos atMost]
  rw [if_neg below]
  by_cases atMost : left ≤ right
  · rw [if_pos atMost]
    apply eq_of_toInt_eq
    rw [Int64.lt_iff_toInt_lt] at below
    rw [le_iff] at atMost
    omega
  rw [if_neg atMost]

theorem max_def (left right : Fixed64) : left.max right = if left ≤ right then right else left := by
  rw [Fixed64.max]
  by_cases above : left.raw > right.raw
  · have notAtMost : ¬ left ≤ right := by
      rw [gt_iff_lt, Int64.lt_iff_toInt_lt] at above
      rw [le_iff]
      omega
    rw [if_pos above, if_neg notAtMost]
  have atMost : left ≤ right := by
    rw [gt_iff_lt, Int64.lt_iff_toInt_lt] at above
    rw [le_iff]
    omega
  rw [if_neg above, if_pos atMost]

instance : LinearOrder Fixed64 where
  le_refl number := le_iff.mpr (Int.le_refl _)
  le_trans first second third below further :=
    le_iff.mpr (Int.le_trans (le_iff.mp below) (le_iff.mp further))
  lt_iff_le_not_ge left right := by
    rw [lt_iff, le_iff, le_iff]
    omega
  le_antisymm left right below above :=
    eq_of_toInt_eq (Int.le_antisymm (le_iff.mp below) (le_iff.mp above))
  le_total left right := by
    rw [le_iff, le_iff]
    omega
  toDecidableLE left right := inferInstance
  toDecidableLT left right := inferInstance
  toDecidableEq := inferInstance
  min := Fixed64.min
  max := Fixed64.max
  min_def := min_def
  max_def := max_def

theorem min_eq (left right : Fixed64) : left.min right = Min.min left right :=
  rfl

theorem raw_ofIntClamp_mono {first second : Int} (below : first ≤ second) :
    Fixed64.mk (Int64.ofIntClamp first) ≤ Fixed64.mk (Int64.ofIntClamp second) := by
  rw [le_iff, toInt_ofIntClamp, toInt_ofIntClamp]
  omega

theorem saturatingSub_mono {first second : Fixed64} (below : first ≤ second)
    (subtrahend : Fixed64) : first.saturatingSub subtrahend ≤ second.saturatingSub subtrahend := by
  rw [le_iff] at below
  apply raw_ofIntClamp_mono
  omega

theorem saturatingMul_mono {first second factor : Fixed64} (below : first ≤ second)
    (nonneg : zero ≤ factor) : first.saturatingMul factor ≤ second.saturatingMul factor := by
  rw [le_iff] at below nonneg
  apply raw_ofIntClamp_mono
  apply Int.ediv_le_ediv (by decide)
  exact Int.mul_le_mul_of_nonneg_right below nonneg

theorem saturatingMul_anti {first second factor : Fixed64} (below : first ≤ second)
    (nonpos : factor ≤ zero) : second.saturatingMul factor ≤ first.saturatingMul factor := by
  rw [le_iff] at below nonpos
  apply raw_ofIntClamp_mono
  apply Int.ediv_le_ediv (by decide)
  exact Int.mul_le_mul_of_nonpos_right below nonpos

theorem saturatingSub_le_saturatingAdd (center : Fixed64) {half : Fixed64}
    (nonneg : zero ≤ half) : center.saturatingSub half ≤ center.saturatingAdd half := by
  have positive : (0 : Int) ≤ half.raw.toInt := le_iff.mp nonneg
  apply raw_ofIntClamp_mono
  omega

end Fixed64

end Eidolon.Core

/-!
## Square roots of fixed-point numbers

The loop of the square root with its mask, its remainder and its root in 128 bits, where
every sum and difference is checked.  None of them leaves the 128 bits, and the loop returns
what the recursion over the digits returns: the floor of the exact root.
-/

namespace Eidolon.Core

open Nat

namespace Fixed64

variable (value : Nat)

def checked128 : Option Nat :=
  if value < 2 ^ 128 then some value else none

def checkedSub128 (subtracted : Nat) : Option Nat :=
  if subtracted ≤ value then some (value - subtracted) else none

def leadingZeros128 : Nat :=
  if value = 0 then 128 else 127 - Nat.log2 value

def checkedSqrtLoop (bit remainder root : Nat) : Option Nat :=
  if bit = 0 then
    some root
  else do
    let sum ← checked128 (root + bit)
    if sum ≤ remainder then
      let smaller ← checkedSub128 remainder sum
      let greater ← checked128 (root / 2 + bit)
      checkedSqrtLoop (bit / 4) smaller greater
    else
      checkedSqrtLoop (bit / 4) remainder (root / 2)
termination_by bit

/-- The square root with every step checked; none when a step overflows. -/
def checkedSqrt (self : Fixed64) : Option Fixed64 :=
  if self.raw ≤ 0 then
    some zero
  else do
    let val ← checked128 (self.raw.toInt.toNat * 2 ^ 32)
    let shift ← checkedSub128 127 (leadingZeros128 val)
    -- The lowest bit of the shift is cleared.
    let bit ← checked128 (2 ^ (shift / 2 * 2))
    let root ← checkedSqrtLoop bit val 0
    if (maxRaw.toNat : Nat) < root then
      some { raw := Int64.maxValue }
    else
      some { raw := Int64.ofNat root }

theorem checked128_of_lt {value : Nat} (small : value < 2 ^ 128) : checked128 value = some value :=
  if_pos small

theorem checkedSub128_of_le {value subtracted : Nat} (atMost : subtracted ≤ value) :
    checkedSub128 value subtracted = some (value - subtracted) :=
  if_pos atMost

/-- The mask before `digits` steps stands at the highest of the digits. -/
def maskOf (digits : Nat) : Nat :=
  4 ^ digits / 4

theorem maskOf_succ (digits : Nat) : maskOf (digits + 1) = 4 ^ digits := by
  rw [maskOf, Nat.pow_succ, Nat.mul_div_cancel _ (by decide)]

theorem maskOf_zero : maskOf 0 = 0 := by
  decide

theorem checkedSqrtLoop_maskOf {digits remainder root : Nat} (low : maskOf digits ≤ 2 ^ 125)
    (small : root < 2 ^ 127) :
    checkedSqrtLoop (maskOf digits) remainder root = some (sqrtLoop digits remainder root) := by
  induction digits generalizing remainder root with
  | zero => rw [checkedSqrtLoop, if_pos maskOf_zero, sqrtLoop]
  | succ digits ih =>
    rw [maskOf_succ] at low
    have positive : 4 ^ digits ≠ 0 := Nat.pos_iff_ne_zero.mp (Nat.pow_pos (by decide))
    have next : 4 ^ digits / 4 = maskOf digits := rfl
    have lower : maskOf digits ≤ 2 ^ 125 := by
      omega
    have sumFits : checked128 (root + 4 ^ digits) = some (root + 4 ^ digits) :=
      checked128_of_lt (by omega)
    have rootFits : checked128 (root / 2 + 4 ^ digits) = some (root / 2 + 4 ^ digits) :=
      checked128_of_lt (by omega)
    rw [checkedSqrtLoop, maskOf_succ, if_neg positive, sumFits, sqrtLoop]
    simp only [Option.bind_eq_bind, Option.bind_some]
    by_cases fits : root + 4 ^ digits ≤ remainder
    · rw [if_pos fits, if_pos fits, checkedSub128_of_le fits, rootFits]
      exact ih lower (by omega)
    rw [if_neg fits, if_neg fits]
    exact ih lower (by omega)

theorem maskOf_log2 : 2 ^ (Nat.log2 value / 2 * 2) = maskOf (Nat.log2 value / 2 + 1) := by
  rw [maskOf_succ, Nat.mul_comm, Nat.pow_mul]

variable {self : Fixed64}

theorem not_le_zero_of_pos (positive : 0 < self.raw.toInt) : ¬ self.raw ≤ 0 := by
  rw [Int64.le_iff_toInt_le]
  have zeroIs : (0 : Int64).toInt = 0 := by decide
  omega

theorem sqrt_bounds (positive : 0 < self.raw.toInt) : 0 ≤ self.sqrt.raw.toInt ∧
      self.sqrt.raw.toInt * self.sqrt.raw.toInt ≤ self.raw.toInt * 2 ^ 32 ∧
      self.raw.toInt * 2 ^ 32 < (self.sqrt.raw.toInt + 1) * (self.sqrt.raw.toInt + 1) := by
  have exact : ((self.raw.toInt * 2 ^ 32).toNat : Int) = self.raw.toInt * 2 ^ 32 :=
    Int.toNat_of_nonneg (by omega)
  rw [sqrt_toInt positive, ← exact]
  refine ⟨Int.natCast_nonneg _, ?_, ?_⟩
  · exact_mod_cast sqrt_le _
  exact_mod_cast lt_succ_sqrt _

theorem sqrt_of_nonpositive (nonpositive : ¬ 0 < self.raw.toInt) : self.sqrt = zero := by
  have atMost : self.raw ≤ 0 := by
    rw [Int64.le_iff_toInt_le]
    have zeroIs : (0 : Int64).toInt = 0 := by decide
    omega
  rw [sqrt, if_pos atMost]

theorem sqrt_monotone : Monotone sqrt := by
  intro left right ordered
  rw [le_iff] at ordered
  rw [le_iff]
  by_cases positive : 0 < left.raw.toInt
  · rw [sqrt_toInt positive, sqrt_toInt (by omega)]
    exact_mod_cast sqrt_le_sqrt (Int.toNat_le_toNat (by omega))
  have zeroIs : zero.raw.toInt = 0 := by decide
  rw [sqrt_of_nonpositive positive]
  by_cases rightPositive : 0 < right.raw.toInt
  · exact (sqrt_bounds rightPositive).1
  rw [sqrt_of_nonpositive rightPositive, zeroIs]

theorem checkedSub128_leadingZeros {value : Nat} (positive : value ≠ 0) (small : value < 2 ^ 128) :
    checkedSub128 127 (leadingZeros128 value) = some (Nat.log2 value) := by
  have below : Nat.log2 value < 128 := (log2_lt positive).mpr small
  rw [leadingZeros128, if_neg positive, checkedSub128_of_le (by omega)]
  exact congrArg some (by omega)

theorem checkedSqrt_of_pos (positive : 0 < self.raw.toInt) : checkedSqrt self = some self.sqrt := by
  have bound := self.raw.toInt_lt
  have value : (self.raw.toInt * 2 ^ 32).toNat = self.raw.toInt.toNat * 2 ^ 32 := by
    omega
  have notZero : self.raw.toInt.toNat * 2 ^ 32 ≠ 0 := by
    omega
  have small : self.raw.toInt.toNat * 2 ^ 32 < 2 ^ 95 := by
    omega
  have exact := sqrt_toInt positive
  rw [value] at exact
  have digits : Nat.log2 (self.raw.toInt.toNat * 2 ^ 32) < 95 :=
    (log2_lt notZero).mpr small
  have low : maskOf (Nat.log2 (self.raw.toInt.toNat * 2 ^ 32) / 2 + 1) ≤ 2 ^ 125 := by
    rw [← maskOf_log2]
    exact Nat.pow_le_pow_right (by decide) (by omega)
  have rootBound := self.sqrt.raw.toInt_lt
  have inRange : ¬ maxRaw.toNat < Nat.sqrt (self.raw.toInt.toNat * 2 ^ 32) := by
    rw [maxRaw]
    omega
  have rootExact : ({ raw := Int64.ofNat (Nat.sqrt (self.raw.toInt.toNat * 2 ^ 32)) } : Fixed64) =
      self.sqrt := by
    apply eq_of_toInt_eq
    rw [exact, Int64.toInt_ofNat_of_lt (by omega)]
  rw [checkedSqrt, if_neg (not_le_zero_of_pos positive), checked128_of_lt (by omega)]
  rw [Option.bind_eq_bind, Option.bind_some, checkedSub128_leadingZeros notZero (by omega),
    Option.bind_some, maskOf_log2, checked128_of_lt (by omega), Option.bind_some,
    checkedSqrtLoop_maskOf low (by decide), Option.bind_some, sqrtLoop_log2, if_neg inRange,
    rootExact]

/-- The square root of a positive number overflows nowhere and is the floor of the exact root,
and a greater number has no smaller root. -/
theorem sqrt_floor_and_monotone : (∀ self : Fixed64, 0 < self.raw.toInt →
      checkedSqrt self = some self.sqrt ∧ 0 ≤ self.sqrt.raw.toInt ∧
        self.sqrt.raw.toInt ^ 2 ≤ self.raw.toInt * 2 ^ 32 ∧
        self.raw.toInt * 2 ^ 32 < (self.sqrt.raw.toInt + 1) ^ 2) ∧
      Monotone Fixed64.sqrt := by
  refine ⟨fun self positive => ?_, sqrt_monotone⟩
  obtain ⟨nonneg, below, above⟩ := sqrt_bounds positive
  refine ⟨checkedSqrt_of_pos positive, nonneg, ?_, ?_⟩
  · rw [sq]
    exact below
  rw [sq]
  exact above

end Fixed64

end Eidolon.Core
