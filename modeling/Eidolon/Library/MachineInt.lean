import Mathlib.Algebra.Group.Int.Defs
import Mathlib.Algebra.GroupWithZero.Nat

/-!
# Saturating machine arithmetic

Unsigned addition, subtraction and multiplication that stop at the ends of the
range instead of wrapping around.
-/

namespace Eidolon.Library

open UInt64

/-- `u64` addition clamped to the largest value. -/
def saturatingAdd64 (a b : UInt64) : UInt64 :=
  if a.toNat + b.toNat < 2 ^ 64 then a + b else UInt64.ofNat (2 ^ 64 - 1)

/-- `u64` multiplication clamped to the largest value. -/
def saturatingMul64 (a b : UInt64) : UInt64 :=
  if a.toNat * b.toNat < 2 ^ 64 then a * b else UInt64.ofNat (2 ^ 64 - 1)

/-- `u64` subtraction clamped to zero. -/
def saturatingSub64 (a b : UInt64) : UInt64 :=
  if b ≤ a then a - b else 0

/-- `u8` addition clamped to the largest value. -/
def saturatingAdd8 (a b : UInt8) : UInt8 :=
  if a.toNat + b.toNat < 2 ^ 8 then a + b else UInt8.ofNat (2 ^ 8 - 1)

/-- `u8` subtraction clamped to zero. -/
def saturatingSub8 (a b : UInt8) : UInt8 :=
  if b ≤ a then a - b else 0

/-- `u32` addition clamped to the largest value. -/
def saturatingAdd32 (a b : UInt32) : UInt32 :=
  if a.toNat + b.toNat < 2 ^ 32 then a + b else UInt32.ofNat (2 ^ 32 - 1)

/-- `u32` multiplication clamped to the largest value. -/
def saturatingMul32 (a b : UInt32) : UInt32 :=
  if a.toNat * b.toNat < 2 ^ 32 then a * b else UInt32.ofNat (2 ^ 32 - 1)

/-- `u32` subtraction clamped to zero. -/
def saturatingSub32 (a b : UInt32) : UInt32 :=
  if b ≤ a then a - b else 0

/-- `u64` addition that fails when it overflows. -/
def checkedAdd64 (a b : UInt64) : Option UInt64 :=
  if a.toNat + b.toNat < 2 ^ 64 then some (a + b) else none

theorem checkedAdd64_eq_none_iff {a b : UInt64} :
    checkedAdd64 a b = none ↔ 2 ^ 64 ≤ a.toNat + b.toNat := by
  unfold checkedAdd64
  split
  · exact iff_of_false (Option.some_ne_none _) (by omega)
  exact iff_of_true rfl (by omega)

theorem eq_saturatingAdd64_of_checkedAdd64 {a b sum : UInt64}
    (added : checkedAdd64 a b = some sum) : sum = saturatingAdd64 a b := by
  unfold checkedAdd64 at added
  unfold saturatingAdd64
  split at added
  · rename_i small
    rw [if_pos small]
    exact (Option.some.inj added).symm
  cases added

theorem toNat_saturatingAdd64 (a b : UInt64) :
    (saturatingAdd64 a b).toNat = min (a.toNat + b.toNat) (2 ^ 64 - 1) := by
  unfold saturatingAdd64
  split
  · rw [UInt64.toNat_add]
    omega
  rw [toNat_ofNat']
  omega

theorem toNat_saturatingMul64 (a b : UInt64) :
    (saturatingMul64 a b).toNat = min (a.toNat * b.toNat) (2 ^ 64 - 1) := by
  unfold saturatingMul64
  split
  · rw [UInt64.toNat_mul]
    omega
  rw [toNat_ofNat']
  omega

theorem toNat_saturatingSub64 (a b : UInt64) : (saturatingSub64 a b).toNat = a.toNat - b.toNat := by
  unfold saturatingSub64
  split
  · exact UInt64.toNat_sub_of_le a b ‹_›
  rename_i less
  rw [le_iff_toNat_le] at less
  simp only [UInt64.toNat_zero]
  omega

theorem toNat_saturatingAdd32 (a b : UInt32) :
    (saturatingAdd32 a b).toNat = min (a.toNat + b.toNat) (2 ^ 32 - 1) := by
  unfold saturatingAdd32
  split
  · rw [UInt32.toNat_add]
    omega
  rw [UInt32.toNat_ofNat']
  omega

theorem toNat_saturatingMul32 (a b : UInt32) :
    (saturatingMul32 a b).toNat = min (a.toNat * b.toNat) (2 ^ 32 - 1) := by
  unfold saturatingMul32
  split
  · rw [UInt32.toNat_mul]
    omega
  rw [UInt32.toNat_ofNat']
  omega

theorem toNat_saturatingSub8 (a b : UInt8) : (saturatingSub8 a b).toNat = a.toNat - b.toNat := by
  unfold saturatingSub8
  split
  · rename_i ordered
    exact UInt8.toNat_sub_of_le a b ordered
  rename_i below
  rw [UInt8.not_le] at below
  exact (Nat.sub_eq_zero_of_le (Nat.le_of_lt below)).symm

theorem toNat_saturatingSub32 (a b : UInt32) : (saturatingSub32 a b).toNat = a.toNat - b.toNat := by
  unfold saturatingSub32
  split
  · exact UInt32.toNat_sub_of_le a b ‹_›
  rename_i less
  rw [UInt32.le_iff_toNat_le] at less
  simp only [UInt32.toNat_zero]
  omega

end Eidolon.Library
