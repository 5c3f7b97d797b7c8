import Mathlib.Algebra.Group.Int.Defs
import Mathlib.Algebra.GroupWithZero.Nat

/-!
# Serial numbers of sixteen bits

Packets are numbered without bound and carry their number modulo `2 ^ 16`.  A
sequence is newer than another when it is less than half the space ahead of it; the
comparison agrees with the order of the unbounded numbers as long as these are close
enough.
-/

namespace Eidolon.Library

/-- `((a - b) as i16) > 0`, with wrapping subtraction. -/
def isNewer16 (a b : UInt16) : Bool :=
  decide (0 < (a - b).toInt16)

theorem isNewer16_iff {a b : UInt16} :
    isNewer16 a b = true ↔ 0 < (a - b).toNat ∧ (a - b).toNat < 2 ^ 15 := by
  have same : (a - b).toBitVec.toNat = (a - b).toNat := rfl
  rw [isNewer16, decide_eq_true_iff, Int16.lt_iff_toInt_lt]
  change (0 : Int) < ((a - b).toBitVec).toInt ↔ _
  rw [BitVec.toInt_eq_toNat_cond]
  split <;> omega

theorem toNat_ofNat_sub_ofNat (m n : Nat) :
    (UInt16.ofNat m - UInt16.ofNat n).toNat = (2 ^ 16 - n % 2 ^ 16 + m % 2 ^ 16) % 2 ^ 16 := by
  rw [UInt16.toNat_sub, UInt16.toNat_ofNat', UInt16.toNat_ofNat']

theorem ofNat_eq_ofNat_iff {m n : Nat} (behind : n < m + 2 ^ 16) (ahead : m < n + 2 ^ 16) :
    UInt16.ofNat m = UInt16.ofNat n ↔ m = n := by
  rw [← UInt16.toNat_inj, UInt16.toNat_ofNat', UInt16.toNat_ofNat']
  omega

theorem isNewer16_ofNat_iff {m n : Nat} (behind : n ≤ m + 2 ^ 15) (ahead : m < n + 2 ^ 16) :
    isNewer16 (UInt16.ofNat m) (UInt16.ofNat n) = true ↔ n < m ∧ m < n + 2 ^ 15 := by
  rw [isNewer16_iff, toNat_ofNat_sub_ofNat]
  omega

@[simp]
theorem ofNat_add_one (n : Nat) : UInt16.ofNat n + 1 = UInt16.ofNat (n + 1) :=
  (UInt16.ofNat_add n 1).symm

end Eidolon.Library
