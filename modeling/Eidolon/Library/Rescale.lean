import Mathlib.Data.Nat.GCD.Basic
import Mathlib.Tactic.Ring

/-!
# Codes for fractions

A fraction with the denominator `scale` is told by a code out of `0 … greatest`; either is
made from the other by a multiplication and a division that rounds down.
-/

namespace Eidolon.Library

open Nat

def toCode (scale greatest fraction : Nat) : Nat :=
  fraction * greatest / scale

def ofCode (scale greatest code : Nat) : Nat :=
  code * scale / greatest

variable {scale greatest : Nat}

theorem toCode_le {fraction : Nat} (inside : fraction ≤ scale) :
    toCode scale greatest fraction ≤ greatest := by
  refine Nat.div_le_of_le_mul ?_
  exact Nat.mul_le_mul_right greatest inside

variable {code : Nat}

theorem ofCode_le (inside : code ≤ greatest) : ofCode scale greatest code ≤ scale := by
  refine Nat.div_le_of_le_mul ?_
  exact Nat.mul_le_mul_right scale inside

/-- The code of a decoded fraction is the code again if nothing was rounded off in decoding,
and the next lower one otherwise. -/
theorem toCode_ofCode (positive : 0 < greatest) (finer : greatest ≤ scale) :
    toCode scale greatest (ofCode scale greatest code) =
      if greatest ∣ code * scale then code else code - 1 := by
  have split := div_add_mod (code * scale) greatest
  rw [Nat.mul_comm greatest] at split
  rw [toCode, ofCode]
  by_cases divides : greatest ∣ code * scale
  · rw [if_pos divides, Nat.div_mul_cancel divides, Nat.mul_div_cancel _ (by omega)]
  rw [if_neg divides]
  have small := mod_lt (code * scale) positive
  cases code with
  | zero => omega
  | succ code =>
    rw [Nat.add_sub_cancel]
    have step : (code + 1) * scale = code * scale + scale := succ_mul code scale
    refine Nat.div_eq_of_lt_le ?_ ?_
    · omega
    omega

theorem dvd_code_mul_iff (coprime : Nat.Coprime greatest scale) (inside : code ≤ greatest) :
    greatest ∣ code * scale ↔ code = 0 ∨ code = greatest := by
  rw [coprime.dvd_mul_right]
  constructor
  · intro divides
    rcases Nat.eq_zero_or_pos code with none | positive
    · exact Or.inl none
    exact Or.inr (le_antisymm inside (le_of_dvd positive divides))
  rintro (rfl | rfl)
  · exact dvd_zero greatest
  exact dvd_refl code

theorem ofCode_toCode_le (fraction : Nat) :
    ofCode scale greatest (toCode scale greatest fraction) ≤ fraction := by
  refine Nat.div_le_of_le_mul ?_
  rw [Nat.mul_comm greatest]
  exact div_mul_le_self _ _

/-- What a fraction loses by coding and decoding is less than one step of the codes and one
unit. -/
theorem loss_lt {fraction : Nat} (positive : 0 < greatest) (scaled : 0 < scale) :
    (fraction - ofCode scale greatest (toCode scale greatest fraction)) * greatest <
      scale + greatest := by
  have coded := div_add_mod (fraction * greatest) scale
  have lost := mod_lt (fraction * greatest) scaled
  have code := div_add_mod (toCode scale greatest fraction * scale) greatest
  have decodedLost := mod_lt (toCode scale greatest fraction * scale) positive
  rw [Nat.mul_comm scale] at coded
  rw [Nat.mul_comm greatest] at code
  rw [Nat.sub_mul, ofCode]
  rw [toCode] at code decodedLost ⊢
  omega

end Eidolon.Library
