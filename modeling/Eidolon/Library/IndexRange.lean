import Mathlib.Algebra.BigOperators.Fin
import Mathlib.Data.Nat.ModEq

/-!
# Values at a range of indices

The values of a function at the indices from a first one up to a last one, which is left
out, and how often a value is among them when the range or the function changes.  Also
when two indices share a place in a ring, and the sum of weights over finitely many
places of which one is overwritten.
-/

namespace Eidolon.Library

open List Function

universe u

variable {α : Type u}

def valuesBetween (value : Nat → α) (first last : Nat) : List α :=
  (List.range' first (last - first)).map value

variable {value : Nat → α}

theorem valuesBetween_of_le {first last : Nat} (empty : last ≤ first) :
    valuesBetween value first last = [] := by
  rw [valuesBetween, Nat.sub_eq_zero_of_le empty]
  rfl

theorem valuesBetween_first {first last : Nat} (inside : first < last) :
    valuesBetween value first last = value first :: valuesBetween value (first + 1) last := by
  rw [valuesBetween, valuesBetween, show last - first = last - (first + 1) + 1 by omega,
    range'_succ, map_cons]

theorem valuesBetween_last {first last : Nat} (inside : first ≤ last) :
    valuesBetween value first (last + 1) = valuesBetween value first last ++ [value last] := by
  have last_eq : first + (last - first) = last := Nat.add_sub_cancel' inside
  rw [valuesBetween, Nat.succ_sub inside, range'_1_concat, map_append, last_eq]
  rfl

theorem valuesBetween_congr {changed : Nat → α} {first last : Nat}
    (same : ∀ index, first ≤ index → index < last → changed index = value index) :
    valuesBetween changed first last = valuesBetween value first last := by
  apply map_congr_left
  intro index inRange
  rw [mem_range'_1] at inRange
  exact same index inRange.1 (by omega)

theorem mod_ne_mod {first second modulus : Nat} (before : first < second)
    (near : second < first + modulus) : first % modulus ≠ second % modulus := by
  intro same
  have divides : modulus ∣ second - first :=
    (Nat.modEq_iff_dvd' (Nat.le_of_lt before)).mp same
  have bound := Nat.le_of_dvd (by omega) divides
  omega

section Count

variable [DecidableEq α]

theorem count_valuesBetween_first {value : Nat → α} {first last : Nat}
    (inside : first < last) (wanted : α) :
    (valuesBetween value first last).count wanted =
      (valuesBetween value (first + 1) last).count wanted +
        if value first = wanted then 1 else 0 := by
  rw [valuesBetween_first inside, count_cons]
  simp only [beq_iff_eq]

theorem count_valuesBetween_last {value : Nat → α} {first last : Nat}
    (inside : first ≤ last) (wanted : α) :
    (valuesBetween value first (last + 1)).count wanted =
      (valuesBetween value first last).count wanted +
        if value last = wanted then 1 else 0 := by
  rw [valuesBetween_last inside, count_append, count_singleton]
  simp only [beq_iff_eq]

end Count

theorem sum_update {n : Nat} (weight : α → Nat) (places : Fin n → α) (place : Fin n) (value : α) :
    (∑ other, weight (Function.update places place value other)) + weight (places place) =
      (∑ other, weight (places other)) + weight value := by
  have changed : (fun other => weight (Function.update places place value other)) =
      Function.update (fun other => weight (places other)) place (weight value) := by
    funext other
    by_cases same : other = place
    · rw [same, update_self, update_self]
    rw [update_of_ne same, update_of_ne same]
  have whole := Finset.sum_erase_add Finset.univ (fun other => weight (places other))
    (Finset.mem_univ place)
  rw [changed, Finset.sum_update_of_mem (Finset.mem_univ place), Finset.sdiff_singleton_eq_erase]
  omega

end Eidolon.Library
