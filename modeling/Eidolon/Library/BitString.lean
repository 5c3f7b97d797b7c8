import Mathlib.Data.Nat.Bitwise
import Eidolon.Library.ByteOrder

/-!
# Bits of a byte string

The bits of a list of bytes, most significant bit of each byte first, and the numbers
that runs of them stand for.
-/

namespace Eidolon.Library

open List

variable (bytes : List UInt8)

/-- The bit at an index, `false` behind the last byte. -/
def streamBit (index : Nat) : Bool :=
  (bytes.getD (index / 8) 0).toNat.testBit (7 - index % 8)

def bitsValue (bytes : List UInt8) (start : Nat) : Nat → Nat
  | 0 => 0
  | width + 1 => 2 * bitsValue bytes start width + (streamBit bytes (start + width)).toNat

/-- Two byte strings have the same bits before an index. -/
def AgreeBelow (first second : List UInt8) (bound : Nat) : Prop :=
  ∀ index, index < bound → streamBit first index = streamBit second index

theorem AgreeBelow.refl (bound : Nat) : AgreeBelow bytes bytes bound :=
  fun _ _ => rfl

variable {bound : Nat}

theorem AgreeBelow.trans {first second third : List UInt8} (before : AgreeBelow first second bound)
    (behind : AgreeBelow second third bound) : AgreeBelow first third bound :=
  fun index inside => (before index inside).trans (behind index inside)

theorem AgreeBelow.mono {first second : List UInt8} {smaller : Nat}
    (agree : AgreeBelow first second bound) (le : smaller ≤ bound) :
    AgreeBelow first second smaller :=
  fun index inside => agree index (Nat.lt_of_lt_of_le inside le)

theorem bitsValue_lt (start width : Nat) : bitsValue bytes start width < 2 ^ width := by
  induction width with
  | zero => exact Nat.one_pos
  | succ width ih =>
    have bit := (streamBit bytes (start + width)).toNat_le
    rw [bitsValue]
    omega

theorem bitsValue_add (start first second : Nat) : bitsValue bytes start (first + second) =
      bitsValue bytes start first * 2 ^ second + bitsValue bytes (start + first) second := by
  induction second with
  | zero => simp [bitsValue]
  | succ second ih =>
    rw [← Nat.add_assoc, bitsValue, bitsValue, Nat.pow_succ, Nat.add_assoc start, ← Nat.mul_assoc]
    omega

variable {bytes : List UInt8}

theorem bitsValue_split {start first width : Nat} (le : first ≤ width) :
    bitsValue bytes start width = bitsValue bytes start first * 2 ^ (width - first) +
        bitsValue bytes (start + first) (width - first) := by
  rw [← bitsValue_add, Nat.add_sub_cancel' le]

theorem AgreeBelow.bitsValue_eq {first second : List UInt8}
    (agree : AgreeBelow first second bound) {start width : Nat} (inside : start + width ≤ bound) :
    bitsValue first start width = bitsValue second start width := by
  induction width with
  | zero => rfl
  | succ width ih => rw [bitsValue, bitsValue, ih (by omega), agree _ (by omega)]

theorem bitsValue_eq_of_testBit {start width value : Nat} (small : value < 2 ^ width)
    (bits : ∀ place, place < width →
      streamBit bytes (start + place) = value.testBit (width - 1 - place)) :
    bitsValue bytes start width = value := by
  induction width generalizing value with
  | zero =>
    rw [Nat.pow_zero] at small
    rw [bitsValue]
    omega
  | succ width ih =>
    have halfSmall : value / 2 < 2 ^ width := by
      omega
    have front : bitsValue bytes start width = value / 2 := by
      apply ih halfSmall
      intro place inside
      rw [bits place (by omega), ← Nat.testBit_succ]
      congr 1
      omega
    have last : (streamBit bytes (start + width)).toNat = value % 2 := by
      rw [bits width (Nat.lt_succ_self width)]
      rcases Nat.mod_two_eq_zero_or_one value with even | odd
      · simp [even]
      simp [odd]
    rw [bitsValue]
    omega

theorem streamBit_of_lt {index : Nat} (inside : index / 8 < bytes.length) :
    streamBit bytes index = bytes[index / 8].toNat.testBit (7 - index % 8) := by
  rw [streamBit, getD_eq_getElem _ _ inside]

theorem bitsValue_byte {place : Nat} {byte : UInt8} (found : bytes[place]? = some byte) :
    bitsValue bytes (8 * place) 8 = byte.toNat := by
  apply bitsValue_eq_of_testBit byte.toNat_lt
  intro bit small
  have quotient : (8 * place + bit) / 8 = place := by omega
  have remainder : (8 * place + bit) % 8 = bit := by omega
  rw [streamBit, quotient, remainder, getD_eq_getElem?_getD, found]
  rfl

theorem streamBit_take {count index : Nat} (inside : index < 8 * count) :
    streamBit (bytes.take count) index = streamBit bytes index := by
  have before : index / 8 < count := by omega
  rw [streamBit, streamBit, getD_eq_getElem?_getD, getD_eq_getElem?_getD,
    List.getElem?_take_of_lt before]

theorem streamBit_append {first second : List UInt8} {index : Nat}
    (inside : index < 8 * first.length) :
    streamBit (first ++ second) index = streamBit first index := by
  have before : index / 8 < first.length := by omega
  rw [streamBit, streamBit, getD_append _ _ _ _ before]

theorem streamBit_set (bytes : List UInt8) (place : Nat) (byte : UInt8) (index : Nat) :
    streamBit (bytes.set place byte) index =
      if index / 8 = place ∧ place < bytes.length then
        byte.toNat.testBit (7 - index % 8)
      else
        streamBit bytes index := by
  rw [streamBit, streamBit]
  by_cases same : place = index / 8
  · by_cases inside : place < bytes.length
    · simp [same, same ▸ inside]
    simp [same, same ▸ inside]
  simp [same, Ne.symm same]

theorem eq_of_streamBit {first second : List UInt8} (lengths : first.length = second.length)
    (bits : ∀ index, streamBit first index = streamBit second index) : first = second := by
  apply ext_getElem lengths
  intro place firstInside secondInside
  apply UInt8.toNat.inj
  apply Nat.eq_of_testBit_eq
  intro bit
  by_cases low : bit < 8
  · have same := bits (8 * place + (7 - bit))
    have quotient : (8 * place + (7 - bit)) / 8 = place := by omega
    have remainder : 7 - (8 * place + (7 - bit)) % 8 = bit := by omega
    rw [streamBit, streamBit, quotient, remainder, getD_eq_getElem _ _ firstInside,
      getD_eq_getElem _ _ secondInside] at same
    exact same
  have high : (2 : Nat) ^ 8 ≤ 2 ^ bit := Nat.pow_le_pow_right (by decide) (by omega)
  rw [Nat.testBit_lt_two_pow (Nat.lt_of_lt_of_le first[place].toNat_lt high),
    Nat.testBit_lt_two_pow (Nat.lt_of_lt_of_le second[place].toNat_lt high)]

def streamBytes (bytes : List UInt8) : Nat → Nat → List UInt8
  | _, 0 => []
  | start, count + 1 => UInt8.ofNat (bitsValue bytes start 8) :: streamBytes bytes (start + 8) count

@[simp]
theorem length_streamBytes (bytes : List UInt8) (start count : Nat) :
    (streamBytes bytes start count).length = count := by
  induction count generalizing start with
  | zero => rfl
  | succ count ih => rw [streamBytes, length_cons, ih]

theorem AgreeBelow.streamBytes_eq {first second : List UInt8}
    (agree : AgreeBelow first second bound) {start count : Nat}
    (inside : start + 8 * count ≤ bound) :
    streamBytes first start count = streamBytes second start count := by
  induction count generalizing start with
  | zero => rfl
  | succ count ih =>
    rw [streamBytes, streamBytes, agree.bitsValue_eq (by omega), ih (by omega)]

theorem streamBytes_aligned {place count : Nat} (inside : place + count ≤ bytes.length) :
    streamBytes bytes (8 * place) count = (bytes.drop place).take count := by
  induction count generalizing place with
  | zero => rw [streamBytes, take_zero]
  | succ count ih =>
    have here : place < bytes.length := by omega
    have next : 8 * place + 8 = 8 * (place + 1) := by ring
    rw [streamBytes, bitsValue_byte (List.getElem?_eq_getElem here), next,
      ih (by omega), drop_eq_getElem_cons here,
      take_succ_cons, UInt8.ofNat_toNat]

theorem bitsValue_bytes (bytes : List UInt8) (start count : Nat) :
    bitsValue bytes start (8 * count) = ofBigEndian (streamBytes bytes start count) := by
  induction count generalizing start with
  | zero => rfl
  | succ count ih =>
    have small := bitsValue_lt bytes start 8
    have width : 8 * (count + 1) = 8 + 8 * count := by ring
    rw [width, bitsValue_add, ih, streamBytes, ofBigEndian_cons,
      length_streamBytes, UInt8.toNat_ofNat', Nat.mod_eq_of_lt small, Nat.pow_mul]

theorem streamBit_eq_of_bitsValue_eq {first second : List UInt8} {start width : Nat}
    (same : bitsValue first start width = bitsValue second start width) {place : Nat}
    (inside : place < width) :
    streamBit first (start + place) = streamBit second (start + place) := by
  induction width with
  | zero => cases inside
  | succ width ih =>
    have firstBit := (streamBit first (start + width)).toNat_le
    have secondBit := (streamBit second (start + width)).toNat_le
    rw [bitsValue, bitsValue] at same
    by_cases last : place = width
    · subst last
      have bits : (streamBit first (start + place)).toNat =
          (streamBit second (start + place)).toNat := by
        omega
      rw [Bool.eq_iff_iff, ← Bool.toNat_eq_one, bits, Bool.toNat_eq_one]
    exact ih (by omega) (by omega)

end Eidolon.Library

/-!
## Bits of a 32-bit field

What shifting, setting and testing a bit of a `u32` does to the bits of its value.
-/

namespace Eidolon.Library

variable (field : UInt32)

/-- Bit `index` of a field, with index zero the least significant one. -/
def bitAt (index : Nat) : Bool :=
  field.toNat.testBit index

@[simp]
theorem bitAt_zero (index : Nat) : bitAt 0 index = false := by
  simp [bitAt]

@[simp]
theorem bitAt_or (first second : UInt32) (index : Nat) :
    bitAt (first ||| second) index = (bitAt first index || bitAt second index) := by
  simp [bitAt]

variable {index : Nat}

theorem bitAt_shiftLeft {distance : Nat} (short : distance < 32) (inside : index < 32) :
    bitAt (field <<< UInt32.ofNat distance) index =
      (decide (distance ≤ index) && bitAt field (index - distance)) := by
  have amount : (UInt32.ofNat distance).toNat % 32 = distance := by
    rw [UInt32.toNat_ofNat']
    omega
  rw [bitAt, UInt32.toNat_shiftLeft, amount, Nat.testBit_mod_two_pow]
  simp [inside, bitAt]

theorem bitAt_one_shiftLeft {distance : Nat} (short : distance < 32) (inside : index < 32) :
    bitAt ((1 : UInt32) <<< UInt32.ofNat distance) index = decide (index = distance) := by
  rw [bitAt_shiftLeft 1 short inside, bitAt]
  by_cases same : index = distance
  · subst same
    simp
  by_cases later : distance ≤ index
  · have notFirst : Nat.testBit 1 (index - distance) = false := by
      rw [← Bool.not_eq_true, Nat.testBit_one_eq_true_iff_self_eq_zero]
      omega
    simp [same, later, notFirst]
  simp [same, later]

theorem shiftRight_and_one_ne_zero_iff (inside : index < 32) :
    (field >>> UInt32.ofNat index) &&& 1 ≠ 0 ↔ bitAt field index = true := by
  have amount : (UInt32.ofNat index).toNat % 32 = index := by
    rw [UInt32.toNat_ofNat']
    omega
  rw [ne_eq, ← UInt32.toNat_inj, UInt32.toNat_and, UInt32.toNat_shiftRight, amount,
    UInt32.toNat_one, UInt32.toNat_zero, Nat.and_one_is_mod, bitAt, Nat.testBit_eq_decide_div_mod_eq,
    decide_eq_true_iff]
  omega

theorem and_one_shiftLeft_ne_zero_iff (inside : index < 32) :
    field &&& ((1 : UInt32) <<< UInt32.ofNat index) ≠ 0 ↔ bitAt field index = true := by
  have amount : (UInt32.ofNat index).toNat % 32 = index := by
    rw [UInt32.toNat_ofNat']
    omega
  have power : (2 : Nat) ^ index < 2 ^ 32 := Nat.pow_lt_pow_right (by decide) inside
  rw [ne_eq, ← UInt32.toNat_inj, UInt32.toNat_and, UInt32.toNat_shiftLeft, amount,
    UInt32.toNat_one, Nat.one_shiftLeft, Nat.mod_eq_of_lt power,
    Nat.and_two_pow, bitAt]
  cases field.toNat.testBit index with
  | _ => simp

end Eidolon.Library
