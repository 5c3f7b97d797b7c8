import Mathlib.Data.List.Basic
import Mathlib.Tactic.Ring

/-!
# Integers as bytes

A natural number below `256 ^ width` as `width` bytes, least significant byte first
or last, and back.
-/

namespace Eidolon.Library

open List

/-- The low `width` bytes of a number, least significant first. -/
def littleEndian : Nat → Nat → List UInt8
  | 0, _ => []
  | width + 1, value => UInt8.ofNat value :: littleEndian width (value / 256)

def ofLittleEndian : List UInt8 → Nat
  | [] => 0
  | byte :: bytes => byte.toNat + 256 * ofLittleEndian bytes

/-- The low `width` bytes of a number, most significant first. -/
def bigEndian (width value : Nat) : List UInt8 :=
  (littleEndian width value).reverse

variable (bytes : List UInt8)

def ofBigEndian : Nat :=
  ofLittleEndian bytes.reverse

@[simp]
theorem length_littleEndian (width value : Nat) : (littleEndian width value).length = width := by
  induction width generalizing value with
  | zero => rfl
  | succ width ih => simp [littleEndian, ih]

@[simp]
theorem length_bigEndian (width value : Nat) : (bigEndian width value).length = width := by
  simp [bigEndian]

variable {width : Nat}

theorem ofLittleEndian_littleEndian {value : Nat} (small : value < 256 ^ width) :
    ofLittleEndian (littleEndian width value) = value := by
  induction width generalizing value with
  | zero =>
    simp only [littleEndian, ofLittleEndian]
    omega
  | succ width ih =>
    have quotientSmall : value / 256 < 256 ^ width := by
      exact Nat.div_lt_of_lt_mul (by omega)
    simp only [littleEndian, ofLittleEndian, ih quotientSmall, UInt8.toNat_ofNat']
    omega

theorem ofBigEndian_bigEndian {value : Nat} (small : value < 256 ^ width) :
    ofBigEndian (bigEndian width value) = value := by
  simp only [ofBigEndian, bigEndian, reverse_reverse]
  exact ofLittleEndian_littleEndian small

theorem ofLittleEndian_lt : ofLittleEndian bytes < 256 ^ bytes.length := by
  induction bytes with
  | nil => simp [ofLittleEndian]
  | cons byte bytes ih =>
    have byteSmall := byte.toNat_lt
    simp only [ofLittleEndian, length_cons, Nat.pow_succ]
    omega

theorem littleEndian_ofLittleEndian : littleEndian bytes.length (ofLittleEndian bytes) = bytes := by
  induction bytes with
  | nil => rfl
  | cons byte bytes ih =>
    have byteSmall := byte.toNat_lt
    have quotient : (byte.toNat + 256 * ofLittleEndian bytes) / 256 = ofLittleEndian bytes := by
      omega
    have low : UInt8.ofNat (byte.toNat + 256 * ofLittleEndian bytes) = byte := by
      apply UInt8.toNat.inj
      rw [UInt8.toNat_ofNat']
      omega
    rw [length_cons, ofLittleEndian, littleEndian, quotient, low, ih]

theorem bigEndian_ofBigEndian {bytes : List UInt8} (exact : bytes.length = width) :
    bigEndian width (ofBigEndian bytes) = bytes := by
  subst exact
  rw [bigEndian, ofBigEndian, ← length_reverse, littleEndian_ofLittleEndian, reverse_reverse]

theorem ofBigEndian_lt {bytes : List UInt8} (exact : bytes.length = width) :
    ofBigEndian bytes < 256 ^ width := by
  have bound := ofLittleEndian_lt bytes.reverse
  rw [length_reverse, exact] at bound
  exact bound

theorem take_drop_bigEndian {src before after : List UInt8} {value : Nat}
    (laidOut : src = before ++ (bigEndian width value ++ after)) {offset : Nat}
    (place : before.length = offset) : (src.drop offset).take width = bigEndian width value := by
  rw [laidOut, drop_left' place]
  exact take_left' (length_bigEndian width value)

theorem ofLittleEndian_append (first second : List UInt8) : ofLittleEndian (first ++ second) =
      ofLittleEndian first + 256 ^ first.length * ofLittleEndian second := by
  induction first with
  | nil => simp [ofLittleEndian]
  | cons byte first ih =>
    rw [cons_append, ofLittleEndian, ofLittleEndian, ih, length_cons]
    ring

theorem ofBigEndian_cons (byte : UInt8) (bytes : List UInt8) :
    ofBigEndian (byte :: bytes) = byte.toNat * 256 ^ bytes.length + ofBigEndian bytes := by
  rw [ofBigEndian, reverse_cons, ofLittleEndian_append, length_reverse,
    ofLittleEndian, ofLittleEndian, ofBigEndian]
  ring

end Eidolon.Library
