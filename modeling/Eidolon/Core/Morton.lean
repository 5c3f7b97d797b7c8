import Eidolon.Core.FixedOrder

/-!
# Morton codes

The bits of three coordinates interleaved into one code.
-/

namespace Eidolon.Core

open List Nat

def mortonCoordinateBias : Int := 2 ^ 20

def mortonMaxCoordinate : Int := 2 ^ 21 - 1

def spreadBits21 (x : Nat) : Nat :=
  (List.range 21).foldl
    (fun spread bit => if x.testBit bit then spread + 2 ^ (3 * bit) else spread) 0

def mortonEncodeU32 (x y z : Nat) : Nat :=
  spreadBits21 x + 2 * spreadBits21 y + 4 * spreadBits21 z

def biasedCoordinate (x : Int32) : Nat :=
  (max 0 (min mortonMaxCoordinate (x.toInt + mortonCoordinateBias))).toNat

def mortonEncodeI32 (x y z : Int32) : Nat :=
  mortonEncodeU32 (biasedCoordinate x) (biasedCoordinate y) (biasedCoordinate z)

def mortonEncodeVec3 (pos : Vec3Fix) : Nat :=
  mortonEncodeI32 pos.x.toI32 pos.y.toI32 pos.z.toI32

def compactSpread24 (w : Nat) : Nat :=
  (List.range 8).foldl (fun byte bit => if w.testBit (3 * bit) then byte + 2 ^ bit else byte) 0

/-- The words that are shifted out of the code are narrowed to 32 bits. -/
def compactBits21 (w : Nat) : Nat :=
  compactSpread24 (w % 2 ^ 32) + 2 ^ 8 * compactSpread24 (w / 2 ^ 24 % 2 ^ 32) +
    2 ^ 16 * compactSpread24 (w / 2 ^ 48 % 2 ^ 32)

def mortonDecodeU32 (code : Nat) : Nat × Nat × Nat :=
  (compactBits21 code, compactBits21 (code / 2), compactBits21 (code / 4))

def unbiasedCoordinate (biased : Nat) : Int32 :=
  Int32.ofInt (biased - mortonCoordinateBias)

def mortonDecodeI32 (code : Nat) : Int32 × Int32 × Int32 :=
  let (bx, by_, bz) := mortonDecodeU32 code
  (unbiasedCoordinate bx, unbiasedCoordinate by_, unbiasedCoordinate bz)

end Eidolon.Core

/-!
## The order of Morton codes

A code grows with each coordinate, so that the code of a position in a box lies between the
codes of its two corners.
-/

namespace Eidolon.Core

open List Nat

def spreadBits (count x : Nat) : Nat :=
  (List.range count).foldl
    (fun spread bit => if x.testBit bit then spread + 2 ^ (3 * bit) else spread) 0

theorem spreadBits21_eq (x : Nat) : spreadBits21 x = spreadBits 21 x :=
  rfl

theorem spreadBits_succ (count x : Nat) :
    spreadBits (count + 1) x = spreadBits count x + 8 ^ count * (x.testBit count).toNat := by
  have place : (2 : Nat) ^ (3 * count) = 8 ^ count := by
    rw [Nat.pow_mul]
  rw [spreadBits, range_succ, foldl_append, foldl_cons, foldl_nil, ← spreadBits, place]
  cases x.testBit count with
  | false => rfl
  | true => rw [if_pos rfl, Bool.toNat_true, Nat.mul_one]

theorem spreadBits_lt (count x : Nat) : spreadBits count x < 8 ^ count := by
  induction count with
  | zero => exact one_pos
  | succ count ih =>
    rw [spreadBits_succ, pow_succ]
    have atMost : 8 ^ count * (x.testBit count).toNat ≤ 8 ^ count * 1 :=
      mul_le_mul_left _ (Bool.toNat_le _)
    omega

theorem spreadBits_add (first second x : Nat) : spreadBits (first + second) x =
      spreadBits first x + 8 ^ first * spreadBits second (x / 2 ^ first) := by
  induction second with
  | zero => exact (Nat.add_zero _).symm
  | succ second ih =>
    rw [← Nat.add_assoc, spreadBits_succ, ih, spreadBits_succ,
      Nat.testBit_div_two_pow, add_comm second first, Nat.mul_add, pow_add,
      Nat.mul_assoc, Nat.add_assoc]

theorem spreadBits_mono {count x y : Nat} (below : x % 2 ^ count ≤ y % 2 ^ count) :
    spreadBits count x ≤ spreadBits count y := by
  induction count with
  | zero => exact le_refl _
  | succ count ih =>
    rw [mod_pow_succ, mod_pow_succ, ← Nat.toNat_testBit, ← Nat.toNat_testBit] at below
    rw [spreadBits_succ, spreadBits_succ]
    have xSmall := Nat.mod_lt x (Nat.two_pow_pos count)
    have ySmall := Nat.mod_lt y (Nat.two_pow_pos count)
    have xSpread := spreadBits_lt count x
    rcases xBit : x.testBit count with _ | _
    · rcases yBit : y.testBit count with _ | _
      · rw [xBit, yBit] at below
        simp only [Bool.toNat_false, mul_zero, Nat.add_zero] at below ⊢
        exact ih below
      simp only [Bool.toNat_false, Bool.toNat_true, mul_zero, Nat.mul_one]
      omega
    rcases yBit : y.testBit count with _ | _
    · rw [xBit, yBit] at below
      simp only [Bool.toNat_false, Bool.toNat_true, mul_zero, Nat.mul_one] at below
      omega
    rw [xBit, yBit] at below
    simp only [Bool.toNat_true, Nat.mul_one, add_le_add_iff_right] at below ⊢
    exact ih below

theorem biasedCoordinate_lt (x : Int32) : biasedCoordinate x < 2 ^ 21 := by
  rw [biasedCoordinate, mortonMaxCoordinate, mortonCoordinateBias]
  omega

theorem biasedCoordinate_mono {x y : Int32} (below : x.toInt ≤ y.toInt) :
    biasedCoordinate x ≤ biasedCoordinate y := by
  rw [biasedCoordinate, biasedCoordinate]
  omega

theorem spreadBits21_biased_mono {x y : Int32} (below : x.toInt ≤ y.toInt) :
    spreadBits21 (biasedCoordinate x) ≤ spreadBits21 (biasedCoordinate y) := by
  rw [spreadBits21_eq, spreadBits21_eq]
  apply spreadBits_mono
  rw [mod_eq_of_lt (biasedCoordinate_lt x), mod_eq_of_lt (biasedCoordinate_lt y)]
  exact biasedCoordinate_mono below

theorem mortonEncodeI32_mono {x y z x' y' z' : Int32} (alongX : x.toInt ≤ x'.toInt)
    (alongY : y.toInt ≤ y'.toInt) (alongZ : z.toInt ≤ z'.toInt) :
    mortonEncodeI32 x y z ≤ mortonEncodeI32 x' y' z' := by
  have spreadX := spreadBits21_biased_mono alongX
  have spreadY := spreadBits21_biased_mono alongY
  have spreadZ := spreadBits21_biased_mono alongZ
  rw [mortonEncodeI32, mortonEncodeI32, mortonEncodeU32, mortonEncodeU32]
  omega

end Eidolon.Core

/-!
## Decoding

Compacting takes every third bit, which are those of one coordinate.
-/

namespace Eidolon.Core

open List Nat

def compactBits (count w : Nat) : Nat :=
  (List.range count).foldl (fun byte bit => if w.testBit (3 * bit) then byte + 2 ^ bit else byte) 0

theorem compactBits_last (count w : Nat) :
    compactBits (count + 1) w = compactBits count w + 2 ^ count * (w.testBit (3 * count)).toNat := by
  rw [compactBits, range_succ, foldl_append, foldl_cons, foldl_nil, ← compactBits]
  cases w.testBit (3 * count) with
  | false => rfl
  | true => rw [if_pos rfl, Bool.toNat_true, Nat.mul_one]

theorem compactBits_add (first second w : Nat) : compactBits (first + second) w =
      compactBits first w + 2 ^ first * compactBits second (w / 8 ^ first) := by
  have place : (8 : Nat) ^ first = 2 ^ (3 * first) := by
    rw [Nat.pow_mul]
  induction second with
  | zero => exact (Nat.add_zero _).symm
  | succ second ih =>
    rw [← Nat.add_assoc, compactBits_last, ih, compactBits_last, place, Nat.testBit_div_two_pow,
      Nat.mul_add 3, add_comm (3 * second), Nat.mul_add, pow_add, Nat.mul_assoc,
      Nat.add_assoc]

theorem compactBits_mod {count kept : Nat} (enough : 3 * count ≤ kept) (w : Nat) :
    compactBits count (w % 2 ^ kept) = compactBits count w := by
  induction count with
  | zero => rfl
  | succ count ih =>
    rw [compactBits_last, compactBits_last, ih (by omega), testBit_mod_two_pow,
      decide_eq_true (by omega : 3 * count < kept), Bool.true_and]

theorem compactBits21_eq (w : Nat) : compactBits21 w = compactBits 24 w := by
  have eight (v : Nat) : compactSpread24 (v % 2 ^ 32) = compactBits 8 v :=
    compactBits_mod (by decide) v
  rw [compactBits21, eight, eight, eight, compactBits_add 8 16, compactBits_add 8 8,
    Nat.div_div_eq_div_mul, Nat.mul_add, ← Nat.mul_assoc, ← Nat.add_assoc]
  rfl

theorem compactBits_succ (count w : Nat) :
    compactBits (count + 1) w = w % 2 + 2 * compactBits count (w / 8) := by
  have first : compactBits 1 w = w % 2 := by
    rw [compactBits_last 0, Nat.pow_zero, Nat.one_mul, Nat.toNat_testBit, Nat.pow_zero, Nat.div_one]
    exact zero_add _
  rw [add_comm count, compactBits_add, first]
  rfl

theorem spreadBits_first (count x : Nat) :
    spreadBits (count + 1) x = x % 2 + 8 * spreadBits count (x / 2) := by
  have first : spreadBits 1 x = x % 2 := by
    rw [spreadBits_succ, Nat.pow_zero, Nat.one_mul, Nat.toNat_testBit, Nat.pow_zero, Nat.div_one]
    exact zero_add _
  rw [add_comm count, spreadBits_add, first]
  rfl

theorem compactBits_interleaved (count x y z : Nat) :
    let code := spreadBits count x + 2 * spreadBits count y + 4 * spreadBits count z
    compactBits count code = x % 2 ^ count ∧ compactBits count (code / 2) = y % 2 ^ count ∧
      compactBits count (code / 4) = z % 2 ^ count := by
  induction count generalizing x y z with
  | zero =>
    rw [Nat.pow_zero, mod_one, mod_one, mod_one]
    exact ⟨rfl, rfl, rfl⟩
  | succ count ih =>
    obtain ⟨lowX, lowY, lowZ⟩ := ih (x / 2) (y / 2) (z / 2)
    have split (v : Nat) : v % 2 ^ (count + 1) = v % 2 + 2 * (v / 2 % 2 ^ count) := by
      rw [pow_succ', mod_mul]
    simp only [compactBits_succ, spreadBits_first, split, ← lowX, ← lowY, ← lowZ]
    generalize spreadBits count (x / 2) = restX
    generalize spreadBits count (y / 2) = restY
    generalize spreadBits count (z / 2) = restZ
    refine ⟨?_, ?_, ?_⟩
    · have rest : (x % 2 + 8 * restX + 2 * (y % 2 + 8 * restY) + 4 * (z % 2 + 8 * restZ)) / 8 =
          restX + 2 * restY + 4 * restZ := by omega
      rw [rest]
      omega
    · have rest : (x % 2 + 8 * restX + 2 * (y % 2 + 8 * restY) + 4 * (z % 2 + 8 * restZ)) / 2 / 8 =
          (restX + 2 * restY + 4 * restZ) / 2 := by omega
      rw [rest]
      omega
    have rest : (x % 2 + 8 * restX + 2 * (y % 2 + 8 * restY) + 4 * (z % 2 + 8 * restZ)) / 4 / 8 =
        (restX + 2 * restY + 4 * restZ) / 4 := by omega
    rw [rest]
    omega

theorem mortonDecodeU32_encode {x y z : Nat} (smallX : x < 2 ^ 21) (smallY : y < 2 ^ 21)
    (smallZ : z < 2 ^ 21) : mortonDecodeU32 (mortonEncodeU32 x y z) = (x, y, z) := by
  have wide {v : Nat} (small : v < 2 ^ 21) : spreadBits21 v = spreadBits 24 v := by
    rw [spreadBits21_eq, spreadBits_add 21 3, div_eq_of_lt small]
    rfl
  obtain ⟨decodedX, decodedY, decodedZ⟩ := compactBits_interleaved 24 x y z
  rw [mortonDecodeU32, mortonEncodeU32, wide smallX, wide smallY, wide smallZ, compactBits21_eq,
    compactBits21_eq, compactBits21_eq, decodedX, decodedY, decodedZ, mod_eq_of_lt (by omega),
    mod_eq_of_lt (by omega), mod_eq_of_lt (by omega)]

/-- A coordinate that is encoded without clamping. -/
def Representable (x : Int32) : Prop :=
  -2 ^ 20 ≤ x.toInt ∧ x.toInt ≤ 2 ^ 20 - 1

theorem unbiasedCoordinate_biased {x : Int32} (representable : Representable x) :
    unbiasedCoordinate (biasedCoordinate x) = x := by
  obtain ⟨low, high⟩ := representable
  have back : (biasedCoordinate x : Int) - mortonCoordinateBias = x.toInt := by
    rw [biasedCoordinate, mortonMaxCoordinate, mortonCoordinateBias]
    omega
  rw [unbiasedCoordinate, back, Int32.ofInt_toInt]

/-- Decoding inverts encoding wherever nothing is clamped, and codes grow with every
coordinate, clamped or not. -/
theorem mortonEncodeI32_faithful : (∀ x y z, Representable x → Representable y → Representable z →
      mortonDecodeI32 (mortonEncodeI32 x y z) = (x, y, z)) ∧
    ∀ x y z x' y' z' : Int32, x ≤ x' → y ≤ y' → z ≤ z' →
      mortonEncodeI32 x y z ≤ mortonEncodeI32 x' y' z' := by
  refine ⟨?_, ?_⟩
  · intro x y z representableX representableY representableZ
    rw [mortonDecodeI32, mortonEncodeI32, mortonDecodeU32_encode (biasedCoordinate_lt x)
      (biasedCoordinate_lt y) (biasedCoordinate_lt z)]
    simp only [unbiasedCoordinate_biased, representableX, representableY, representableZ]
  intro x y z x' y' z' belowX belowY belowZ
  exact mortonEncodeI32_mono (Int32.le_iff_toInt_le.mp belowX) (Int32.le_iff_toInt_le.mp belowY)
    (Int32.le_iff_toInt_le.mp belowZ)

end Eidolon.Core
