import Mathlib.Data.List.ProdSigma
import Mathlib.Data.List.FinRange
import Eidolon.Spatial.Query

/-!
# The cells of a query

The cells that a query visits are those within its reach of the cell of the center, each
once, and no two of them have the same key.
-/

namespace Eidolon.Spatial

open Core List

namespace CellCoord

theorem toInt_ofInt_ediv (coordinate : Fixed64) {size : Int} (positive : 0 < size) :
    (Int32.ofInt (coordinate.toI32.toInt / size)).toInt =
      coordinate.raw.toInt / (2 ^ 32 * size) := by
  have low := coordinate.raw.le_toInt
  have high := coordinate.raw.toInt_lt
  have metres : coordinate.toI32.toInt = coordinate.raw.toInt / 2 ^ 32 := by
    rw [Fixed64.toI32, Fixed64.scale, Int32.toInt_ofInt_of_le]
    · omega
    omega
  rw [metres, ← Int.ediv_ediv_of_nonneg (by decide), Int32.toInt_ofInt_of_le]
  · apply Int.le_ediv_of_mul_le positive
    omega
  apply Int.ediv_lt_of_lt_mul positive
  omega

theorem toInt_fromPosition (pos : Vec3Fix) : (fromPosition pos).x.toInt = pos.x.raw.toInt / 2 ^ 38 ∧
      (fromPosition pos).y.toInt = pos.y.raw.toInt / 2 ^ 37 ∧
        (fromPosition pos).z.toInt = pos.z.raw.toInt / 2 ^ 38 :=
  ⟨toInt_ofInt_ediv pos.x (by decide), toInt_ofInt_ediv pos.y (by decide),
    toInt_ofInt_ediv pos.z (by decide)⟩

theorem toNat_spatialKey (cell : CellCoord) :
    cell.spatialKey.toNat = (cell.x.toInt % 2 ^ 24).toNat * 2 ^ 40 +
      (cell.z.toInt % 2 ^ 24).toNat * 2 ^ 16 + (cell.y.toInt % 2 ^ 16).toNat := by
  rw [spatialKey]
  have xSmall : (cell.x.toInt % 2 ^ 24).toNat < 2 ^ 24 := by
    omega
  have zSmall : (cell.z.toInt % 2 ^ 24).toNat < 2 ^ 24 := by
    omega
  have ySmall : (cell.y.toInt % 2 ^ 16).toNat < 2 ^ 16 := by
    omega
  generalize (cell.x.toInt % 2 ^ 24).toNat = xBits at xSmall ⊢
  generalize (cell.z.toInt % 2 ^ 24).toNat = zBits at zSmall ⊢
  generalize (cell.y.toInt % 2 ^ 16).toNat = yBits at ySmall ⊢
  simp only [UInt64.toNat_or, UInt64.toNat_shiftLeft, UInt64.toNat_ofNat']
  have shifts : (40 : UInt64).toNat % 64 = 40 ∧ (16 : UInt64).toNat % 64 = 16 := by
    decide
  rw [shifts.1, shifts.2, Nat.mod_eq_of_lt (by omega : xBits < 2 ^ 64),
    Nat.mod_eq_of_lt (by omega : zBits < 2 ^ 64), Nat.mod_eq_of_lt (by omega : yBits < 2 ^ 64),
    Nat.shiftLeft_eq, Nat.shiftLeft_eq, Nat.mod_eq_of_lt (by omega : xBits * 2 ^ 40 < 2 ^ 64),
    Nat.mod_eq_of_lt (by omega : zBits * 2 ^ 16 < 2 ^ 64)]
  have lower : zBits * 2 ^ 16 ||| yBits = zBits * 2 ^ 16 + yBits := by
    rw [← Nat.shiftLeft_eq, Nat.shiftLeft_add_eq_or_of_lt ySmall]
  have upper : xBits * 2 ^ 40 ||| (zBits * 2 ^ 16 + yBits) =
      xBits * 2 ^ 40 + (zBits * 2 ^ 16 + yBits) := by
    rw [← Nat.shiftLeft_eq, Nat.shiftLeft_add_eq_or_of_lt (by omega)]
  rw [Nat.or_assoc, lower, upper, Nat.add_assoc]

theorem spatialKey_eq_iff {first second : CellCoord} :
    first.spatialKey = second.spatialKey ↔
      first.x.toInt % 2 ^ 24 = second.x.toInt % 2 ^ 24 ∧
        first.y.toInt % 2 ^ 16 = second.y.toInt % 2 ^ 16 ∧
          first.z.toInt % 2 ^ 24 = second.z.toInt % 2 ^ 24 := by
  have digits : ∀ x y z otherX otherY otherZ : Nat, y < 2 ^ 16 → otherY < 2 ^ 16 →
      z < 2 ^ 24 → otherZ < 2 ^ 24 →
        (x * 2 ^ 40 + z * 2 ^ 16 + y = otherX * 2 ^ 40 + otherZ * 2 ^ 16 + otherY ↔
          x = otherX ∧ y = otherY ∧ z = otherZ) := by
    omega
  have residues : ∀ modulus : Nat, 0 < modulus → ∀ left right : Int,
      (left % modulus).toNat = (right % modulus).toNat ↔ left % modulus = right % modulus := by
    intro modulus positive left right
    have leftNonneg := Int.emod_nonneg left (Int.natCast_ne_zero.mpr (Nat.ne_of_gt positive))
    have rightNonneg := Int.emod_nonneg right (Int.natCast_ne_zero.mpr (Nat.ne_of_gt positive))
    omega
  rw [← UInt64.toNat_inj, toNat_spatialKey, toNat_spatialKey,
    digits _ _ _ _ _ _ (by omega) (by omega) (by omega) (by omega)]
  exact and_congr (residues (2 ^ 24) (by decide) _ _)
    (and_congr (residues (2 ^ 16) (by decide) _ _) (residues (2 ^ 24) (by decide) _ _))

theorem ext_toInt {first second : CellCoord} (sameX : first.x.toInt = second.x.toInt)
    (sameY : first.y.toInt = second.y.toInt) (sameZ : first.z.toInt = second.z.toInt) :
    first = second := by
  cases first with
  | mk x y z =>
    cases second with
    | mk otherX otherY otherZ =>
      rw [mk.injEq]
      exact ⟨Int32.toInt_inj.mp sameX, Int32.toInt_inj.mp sameY, Int32.toInt_inj.mp sameZ⟩

end CellCoord

/-- How many cells a query goes, horizontally and vertically. -/
def reach (radiusSq : Fixed64) : Int × Int :=
  if radiusSq.raw.toInt ≤ 4096 * 2 ^ 32 then
    (1, if radiusSq.raw.toInt ≤ 1024 * 2 ^ 32 then 1 else 2)
  else if radiusSq.raw.toInt ≤ 16384 * 2 ^ 32 then
    (2, 4)
  else
    let root : Int := Nat.sqrt (radiusSq.raw.toInt * 2 ^ 32).toNat
    ((root / 64 + (2 ^ 32 - 1)) / 2 ^ 32, (root / 32 + (2 ^ 32 - 1)) / 2 ^ 32)

theorem toInt_max_one (value : Int32) : (max value 1).toInt = max value.toInt 1 := by
  have one : (1 : Int32).toInt = 1 := by decide
  change (if value ≤ 1 then (1 : Int32) else value).toInt = _
  split
  · rename_i small
    rw [Int32.le_iff_toInt_le] at small
    omega
  rename_i large
  rw [Int32.le_iff_toInt_le] at large
  omega

theorem toInt_ceil_saturatingDiv {root : Fixed64} {size : Int32} (positive : 0 < size.toInt)
    (nonneg : 0 ≤ root.raw.toInt) (small : root.raw.toInt < 2 ^ 60) :
    ((root.saturatingDiv (Fixed64.fromI32 size)).ceil.toI32).toInt =
      (root.raw.toInt / size.toInt + (2 ^ 32 - 1)) / 2 ^ 32 := by
  have bound := size.toInt_lt
  have divisor : (Fixed64.fromI32 size).raw.toInt = size.toInt * 2 ^ 32 := by
    rw [Fixed64.fromI32, Fixed64.scale, Int64.toInt_ofInt_of_le]
    · omega
    omega
  have nonzero : (Fixed64.fromI32 size).raw ≠ 0 := by
    intro zero
    have zeroIs : (0 : Int64).toInt = 0 := by decide
    rw [zero] at divisor
    omega
  have quotientLow : 0 ≤ root.raw.toInt / size.toInt :=
    Int.ediv_nonneg nonneg (Int.le_of_lt positive)
  have quotientHigh : root.raw.toInt / size.toInt ≤ root.raw.toInt :=
    Int.ediv_le_self _ nonneg
  have quotient : (root.saturatingDiv (Fixed64.fromI32 size)).raw.toInt =
      root.raw.toInt / size.toInt := by
    rw [Fixed64.saturatingDiv, if_neg nonzero]
    rw [Fixed64.toInt_ofIntClamp, divisor, Fixed64.scale,
      Int.tdiv_eq_ediv_of_nonneg (Int.mul_nonneg nonneg (by decide)),
      Int.mul_ediv_mul_of_pos_left _ _ (by decide), Fixed64.maxRaw]
    omega
  rw [Fixed64.toI32, Fixed64.ceil, Fixed64.scale]
  split
  · rw [Int32.toInt_ofInt_of_le]
    · omega
    · omega
    omega
  rw [Int64.toInt_ofInt_of_le, Int32.toInt_ofInt_of_le]
  · omega
  · omega
  · omega
  · omega
  omega

variable {radiusSq : Fixed64}

theorem sqrt_bounds (large : 16384 * 2 ^ 32 < radiusSq.raw.toInt) :
    128 * 2 ^ 32 ≤ Nat.sqrt (radiusSq.raw.toInt * 2 ^ 32).toNat ∧
      Nat.sqrt (radiusSq.raw.toInt * 2 ^ 32).toNat < 2 ^ 48 := by
  have bound := radiusSq.raw.toInt_lt
  rw [Nat.le_sqrt, Nat.sqrt_lt]
  constructor
  · omega
  omega

theorem searchReach_toInt (radiusSq : Fixed64) :
    ((searchReach radiusSq).1.toInt, (searchReach radiusSq).2.toInt) = reach radiusSq := by
  have limit : ∀ (metres : Int32) (value : Int), metres.toInt = value → 0 ≤ value →
      (radiusSq ≤ Fixed64.fromI32 metres ↔ radiusSq.raw.toInt ≤ value * 2 ^ 32) := by
    intro metres value isValue nonneg
    have bound := metres.toInt_lt
    rw [Fixed64.le_iff, Fixed64.fromI32, Fixed64.scale, isValue, Int64.toInt_ofInt_of_le]
    · omega
    omega
  have first : radiusSq ≤ Fixed64.fromI32 1024 ↔ radiusSq.raw.toInt ≤ 1024 * 2 ^ 32 :=
    limit 1024 1024 (by decide) (by decide)
  have second : radiusSq ≤ Fixed64.fromI32 4096 ↔ radiusSq.raw.toInt ≤ 4096 * 2 ^ 32 :=
    limit 4096 4096 (by decide) (by decide)
  have third : radiusSq ≤ Fixed64.fromI32 16384 ↔ radiusSq.raw.toInt ≤ 16384 * 2 ^ 32 :=
    limit 16384 16384 (by decide) (by decide)
  rw [searchReach, reach]
  simp only [first, second, third]
  split
  · split <;> rfl
  split
  · rfl
  rename_i large
  obtain ⟨rootLow, rootHigh⟩ := sqrt_bounds (Int.not_le.mp large)
  have root := @Fixed64.sqrt_toInt radiusSq (by omega)
  have horizontal := @toInt_ceil_saturatingDiv radiusSq.sqrt cellHorizontalSize
    (by decide) (by omega) (by omega)
  have vertical := @toInt_ceil_saturatingDiv radiusSq.sqrt cellVerticalSize
    (by decide) (by omega) (by omega)
  have sizes : cellHorizontalSize.toInt = 64 ∧ cellVerticalSize.toInt = 32 := by
    decide
  rw [sizes.1, root] at horizontal
  rw [sizes.2, root] at vertical
  rw [toInt_max_one, toInt_max_one, horizontal, vertical, Prod.mk.injEq]
  clear root horizontal vertical
  constructor
  · omega
  omega

theorem reach_bounds (radiusSq : Fixed64) : 1 ≤ (reach radiusSq).1 ∧ (reach radiusSq).1 ≤ 2048 ∧
      1 ≤ (reach radiusSq).2 ∧ (reach radiusSq).2 ≤ 2048 := by
  rw [reach]
  split
  · split <;> decide
  split
  · decide
  rename_i large
  obtain ⟨rootLow, rootHigh⟩ := sqrt_bounds (Int.not_le.mp large)
  simp only
  omega

variable (center : Vec3Fix)

def cellsWithin (horizontal vertical : Int32) : List CellCoord :=
  let centerCell := CellCoord.fromPosition center
  (offsets horizontal).flatMap fun dx =>
    (offsets horizontal).flatMap fun dz =>
      (offsets vertical).map fun dy =>
        { x := centerCell.x + dx, y := centerCell.y + dy, z := centerCell.z + dz }

theorem neighborCells_eq (radiusSq : Fixed64) : neighborCells center radiusSq =
      cellsWithin center (searchReach radiusSq).1 (searchReach radiusSq).2 :=
  rfl

def CloseTo (horizontal vertical : Int) (cell : CellCoord) : Prop :=
  let origin := CellCoord.fromPosition center
  (cell.x.toInt - origin.x.toInt).natAbs ≤ horizontal ∧
    (cell.y.toInt - origin.y.toInt).natAbs ≤ vertical ∧
      (cell.z.toInt - origin.z.toInt).natAbs ≤ horizontal

variable {center : Vec3Fix}

theorem CloseTo.eq_of_spatialKey {horizontal vertical : Int} (narrow : horizontal ≤ 2048)
    (low : vertical ≤ 2048) {first second : CellCoord}
    (close : CloseTo center horizontal vertical first)
    (alsoClose : CloseTo center horizontal vertical second)
    (sameKey : first.spatialKey = second.spatialKey) : first = second := by
  obtain ⟨firstX, firstY, firstZ⟩ := close
  obtain ⟨secondX, secondY, secondZ⟩ := alsoClose
  obtain ⟨sameX, sameY, sameZ⟩ := CellCoord.spatialKey_eq_iff.mp sameKey
  apply CellCoord.ext_toInt
  · omega
  · omega
  omega

theorem mem_offsets_iff {bound offset : Int32} (nonneg : 0 ≤ bound.toInt)
    (small : bound.toInt < 2 ^ 30) :
    offset ∈ offsets bound ↔ (offset.toInt.natAbs : Int) ≤ bound.toInt := by
  rw [offsets, List.mem_map]
  constructor
  · intro member
    obtain ⟨step, inRange, isOffset⟩ := member
    rw [mem_range] at inRange
    rw [← isOffset, Int32.toInt_ofInt_of_le]
    · omega
    · omega
    omega
  intro within
  refine ⟨(offset.toInt + bound.toInt).toNat, ?_, ?_⟩
  · rw [mem_range]
    omega
  rw [← Int32.toInt_inj, Int32.toInt_ofInt_of_le]
  · omega
  · omega
  omega

theorem nodup_offsets {bound : Int32} (small : bound.toInt < 2 ^ 30) : (offsets bound).Nodup := by
  apply List.Nodup.map_on _ nodup_range
  intro first inFirst second inSecond same
  rw [mem_range] at inFirst inSecond
  have equal := congrArg Int32.toInt same
  rw [Int32.toInt_ofInt_of_le (by omega) (by omega),
    Int32.toInt_ofInt_of_le (by omega) (by omega)] at equal
  omega

theorem cellsWithin_eq (center : Vec3Fix) (horizontal vertical : Int32) :
    cellsWithin center horizontal vertical =
      (offsets horizontal ×ˢ (offsets horizontal ×ˢ offsets vertical)).map
          fun offset =>
            { x := (CellCoord.fromPosition center).x + offset.1
              y := (CellCoord.fromPosition center).y + offset.2.2
              z := (CellCoord.fromPosition center).z + offset.2.1 } := by
  simp only [SProd.sprod, List.product, map_flatMap, List.map_map]
  rfl

theorem nodup_cellsWithin (center : Vec3Fix) {horizontal vertical : Int32}
    (narrow : horizontal.toInt ≤ 2048) (low : vertical.toInt ≤ 2048) :
    (cellsWithin center horizontal vertical).Nodup := by
  have horizontals := @nodup_offsets horizontal (by omega)
  have verticals := @nodup_offsets vertical (by omega)
  rw [cellsWithin_eq]
  refine List.Nodup.map ?_ (horizontals.product (horizontals.product verticals))
  intro first second same
  rw [CellCoord.mk.injEq, Int32.add_right_inj, Int32.add_right_inj, Int32.add_right_inj] at same
  exact Prod.ext same.1 (Prod.ext same.2.2 same.2.1)

variable {cell : CellCoord}

theorem mem_cellsWithin_iff {horizontal vertical : Int32} (wide : 0 ≤ horizontal.toInt)
    (narrow : horizontal.toInt ≤ 2048) (high : 0 ≤ vertical.toInt) (low : vertical.toInt ≤ 2048) :
    cell ∈ cellsWithin center horizontal vertical ↔
      CloseTo center horizontal.toInt vertical.toInt cell := by
  have inHorizontal : ∀ offset, offset ∈ offsets horizontal ↔
      (offset.toInt.natAbs : Int) ≤ horizontal.toInt :=
    fun offset => mem_offsets_iff (by omega) (by omega)
  have inVertical : ∀ offset, offset ∈ offsets vertical ↔
      (offset.toInt.natAbs : Int) ≤ vertical.toInt :=
    fun offset => mem_offsets_iff (by omega) (by omega)
  rw [cellsWithin_eq, List.mem_map]
  simp only [Prod.exists, mem_product, inHorizontal, inVertical]
  obtain ⟨cellX, cellY, cellZ⟩ := CellCoord.toInt_fromPosition center
  have added : ∀ (origin offset : Int32), (-2 ^ 26 ≤ origin.toInt ∧ origin.toInt < 2 ^ 26) →
      (offset.toInt.natAbs : Int) ≤ 2048 →
        (origin + offset).toInt = origin.toInt + offset.toInt := by
    intro origin offset small near
    rw [Int32.toInt_add]
    apply Int.bmod_eq_of_le
    · omega
    omega
  have lowX := center.x.raw.le_toInt
  have highX := center.x.raw.toInt_lt
  have lowY := center.y.raw.le_toInt
  have highY := center.y.raw.toInt_lt
  have lowZ := center.z.raw.le_toInt
  have highZ := center.z.raw.toInt_lt
  constructor
  · intro found
    obtain ⟨dx, dz, dy, ⟨nearX, nearZ, nearY⟩, isCell⟩ := found
    rw [← isCell, CloseTo]
    rw [added _ _ (by omega) (by omega), added _ _ (by omega) (by omega),
      added _ _ (by omega) (by omega)]
    omega
  intro close
  obtain ⟨nearX, nearY, nearZ⟩ := close
  have offset : ∀ value : Int, (value.natAbs : Int) ≤ 2048 → (Int32.ofInt value).toInt = value := by
    intro value near
    rw [Int32.toInt_ofInt_of_le]
    · omega
    omega
  have isX := offset (cell.x.toInt - (CellCoord.fromPosition center).x.toInt) (by omega)
  have isY := offset (cell.y.toInt - (CellCoord.fromPosition center).y.toInt) (by omega)
  have isZ := offset (cell.z.toInt - (CellCoord.fromPosition center).z.toInt) (by omega)
  refine ⟨_, _, _, ⟨?_, ?_, ?_⟩, CellCoord.ext_toInt
    ((added _ _ (by omega) (by rw [isX]; omega)).trans (by omega))
    ((added _ _ (by omega) (by rw [isY]; omega)).trans (by omega))
    ((added _ _ (by omega) (by rw [isZ]; omega)).trans (by omega))⟩
  · rw [isX]
    exact nearX
  · rw [isZ]
    exact nearZ
  rw [isY]
  exact nearY

def Visited (center : Vec3Fix) (radiusSq : Fixed64) (cell : CellCoord) : Prop :=
  let origin := CellCoord.fromPosition center
  (cell.x.toInt - origin.x.toInt).natAbs ≤ (reach radiusSq).1 ∧
    (cell.y.toInt - origin.y.toInt).natAbs ≤ (reach radiusSq).2 ∧
      (cell.z.toInt - origin.z.toInt).natAbs ≤ (reach radiusSq).1

theorem visited_iff_closeTo :
    Visited center radiusSq cell ↔ CloseTo center (reach radiusSq).1 (reach radiusSq).2 cell :=
  Iff.rfl

theorem Visited.eq_of_spatialKey {first second : CellCoord}
    (visited : Visited center radiusSq first) (alsoVisited : Visited center radiusSq second)
    (sameKey : first.spatialKey = second.spatialKey) : first = second := by
  obtain ⟨_, horizontal, _, vertical⟩ := reach_bounds radiusSq
  exact CloseTo.eq_of_spatialKey horizontal vertical (visited_iff_closeTo.mp visited)
    (visited_iff_closeTo.mp alsoVisited) sameKey

theorem searchReach_bounds (radiusSq : Fixed64) :
    ((searchReach radiusSq).1.toInt = (reach radiusSq).1 ∧
      (searchReach radiusSq).2.toInt = (reach radiusSq).2) := by
  have same := searchReach_toInt radiusSq
  exact ⟨congrArg Prod.fst same, congrArg Prod.snd same⟩

theorem nodup_neighborCells (center : Vec3Fix) (radiusSq : Fixed64) :
    (neighborCells center radiusSq).Nodup := by
  obtain ⟨horizontal, vertical⟩ := searchReach_bounds radiusSq
  have bounds := reach_bounds radiusSq
  rw [neighborCells_eq]
  exact nodup_cellsWithin center (by omega) (by omega)

theorem mem_neighborCells_iff :
    cell ∈ neighborCells center radiusSq ↔ Visited center radiusSq cell := by
  obtain ⟨horizontal, vertical⟩ := searchReach_bounds radiusSq
  have bounds := reach_bounds radiusSq
  rw [neighborCells_eq,
    mem_cellsWithin_iff (by omega) (by omega) (by omega) (by omega), horizontal, vertical,
    visited_iff_closeTo]

end Eidolon.Spatial
