import Eidolon.Spatial.NeighborCells

/-!
# Pruning by boxes

The quadrant and the leaf of a position are not farther from the center than the position
itself, except at the far end of the world, where the upper edge of a box wraps around.
-/

namespace Eidolon.Spatial

open Core

namespace QuadtreeAabb

def gapSquare (low high coordinate : Fixed64) : Fixed64 :=
  (gap low high coordinate).saturatingMul (gap low high coordinate)

theorem gapSquare_eq (low high coordinate : Fixed64) : gapSquare low high coordinate =
      if coordinate < low then Fixed64.axisSquare low coordinate
      else if high < coordinate then Fixed64.axisSquare coordinate high
      else Fixed64.zero := by
  rw [gapSquare, gap]
  split
  · rfl
  split
  · rfl
  decide

theorem gapSquare_nonneg (low high coordinate : Fixed64) :
    0 ≤ (gapSquare low high coordinate).raw.toInt := by
  rw [gapSquare_eq]
  split
  · exact Fixed64.axisSquare_nonneg low coordinate
  split
  · exact Fixed64.axisSquare_nonneg coordinate high
  decide

theorem gapSquare_le {low high coordinate other : Fixed64} (above : low.raw.toInt ≤ other.raw.toInt)
    (inside : coordinate.raw.toInt < low.raw.toInt ∨ other.raw.toInt ≤ high.raw.toInt) :
    (gapSquare low high coordinate).raw.toInt ≤
      (Fixed64.axisSquare other coordinate).raw.toInt := by
  rw [gapSquare_eq]
  split
  · rename_i before
    rw [Fixed64.lt_iff] at before
    apply Fixed64.axisSquare_mono
    omega
  rename_i notBefore
  rw [Fixed64.lt_iff] at notBefore
  split
  · rename_i behind
    rw [Fixed64.lt_iff] at behind
    apply Fixed64.axisSquare_mono
    omega
  exact Fixed64.axisSquare_nonneg other coordinate

theorem toInt_distanceSquaredToPoint (aabb : QuadtreeAabb) (cx cz : Fixed64) :
    (aabb.distanceSquaredToPoint cx cz).raw.toInt =
      min ((gapSquare aabb.minX aabb.maxX cx).raw.toInt +
        (gapSquare aabb.minZ aabb.maxZ cz).raw.toInt) Fixed64.maxRaw :=
  Fixed64.toInt_saturatingAdd_of_nonneg (gapSquare_nonneg _ _ cx) (gapSquare_nonneg _ _ cz)

end QuadtreeAabb

namespace HotspotCell

open QuadtreeAabb

def quadrantOf (leaf : Fin 16) : Fin 4 :=
  ⟨(1 - leaf.val / 8) * 2 + leaf.val % 4 / 2, by
    omega⟩

theorem mem_quadrantToLeaves_iff (quadrant : Fin 4) (leaf : Fin 16) :
    leaf ∈ quadrantToLeaves quadrant ↔ quadrant = quadrantOf leaf := by
  revert quadrant leaf
  decide

theorem nodup_quadrantToLeaves (quadrant : Fin 4) : (quadrantToLeaves quadrant).Nodup := by
  revert quadrant
  decide

theorem quadrantAabb_eq (cell : CellCoord) (quadrant : Fin 4) : quadrantAabb cell quadrant =
      squareAabb cell (Int32.ofNat (quadrant.val % 2 * 32))
        (Int32.ofNat ((1 - quadrant.val / 2) * 32)) (Int32.ofNat 32) := by
  match quadrant with
  | 0 => rfl
  | 1 => rfl
  | 2 => rfl
  | 3 => rfl

theorem quadrantAabb_quadrantOf (cell : CellCoord) (leaf : Fin 16) :
    quadrantAabb cell (quadrantOf leaf) =
      squareAabb cell (Int32.ofNat (leaf.val % 4 / 2 * 32)) (Int32.ofNat (leaf.val / 8 * 32))
        (Int32.ofNat 32) := by
  have column : (quadrantOf leaf).val % 2 = leaf.val % 4 / 2 := by
    rw [quadrantOf]
    simp only
    omega
  have row : 1 - (quadrantOf leaf).val / 2 = leaf.val / 8 := by
    rw [quadrantOf]
    simp only
    omega
  rw [quadrantAabb_eq, column, row]

def lastEdge : Int :=
  (2 ^ 31 - 32) * 2 ^ 32

variable {cell : Int32} {position : Fixed64}

/-- The box of a part of a cell along one axis: the part starts at a multiple of its edge,
and its upper edge wraps around at the end of the world. -/
theorem toInt_edges {offset edge : Nat} (isCell : cell.toInt = position.raw.toInt / 2 ^ 38)
    (isPart : edge = 16 ∨ edge = 32)
    (isOffset : (offset : Int) = (position.raw.toInt / 2 ^ 32 - cell.toInt * 64) / edge * edge) :
    let low := Fixed64.fromI32 (cell * cellHorizontalSize + Int32.ofNat offset)
    let high := Fixed64.fromI32 (cell * cellHorizontalSize + Int32.ofNat offset + Int32.ofNat edge)
    low.raw.toInt = (cell.toInt * 64 + offset) * 2 ^ 32 ∧ low.raw.toInt ≤ position.raw.toInt ∧
        position.raw.toInt < low.raw.toInt + edge * 2 ^ 32 ∧
        (high.raw.toInt = low.raw.toInt + edge * 2 ^ 32 ∨
          high.raw.toInt = -2 ^ 63 ∧ low.raw.toInt = 2 ^ 63 - edge * 2 ^ 32) := by
  have lowBound := position.raw.le_toInt
  have highBound := position.raw.toInt_lt
  have small : ∀ value : Nat, value ≤ 63 → (Int32.ofNat value).toInt = value := by
    intro value fits
    rw [Int32.toInt_ofNat_of_lt]
    omega
  have raw : ∀ metres : Int32, (Fixed64.fromI32 metres).raw.toInt = metres.toInt * 2 ^ 32 := by
    intro metres
    have metresLow := metres.le_toInt
    have metresHigh := metres.toInt_lt
    rw [Fixed64.fromI32, Fixed64.scale, Int64.toInt_ofInt_of_le]
    · omega
    omega
  have size : cellHorizontalSize.toInt = 64 := by
    decide
  have base : (cell * cellHorizontalSize).toInt = cell.toInt * 64 := by
    rw [Int32.toInt_mul, size]
    apply Int.bmod_eq_of_le
    · omega
    omega
  have offsetFits : offset ≤ 63 := by
    rcases isPart with half | half
    · rw [half] at isOffset
      omega
    rw [half] at isOffset
    omega
  have lowEdge : (cell * cellHorizontalSize + Int32.ofNat offset).toInt =
      cell.toInt * 64 + offset := by
    rw [Int32.toInt_add, base, small offset offsetFits]
    apply Int.bmod_eq_of_le
    · omega
    omega
  have within : cell.toInt * 64 + offset ≤ position.raw.toInt / 2 ^ 32 ∧
      position.raw.toInt / 2 ^ 32 < cell.toInt * 64 + offset + edge ∧
        cell.toInt * 64 + offset + edge ≤ 2 ^ 31 := by
    rcases isPart with part | part
    · rw [part] at isOffset ⊢
      omega
    rw [part] at isOffset ⊢
    omega
  have highEdge : (cell * cellHorizontalSize + Int32.ofNat offset + Int32.ofNat edge).toInt =
      cell.toInt * 64 + offset + edge ∨
        (cell * cellHorizontalSize + Int32.ofNat offset + Int32.ofNat edge).toInt = -2 ^ 31 ∧
          cell.toInt * 64 + offset + edge = 2 ^ 31 := by
    rw [Int32.toInt_add, lowEdge, small edge (by omega)]
    by_cases atEnd : cell.toInt * 64 + offset + edge = 2 ^ 31
    · rw [atEnd]
      exact .inr ⟨by decide, rfl⟩
    left
    apply Int.bmod_eq_of_le
    · omega
    omega
  simp only [raw, lowEdge]
  refine ⟨trivial, by omega, by omega, ?_⟩
  rcases highEdge with exact | wraps
  · omega
  omega

def AtLastEdge (first second : Fixed64) : Prop :=
  lastEdge ≤ first.raw.toInt ∧ lastEdge ≤ second.raw.toInt

def AtEdge (center position : Vec3Fix) : Prop :=
  AtLastEdge center.x position.x ∨ AtLastEdge center.z position.z

section

variable (isCell : cell.toInt = position.raw.toInt / 2 ^ 38)
include isCell

theorem gapSquare_le_of_part {offset edge : Nat} {center : Fixed64} (isPart : edge = 16 ∨ edge = 32)
    (isOffset : (offset : Int) = (position.raw.toInt / 2 ^ 32 - cell.toInt * 64) / edge * edge)
    (notAtEdge : ¬ AtLastEdge center position) :
    (gapSquare (Fixed64.fromI32 (cell * cellHorizontalSize + Int32.ofNat offset))
      (Fixed64.fromI32 (cell * cellHorizontalSize + Int32.ofNat offset + Int32.ofNat edge))
        center).raw.toInt ≤ (Fixed64.axisSquare position center).raw.toInt := by
  obtain ⟨_, above, below, high⟩ := toInt_edges isCell isPart isOffset
  rw [AtLastEdge, lastEdge] at notAtEdge
  apply gapSquare_le above
  omega

theorem gapSquare_of_atLastEdge {offset : Nat} {center : Fixed64}
    (isOffset : (offset : Int) = (position.raw.toInt / 2 ^ 32 - cell.toInt * 64) / 32 * 32)
    (atEdge : AtLastEdge center position) :
    (gapSquare (Fixed64.fromI32 (cell * cellHorizontalSize + Int32.ofNat offset))
      (Fixed64.fromI32 (cell * cellHorizontalSize + Int32.ofNat offset + Int32.ofNat 32))
        center).raw.toInt = Fixed64.maxRaw := by
  obtain ⟨low, above, below, high⟩ := toInt_edges isCell (.inr rfl) isOffset
  rw [AtLastEdge, lastEdge] at atEdge
  have highBound := (Fixed64.fromI32 (cell * cellHorizontalSize + Int32.ofNat offset +
    Int32.ofNat 32)).raw.toInt_lt
  have wraps : (Fixed64.fromI32 (cell * cellHorizontalSize + Int32.ofNat offset +
      Int32.ofNat 32)).raw.toInt = -2 ^ 63 := by
    omega
  have positive : -2 ^ 63 < center.raw.toInt := by
    omega
  rw [gapSquare_eq, if_neg, if_pos, Fixed64.toInt_axisSquare]
  · apply min_eq_right
    apply Fixed64.maxRaw_le_square
    rw [Fixed64.maxRaw]
    omega
  · rw [Fixed64.lt_iff, wraps]
    exact positive
  rw [Fixed64.lt_iff]
  omega

theorem toInt_sub_base : (position.toI32 - cell * cellHorizontalSize).toInt =
      position.raw.toInt / 2 ^ 32 - cell.toInt * 64 := by
  have low := position.raw.le_toInt
  have high := position.raw.toInt_lt
  have size : cellHorizontalSize.toInt = 64 := by
    decide
  have metres : position.toI32.toInt = position.raw.toInt / 2 ^ 32 := by
    rw [Fixed64.toI32, Fixed64.scale, Int32.toInt_ofInt_of_le]
    · omega
    omega
  have base : (cell * cellHorizontalSize).toInt = cell.toInt * 64 := by
    rw [Int32.toInt_mul, size]
    apply Int.bmod_eq_of_le
    · omega
    omega
  rw [Int32.toInt_sub, metres, base]
  apply Int.bmod_eq_of_le
  · omega
  omega

theorem clampedIndex_eq : (clampedIndex (position.toI32 - cell * cellHorizontalSize) : Int) =
      (position.raw.toInt / 2 ^ 32 - cell.toInt * 64) / 16 := by
  rw [clampedIndex, toInt_sub_base isCell, microQuadrantSize, Int.tdiv_eq_ediv_of_nonneg (by omega)]
  omega

end

variable {center position : Vec3Fix} {radiusSq : Fixed64}

/-- The parts of a cell that a position falls into are not pruned, unless it is at the far
end of the world with the center. -/
theorem intersects_iff (within : position.distanceSquared center ≤ radiusSq) :
    let cell := CellCoord.fromPosition position
    let leaf := computeLeafIndex cell position
    ((quadrantAabb cell (quadrantOf leaf)).intersectsCircle center.x center.z radiusSq = true ∧
      (leafAabb cell leaf).intersectsCircle center.x center.z radiusSq = true) ↔
        (AtEdge center position → radiusSq.raw.toInt = Fixed64.maxRaw) := by
  intro cell leaf
  have cellX : cell.x.toInt = position.x.raw.toInt / 2 ^ 38 :=
    (CellCoord.toInt_fromPosition position).1
  have cellZ : cell.z.toInt = position.z.raw.toInt / 2 ^ 38 :=
    (CellCoord.toInt_fromPosition position).2.2
  have indexX := clampedIndex_eq cellX
  have indexZ := clampedIndex_eq cellZ
  have column : leaf.val % 4 = clampedIndex (position.x.toI32 - cell.x * cellHorizontalSize) := by
    change (_ * 4 + _) % 4 = _
    omega
  have row : leaf.val / 4 = clampedIndex (position.z.toI32 - cell.z * cellHorizontalSize) := by
    change (_ * 4 + _) / 4 = _
    omega
  rw [quadrantAabb_quadrantOf, leafAabb, intersectsCircle, intersectsCircle,
    decide_eq_true_iff, decide_eq_true_iff, Fixed64.le_iff, Fixed64.le_iff,
    toInt_distanceSquaredToPoint, toInt_distanceSquaredToPoint]
  simp only [squareAabb]
  have quadrantX : ((leaf.val % 4 / 2 * 32 : Nat) : Int) =
      (position.x.raw.toInt / 2 ^ 32 - cell.x.toInt * 64) / 32 * 32 := by
    omega
  have quadrantZ : ((leaf.val / 8 * 32 : Nat) : Int) =
      (position.z.raw.toInt / 2 ^ 32 - cell.z.toInt * 64) / 32 * 32 := by
    omega
  have leafX : ((leaf.val % 4 * 16 : Nat) : Int) =
      (position.x.raw.toInt / 2 ^ 32 - cell.x.toInt * 64) / 16 * 16 := by
    omega
  have leafZ : ((leaf.val / 4 * 16 : Nat) : Int) =
      (position.z.raw.toInt / 2 ^ 32 - cell.z.toInt * 64) / 16 * 16 := by
    omega
  have limit := Fixed64.toInt_le_maxRaw radiusSq
  constructor
  · intro intersects atEdge
    have nonnegX := gapSquare_nonneg
      (Fixed64.fromI32 (cell.x * cellHorizontalSize + Int32.ofNat (leaf.val % 4 / 2 * 32)))
      (Fixed64.fromI32 (cell.x * cellHorizontalSize + Int32.ofNat (leaf.val % 4 / 2 * 32) +
        Int32.ofNat 32)) center.x
    have nonnegZ := gapSquare_nonneg
      (Fixed64.fromI32 (cell.z * cellHorizontalSize + Int32.ofNat (leaf.val / 8 * 32)))
      (Fixed64.fromI32 (cell.z * cellHorizontalSize + Int32.ofNat (leaf.val / 8 * 32) +
        Int32.ofNat 32)) center.z
    have quadrant := intersects.1
    rcases atEdge with edgeX | edgeZ
    · rw [gapSquare_of_atLastEdge cellX quadrantX edgeX] at quadrant
      omega
    rw [gapSquare_of_atLastEdge cellZ quadrantZ edgeZ] at quadrant
    omega
  intro allowed
  by_cases atEdge : AtEdge center position
  · have unbounded := allowed atEdge
    omega
  rw [AtEdge, not_or] at atEdge
  rw [Fixed64.le_iff, Vec3Fix.toInt_distanceSquared] at within
  have vertical := Fixed64.axisSquare_nonneg position.y center.y
  have quadrantGapX := gapSquare_le_of_part cellX (.inr rfl) quadrantX atEdge.1
  have quadrantGapZ := gapSquare_le_of_part cellZ (.inr rfl) quadrantZ atEdge.2
  have leafGapX := gapSquare_le_of_part cellX (.inl rfl) leafX atEdge.1
  have leafGapZ := gapSquare_le_of_part cellZ (.inl rfl) leafZ atEdge.2
  constructor
  · omega
  have sixteen : (16 : Int32) = Int32.ofNat 16 := rfl
  rw [sixteen]
  omega

end HotspotCell

end Eidolon.Spatial
