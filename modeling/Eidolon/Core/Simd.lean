import Eidolon.Core.FixedOrder

/-!
# Batches of positions

Distances of several positions from one point and steps of several positions, with one
array for each axis.
-/

namespace Eidolon.Core

variable (origins : Fin 4 → Vec3Fix)

def Vec3Fix.batchDistanceSquared4x (target : Vec3Fix) : Fin 4 → Fixed64 := fun lane =>
  let dx := (origins lane).x.saturatingSub target.x
  let dy := (origins lane).y.saturatingSub target.y
  let dz := (origins lane).z.saturatingSub target.z
  ((dx.saturatingMul dx).saturatingAdd (dy.saturatingMul dy)).saturatingAdd (dz.saturatingMul dz)

theorem Vec3Fix.batchDistanceSquared4x_eq (target : Vec3Fix) (lane : Fin 4) :
    batchDistanceSquared4x origins target lane = (origins lane).distanceSquared target :=
  rfl

structure Vec3FixLanes (lanes : Nat) where
  x : Fin lanes → Fixed64
  y : Fin lanes → Fixed64
  z : Fin lanes → Fixed64

abbrev Vec3Fix8x : Type :=
  Vec3FixLanes 8

abbrev Vec3Fix16x : Type :=
  Vec3FixLanes 16

namespace Vec3FixLanes

variable {lanes : Nat} (slice : Fin lanes → Vec3Fix)

def fromSlice : Vec3FixLanes lanes where
  x lane := (slice lane).x
  y lane := (slice lane).y
  z lane := (slice lane).z

variable (self : Vec3FixLanes lanes)

def writeToSlice : Fin lanes → Vec3Fix := fun lane =>
  { x := self.x lane, y := self.y lane, z := self.z lane }

def saturatingAdd (self other : Vec3FixLanes lanes) : Vec3FixLanes lanes where
  x lane := (self.x lane).saturatingAdd (other.x lane)
  y lane := (self.y lane).saturatingAdd (other.y lane)
  z lane := (self.z lane).saturatingAdd (other.z lane)

def mulScalar (scalar : Fixed64) : Vec3FixLanes lanes where
  x lane := (self.x lane).saturatingMul scalar
  y lane := (self.y lane).saturatingMul scalar
  z lane := (self.z lane).saturatingMul scalar

def stepKinematicsChunk (positions velocities : Fin lanes → Vec3Fix) (dt : Fixed64) :
    Fin lanes → Vec3Fix :=
  ((fromSlice positions).saturatingAdd ((fromSlice velocities).mulScalar dt)).writeToSlice

theorem stepKinematicsChunk_apply (positions velocities : Fin lanes → Vec3Fix) (dt : Fixed64)
    (lane : Fin lanes) :
    stepKinematicsChunk positions velocities dt lane =
      (positions lane).add ((velocities lane).scale dt) :=
  rfl

variable (target : Vec3Fix)

def batchDistanceSquared : Fin lanes → Fixed64 := fun lane =>
  let dx := (self.x lane).saturatingSub target.x
  let dy := (self.y lane).saturatingSub target.y
  let dz := (self.z lane).saturatingSub target.z
  ((dx.saturatingMul dx).saturatingAdd (dy.saturatingMul dy)).saturatingAdd (dz.saturatingMul dz)

def filterWithinRadius (radiusSq : Fixed64) : BitVec lanes :=
  (List.finRange lanes).foldl (fun mask lane =>
    if self.batchDistanceSquared target lane ≤ radiusSq then
      mask ||| (BitVec.ofNat lanes 1 <<< lane.val)
    else
      mask) (BitVec.ofNat lanes 0)

theorem getLsbD_one_shiftLeft (lane index : Fin lanes) :
    (BitVec.ofNat lanes 1 <<< lane.val).getLsbD index.val = decide (index = lane) := by
  have inside := index.isLt
  rw [BitVec.getLsbD_shiftLeft, BitVec.getLsbD_one, decide_eq_true inside, Bool.true_and,
    decide_eq_true (by omega : 0 < lanes), Bool.true_and]
  by_cases same : index = lane
  · rw [same]
    simp
  rw [decide_eq_false same, Bool.and_eq_false_iff, decide_eq_false_iff_not,
    Bool.not_eq_false', decide_eq_true_iff]
  omega

theorem getLsbD_foldl (chosen : Fin lanes → Prop) [DecidablePred chosen]
    (visited : List (Fin lanes)) (mask : BitVec lanes) (index : Fin lanes) :
    (visited.foldl (fun mask lane =>
      if chosen lane then mask ||| (BitVec.ofNat lanes 1 <<< lane.val) else mask) mask).getLsbD
        index.val = true ↔ mask.getLsbD index.val = true ∨ (index ∈ visited ∧ chosen index) := by
  induction visited generalizing mask with
  | nil => simp
  | cons lane visited ih =>
    rw [List.foldl_cons, ih]
    by_cases isChosen : chosen lane
    · rw [if_pos isChosen, BitVec.getLsbD_or, getLsbD_one_shiftLeft]
      by_cases same : index = lane
      · simp [same, isChosen]
      simp [same]
    rw [if_neg isChosen]
    by_cases same : index = lane
    · simp [same, isChosen]
    simp [same]

theorem filterWithinRadius_test (radiusSq : Fixed64) (lane : Fin lanes) :
    ((fromSlice slice).filterWithinRadius target radiusSq &&& (BitVec.ofNat lanes 1 <<< lane.val)) ≠
        BitVec.ofNat lanes 0 ↔ (slice lane).distanceSquared target ≤ radiusSq := by
  have bit : ((fromSlice slice).filterWithinRadius target radiusSq).getLsbD lane.val =
      decide ((slice lane).distanceSquared target ≤ radiusSq) := by
    rw [Bool.eq_iff_iff, filterWithinRadius, getLsbD_foldl, decide_eq_true_iff]
    simp only [BitVec.getLsbD_zero, Bool.false_eq_true, false_or, List.mem_finRange, true_and]
    rfl
  constructor
  · intro nonzero
    by_contra outside
    apply nonzero
    apply BitVec.eq_of_getLsbD_eq
    intro index inside
    rw [BitVec.getLsbD_and, BitVec.getLsbD_zero, getLsbD_one_shiftLeft lane ⟨index, inside⟩]
    by_cases same : (⟨index, inside⟩ : Fin lanes) = lane
    · have sameIndex : index = lane.val := congrArg Fin.val same
      have noBit := bit.trans (decide_eq_false outside)
      rw [← sameIndex] at noBit
      rw [noBit, Bool.false_and]
    rw [decide_eq_false same, Bool.and_false]
  intro within zero
  have noBit := congrArg (fun mask => mask.getLsbD lane.val) zero
  simp only [BitVec.getLsbD_and, BitVec.getLsbD_zero, bit, getLsbD_one_shiftLeft] at noBit
  simp [within] at noBit

end Vec3FixLanes

end Eidolon.Core
