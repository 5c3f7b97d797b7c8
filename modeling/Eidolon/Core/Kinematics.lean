import Eidolon.Core.FixedOrder
import Eidolon.Core.Quant
import Eidolon.Library.ByteOrder

/-!
# Kinematics

The motion of an entity over some ticks, from its velocity, acceleration and turn.
-/

namespace Eidolon.Core

structure KinematicState where
  position : Vec3Fix
  velocity : Vec3Fix
  acceleration : Vec3Fix
  yaw : QuantizedYaw
  angularVelocity : Int8
  flags : UInt8
  deriving DecidableEq

def Fixed64.half : Fixed64 :=
  Fixed64.fromRaw (Int64.ofInt (scale / 2))

def Vec3Fix.zero : Vec3Fix where
  x := Fixed64.zero
  y := Fixed64.zero
  z := Fixed64.zero

def KinematicState.withVelocity (position velocity : Vec3Fix) (yaw : QuantizedYaw)
    (flags : UInt8) : KinematicState where
  position := position
  velocity := velocity
  acceleration := Vec3Fix.zero
  yaw := yaw
  angularVelocity := 0
  flags := flags

def extrapolate (state : KinematicState) (deltaTicks : UInt32) (tickDuration : Fixed64) :
    KinematicState :=
  if deltaTicks = 0 then state
  else
    let dt := tickDuration.saturatingMul (Fixed64.fromI32 deltaTicks.toInt32)
    let halfDtSq := (dt.saturatingMul dt).saturatingMul Fixed64.half
    let displacement := (state.velocity.scale dt).add (state.acceleration.scale halfDtSq)
    let yawDeltaSteps := state.angularVelocity.toInt * deltaTicks.toInt32.toInt
    { position := state.position.add displacement
      velocity := state.velocity.add (state.acceleration.scale dt)
      acceleration := state.acceleration
      yaw := QuantizedYaw.fromByte (state.yaw.asByte + UInt8.ofInt yawDeltaSteps)
      angularVelocity := state.angularVelocity
      flags := state.flags }

end Eidolon.Core

/-!
## Recorded inputs and keyframes

What a flight recorder keeps: the inputs of entities by ticks and the states of all
entities at some ticks.
-/

namespace Eidolon.Core

open Library

def maxKeyframeEntities : Nat := 16

structure RecordedInputFrame where
  tick : UInt64
  entityId : UInt32
  velocity : Vec3Fix
  yaw : QuantizedYaw
  flags : UInt8
  deriving DecidableEq

structure EntityStateSnapshot where
  entityId : UInt32
  position : Vec3Fix
  velocity : Vec3Fix
  yaw : QuantizedYaw
  flags : UInt8
  deriving DecidableEq

structure KeyframeSnapshot where
  tick : UInt64
  checksum : UInt32
  entities : List EntityStateSnapshot
  deriving DecidableEq

def adlerByte (sums : UInt32 × UInt32) (byte : UInt8) : UInt32 × UInt32 :=
  let a := (sums.1 + byte.toUInt32) % 65521
  (a, (sums.2 + a) % 65521)

def checksumBytes (entity : EntityStateSnapshot) : List UInt8 :=
  littleEndian 4 entity.entityId.toNat ++ littleEndian 8 entity.position.x.raw.toUInt64.toNat ++
    littleEndian 8 entity.position.y.raw.toUInt64.toNat ++
    littleEndian 8 entity.position.z.raw.toUInt64.toNat ++
    [entity.yaw.asByte, entity.flags]

def computeEntitiesChecksum (entities : List EntityStateSnapshot) : UInt32 :=
  let (a, b) := (entities.flatMap checksumBytes).foldl adlerByte (1, 0)
  (b <<< (16 : UInt32)) ||| a

def KeyframeSnapshot.new (tick : UInt64) (entitiesSlice : List EntityStateSnapshot) :
    KeyframeSnapshot :=
  let entities := entitiesSlice.take maxKeyframeEntities
  { tick := tick
    checksum := computeEntitiesChecksum entities
    entities := entities }

def extrapolateWithInput (base : EntityStateSnapshot) (input : RecordedInputFrame)
    (dt : Fixed64) : EntityStateSnapshot :=
  let initial := KinematicState.withVelocity base.position input.velocity input.yaw input.flags
  let next := extrapolate initial 1 dt
  { entityId := base.entityId
    position := next.position
    velocity := input.velocity
    yaw := input.yaw
    flags := input.flags }

end Eidolon.Core

/-!
## Vertical kinematics

Gravity, jumps and the floor.  Once an entity falls, every step takes it down by one unit of
the fixed-point numbers at least, since products are rounded down; and as long as it rises,
every step takes one unit of its velocity.
-/

namespace Eidolon.Core

def flagJumping : UInt8 := 4

def flagFalling : UInt8 := 8

def standardGravity : Fixed64 :=
  Fixed64.fromRaw (Int64.ofInt (980665 * Fixed64.scale / 100000))

def jumpInitialVelocity : Fixed64 :=
  Fixed64.fromRaw (Int64.ofInt (5 * Fixed64.scale))

def jumpTolerance : Fixed64 :=
  Fixed64.fromRaw 214748364

def maxAirborneTicks : UInt16 := 50

inductive VerticalViolation where
  | none
  | levitationWatchdogTrip (airborneTicks : UInt16)
  deriving DecidableEq

structure VerticalState where
  positionY : Fixed64
  velocityY : Fixed64
  flags : UInt8
  airborneTicks : UInt16
  deriving DecidableEq

namespace VerticalState

variable (state : VerticalState) (floorElevation : Fixed64)

def IsAirborne : Prop :=
  floorElevation < state.positionY ∨ state.flags &&& flagJumping ≠ 0 ∨
    state.flags &&& flagFalling ≠ 0 ∨ state.velocityY ≠ Fixed64.zero

instance (state : VerticalState) (floorElevation : Fixed64) :
    Decidable (state.IsAirborne floorElevation) :=
  inferInstanceAs (Decidable (_ ∨ _))

def fallingFlags (flags : UInt8) : UInt8 :=
  flags &&& ~~~flagJumping ||| flagFalling

def step (dt : Fixed64) : VerticalViolation × VerticalState :=
  if ¬ state.IsAirborne floorElevation then
    (.none, { state with airborneTicks := 0 })
  else
    let airborneTicks :=
      if state.airborneTicks.toNat < 2 ^ 16 - 1 then state.airborneTicks + 1
      else state.airborneTicks
    let trips := maxAirborneTicks < airborneTicks
    let violation := if trips then .levitationWatchdogTrip airborneTicks else .none
    let watchedFlags := if trips then fallingFlags state.flags else state.flags
    let velocityY := state.velocityY.saturatingSub (standardGravity.saturatingMul dt)
    let positionY := state.positionY.saturatingAdd (velocityY.saturatingMul dt)
    let flags := if velocityY < Fixed64.zero then fallingFlags watchedFlags else watchedFlags
    if positionY ≤ floorElevation then
      (violation,
        { positionY := floorElevation
          velocityY := Fixed64.zero
          flags := flags &&& ~~~(flagJumping ||| flagFalling)
          airborneTicks := 0 })
    else
      (violation,
        { positionY := positionY
          velocityY := velocityY
          flags := flags
          airborneTicks := airborneTicks })

def jumped : VerticalState :=
  { state with
    velocityY := jumpInitialVelocity
    flags := (state.flags ||| flagJumping) &&& ~~~flagFalling
    airborneTicks := 1 }

def tryInitiateJump : Bool × VerticalState :=
  if state.positionY ≤ floorElevation.saturatingAdd jumpTolerance ∧ state.airborneTicks = 0 then
    (true, state.jumped)
  else
    (false, state)

/-- An entity that stands on the floor. -/
structure Grounded (floorElevation : Fixed64) (state : VerticalState) : Prop where
  position : state.positionY = floorElevation
  velocity : state.velocityY = Fixed64.zero
  airborneTicks : state.airborneTicks = 0
  notJumping : state.flags &&& flagJumping = 0
  notFalling : state.flags &&& flagFalling = 0

variable {floorElevation dt : Fixed64} {state : VerticalState}

theorem Grounded.step (grounded : Grounded floorElevation state) :
    (state.step floorElevation dt).2 = state := by
  have onFloor : ¬ floorElevation < floorElevation :=
    lt_irrefl _
  have notAirborne : ¬ state.IsAirborne floorElevation := by
    rw [IsAirborne, grounded.position, grounded.velocity, grounded.notJumping, grounded.notFalling]
    rintro (above | jumping | falling | moving)
    · exact onFloor above
    · exact jumping rfl
    · exact falling rfl
    exact moving rfl
  rw [VerticalState.step, if_pos notAirborne, ← grounded.airborneTicks]

theorem landedFlags (flags : UInt8) :
    flags &&& ~~~(flagJumping ||| flagFalling) &&& flagJumping = 0 ∧
      flags &&& ~~~(flagJumping ||| flagFalling) &&& flagFalling = 0 := by
  have jumping : ~~~(flagJumping ||| flagFalling) &&& flagJumping = 0 := by decide
  have falling : ~~~(flagJumping ||| flagFalling) &&& flagFalling = 0 := by decide
  rw [UInt8.and_assoc, UInt8.and_assoc, jumping, falling, UInt8.and_zero]
  exact ⟨rfl, rfl⟩

theorem step_cases (above : floorElevation ≤ state.positionY) :
    Grounded floorElevation (state.step floorElevation dt).2 ∨
      floorElevation < (state.step floorElevation dt).2.positionY ∧
        (state.step floorElevation dt).2.velocityY =
          state.velocityY.saturatingSub (standardGravity.saturatingMul dt) ∧
        (state.step floorElevation dt).2.positionY = state.positionY.saturatingAdd
            ((state.step floorElevation dt).2.velocityY.saturatingMul dt) := by
  unfold step
  by_cases airborne : state.IsAirborne floorElevation
  · rw [if_neg (not_not_intro airborne)]
    simp only
    split
    · have flags := landedFlags
      exact Or.inl ⟨rfl, rfl, rfl, (flags _).1, (flags _).2⟩
    rename_i higher
    refine Or.inr ⟨?_, rfl, rfl⟩
    rw [Fixed64.le_iff] at higher
    rw [Fixed64.lt_iff]
    exact not_le.mp higher
  rw [if_pos airborne]
  simp only [IsAirborne, not_or, not_not] at airborne
  rcases airborne with ⟨notHigher, notJumping, notFalling, still⟩
  refine Or.inl ⟨?_, still, rfl, notJumping, notFalling⟩
  rw [Fixed64.lt_iff, not_lt] at notHigher
  rw [Fixed64.le_iff] at above
  have same := le_antisymm notHigher above
  have rawSame := Int64.toInt_inj.mp same
  cases isPosition : state.positionY
  cases isFloor : floorElevation
  rw [isPosition, isFloor] at rawSame
  exact congrArg Fixed64.mk rawSame

theorem dt_positive (positive : Fixed64.zero < standardGravity.saturatingMul dt) :
    0 < dt.raw.toInt := by
  rw [Fixed64.lt_iff, Fixed64.saturatingMul, Fixed64.toInt_ofIntClamp] at positive
  change 0 < _ at positive
  have gravity : 0 ≤ standardGravity.raw.toInt := by decide
  apply not_le.mp
  intro notPositive
  have product : standardGravity.raw.toInt * dt.raw.toInt / Fixed64.scale ≤ 0 :=
    Int.ediv_nonpos_of_nonpos_of_neg (mul_nonpos_of_nonneg_of_nonpos gravity notPositive)
      (by decide)
  omega

theorem product_negative {velocity : Fixed64} (falls : velocity.raw.toInt < 0)
    (forward : 0 < dt.raw.toInt) : (velocity.saturatingMul dt).raw.toInt < 0 := by
  have product : velocity.raw.toInt * dt.raw.toInt / Fixed64.scale < 0 :=
    Int.ediv_neg_of_neg_of_pos (mul_neg_of_neg_of_pos falls forward) (by decide)
  rw [Fixed64.saturatingMul, Fixed64.toInt_ofIntClamp]
  omega

def weight (floorElevation : Fixed64) (state : VerticalState) : Nat :=
  (state.velocityY.raw.toInt + 1).toNat * 2 ^ 64 +
    (state.positionY.raw.toInt - floorElevation.raw.toInt).toNat

theorem weight_step (positive : Fixed64.zero < standardGravity.saturatingMul dt)
    (above : floorElevation ≤ state.positionY) :
    Grounded floorElevation (state.step floorElevation dt).2 ∨
      floorElevation ≤ (state.step floorElevation dt).2.positionY ∧
        weight floorElevation (state.step floorElevation dt).2 < weight floorElevation state := by
  rcases step_cases above with grounded | ⟨higher, velocity, position⟩
  · exact Or.inl grounded
  right
  have forward := dt_positive positive
  generalize (state.step floorElevation dt).2 = next at higher velocity position ⊢
  have gravity := Fixed64.toInt_le_maxRaw (standardGravity.saturatingMul dt)
  rw [Fixed64.lt_iff] at positive higher
  change 0 < _ at positive
  have slower := congrArg (fun number => number.raw.toInt) velocity
  have moved := congrArg (fun number => number.raw.toInt) position
  simp only [Fixed64.saturatingSub, Fixed64.saturatingAdd, Fixed64.toInt_ofIntClamp] at slower moved
  have bottom := floorElevation.raw.le_toInt
  rw [Fixed64.maxRaw] at gravity slower moved
  refine ⟨Fixed64.le_iff.mpr higher.le, ?_⟩
  unfold weight
  by_cases rises : 0 ≤ state.velocityY.raw.toInt
  · omega
  have falls : next.velocityY.raw.toInt < 0 := by
    omega
  have down := product_negative falls forward
  omega

def steps (floorElevation dt : Fixed64) (count : Nat) (state : VerticalState) : VerticalState :=
  (fun state => (state.step floorElevation dt).2)^[count] state

theorem above_step (above : floorElevation ≤ state.positionY) :
    floorElevation ≤ (state.step floorElevation dt).2.positionY := by
  rcases step_cases above with grounded | ⟨higher, _⟩
  · rw [grounded.position]
  rw [Fixed64.lt_iff] at higher
  exact Fixed64.le_iff.mpr higher.le

theorem above_steps (above : floorElevation ≤ state.positionY) (count : Nat) :
    floorElevation ≤ (state.steps floorElevation dt count).positionY := by
  induction count generalizing state with
  | zero => exact above
  | succ count ih => exact ih (above_step above)

theorem grounded_steps (positive : Fixed64.zero < standardGravity.saturatingMul dt) {bound : Nat}
    (above : floorElevation ≤ state.positionY) (light : weight floorElevation state < bound) :
    ∃ count, count ≤ bound ∧ Grounded floorElevation (state.steps floorElevation dt count) := by
  induction bound generalizing state with
  | zero => exact absurd light (Nat.not_lt_zero _)
  | succ bound ih =>
    rcases weight_step positive above with grounded | ⟨stillAbove, lighter⟩
    · exact ⟨1, Nat.succ_le_succ (Nat.zero_le bound), grounded⟩
    obtain ⟨count, few, grounded⟩ :=
      ih stillAbove (Nat.lt_of_lt_of_le lighter (Nat.lt_succ_iff.mp light))
    exact ⟨count + 1, Nat.succ_le_succ few, grounded⟩

/-- Every fall ends on the floor, never goes below it, and leaves the entity there. -/
theorem lands {floorElevation dt : Fixed64}
    (positive : Fixed64.zero < standardGravity.saturatingMul dt) {state : VerticalState}
    (above : floorElevation ≤ state.positionY) :
    (∃ count, Grounded floorElevation (state.steps floorElevation dt count)) ∧
      (∀ count, floorElevation ≤ (state.steps floorElevation dt count).positionY) ∧
      ∀ ground, Grounded floorElevation ground → (ground.step floorElevation dt).2 = ground := by
  obtain ⟨count, _, grounded⟩ := grounded_steps positive above (Nat.lt_succ_self _)
  exact ⟨⟨count, grounded⟩, above_steps above, fun ground standing => standing.step⟩

def highest : VerticalState where
  positionY := Fixed64.fromRaw Int64.maxValue
  velocityY := Fixed64.fromRaw Int64.maxValue
  flags := 0
  airborneTicks := 0

theorem lands_highest :
    (∃ count, Grounded Fixed64.zero (highest.steps Fixed64.zero (Fixed64.fromRaw 1) count)) ∧
      (∀ count, Fixed64.zero ≤ (highest.steps Fixed64.zero (Fixed64.fromRaw 1) count).positionY) ∧
      ∀ ground, Grounded Fixed64.zero ground →
        (ground.step Fixed64.zero (Fixed64.fromRaw 1)).2 = ground :=
  lands (by decide) (by decide)

end VerticalState

end Eidolon.Core
