import Eidolon.Net.MultiResRoundTrip

/-!
# Flags of delta transforms

Only a full update carries flags, and of the flags only the cell anchor asks for one.  Any
other flag arrives if the target is too far from the baseline for the smaller updates.
-/

namespace Eidolon.Net

open Core Core.DeltaTransform Library

/-- What is asked of the flags of a target: they come back from the update itself, from its
packed bytes and from a bitstream. -/
structure FlagsKept (state : DeltaState) (target : DeltaTarget) : Prop where
  applied : ((target.update state).apply state.1 state.2).2.2 = target.flags
  packed : ∀ (out after : List UInt8) (count : Nat),
    (target.update state).packToSlice out = (some count, after) →
      ∃ received, unpackFromSlice after = some (received, count) ∧
        (received.apply state.1 state.2).2.2 = target.flags
  streamed : ∀ writer after : BitWriter, writer.bitOffset ≤ 8 * writer.buffer.length →
    writer.writeDeltaTransform (target.update state) = (.ok (), after) →
      ∃ received, BitReader.readDeltaTransform
          { buffer := after.asBytes, bitOffset := writer.bitOffset } =
            (.ok received, { buffer := after.asBytes, bitOffset := after.bitOffset }) ∧
        (received.apply state.1 state.2).2.2 = target.flags

def WithinMedium (state : DeltaState) (target : DeltaTarget) : Prop :=
  (-1027 ≤ (target.coord.x.toNat : Int) - state.1.x.toNat ∧
    (target.coord.x.toNat : Int) - state.1.x.toNat ≤ 1019) ∧
  (-1027 ≤ (target.coord.z.toNat : Int) - state.1.z.toNat ∧
    (target.coord.z.toNat : Int) - state.1.z.toNat ≤ 1019) ∧
  (-64 ≤ (target.coord.y.toNat : Int) - state.1.y.toNat ∧
    (target.coord.y.toNat : Int) - state.1.y.toNat ≤ 62)

theorem inSteps8_iff (difference : Int) :
    (-128 ≤ inSteps difference 8 ∧ inSteps difference 8 ≤ 127) ↔
      -1027 ≤ difference ∧ difference ≤ 1019 := by
  rw [inSteps_eq (by decide)]
  split <;> omega

theorem inSteps2_iff (difference : Int) : (-32 ≤ inSteps difference 2 ∧ inSteps difference 2 ≤ 31) ↔
      -64 ≤ difference ∧ difference ≤ 62 := by
  rw [inSteps_eq (by decide)]
  split <;> omega

theorem reach_of_small {difference : Int}
    (range : -8 ≤ inSteps difference 16 ∧ inSteps difference 16 ≤ 7) :
    -135 ≤ difference ∧ difference ≤ 119 := by
  rw [inSteps_eq (by decide)] at range
  split at range <;> omega

/-- Without an anchor the flags of a target arrive if it is out of reach of the smaller
updates, and none arrive otherwise. -/
theorem flags_apply_update {state : DeltaState} {target : DeltaTarget}
    (noAnchor : target.flags &&& flagCellAnchor = 0) :
    (WithinMedium state target → ((target.update state).apply state.1 state.2).2.2 = 0) ∧
    (¬ WithinMedium state target →
      ((target.update state).apply state.1 state.2).2.2 = target.flags) := by
  rw [DeltaTarget.update, WithinMedium]
  rcases compute_cases state.1 state.2 target.coord target.yaw noAnchor with
    ⟨isUpdate, stillX, stillZ, stillY, -⟩ | ⟨isUpdate, rangeX, rangeZ, rangeY, -⟩ |
      ⟨isUpdate, rangeX, rangeZ, rangeY⟩ | ⟨isUpdate, outside⟩
  · rw [isUpdate]
    exact ⟨fun _ => rfl, fun outside => absurd (by omega) outside⟩
  · rw [isUpdate]
    have reachX := reach_of_small rangeX
    have reachZ := reach_of_small rangeZ
    have reachY := (inSteps2_iff _).mp (wider (by decide) (by decide) rangeY)
    exact ⟨fun _ => rfl, fun outside => absurd (by omega) outside⟩
  · rw [isUpdate]
    have reach := And.intro ((inSteps8_iff _).mp rangeX)
      (And.intro ((inSteps8_iff _).mp rangeZ) ((inSteps2_iff _).mp rangeY))
    exact ⟨fun _ => rfl, fun outside => absurd reach outside⟩
  rw [isUpdate]
  rw [inSteps8_iff, inSteps8_iff, inSteps2_iff] at outside
  exact ⟨fun within => absurd within outside, fun _ => rfl⟩

variable {state : DeltaState}

theorem flags_apply_anchor {target : DeltaTarget} (anchor : target.flags &&& flagCellAnchor ≠ 0) :
    ((target.update state).apply state.1 state.2).2.2 = target.flags := by
  rw [DeltaTarget.update, compute, if_pos anchor]
  rfl

theorem flags_apply_onWire {update : DeltaTransform} {flags : UInt8} (few : flags.toNat < 16)
    (kept : (update.apply state.1 state.2).2.2 = flags) :
    (update.onWire.apply state.1 state.2).2.2 = flags := by
  cases update with
  | full coord yaw own =>
    change own = flags at kept
    change own &&& 0x0F = flags
    rw [kept, @and_eq_self8 flags 0x0F 4 (by omega) (by decide)]
  | _ => exact kept

theorem flagsKept_of_applied {target : DeltaTarget} (few : target.flags.toNat < 16)
    (applied : ((target.update state).apply state.1 state.2).2.2 = target.flags) :
    FlagsKept state target where
  applied := applied
  packed := by
    intro out after count written
    exact ⟨_, unpackFromSlice_packToSlice (fits_compute _ _ _ _ _) written,
      flags_apply_onWire few applied⟩
  streamed := by
    intro writer after inside written
    exact ⟨_, (readBack_deltaTransform (fits_compute _ _ _ _ _) written).asBytes inside,
      flags_apply_onWire few applied⟩

/-- Flags of four bits come back exactly if there are none, if the anchor is among them, or
if the target is out of the reach of a medium update. -/
theorem flagsKept_iff (state : DeltaState) (target : DeltaTarget) (few : target.flags.toNat < 16) :
    FlagsKept state target ↔
      target.flags = 0 ∨ target.flags &&& flagCellAnchor ≠ 0 ∨ ¬ WithinMedium state target := by
  by_cases anchor : target.flags &&& flagCellAnchor = 0
  · obtain ⟨inReach, outOfReach⟩ := @flags_apply_update state target anchor
    constructor
    · intro kept
      by_cases within : WithinMedium state target
      · exact Or.inl (kept.applied.symm.trans (inReach within))
      exact Or.inr (Or.inr within)
    intro condition
    apply flagsKept_of_applied few
    by_cases within : WithinMedium state target
    · rcases condition with none | isAnchor | outside
      · exact (inReach within).trans none.symm
      · exact absurd anchor isAnchor
      exact absurd within outside
    exact outOfReach within
  exact iff_of_true (flagsKept_of_applied few (flags_apply_anchor anchor)) (Or.inr (Or.inl anchor))

/-- The condition is met by an entity that walks two metres between updates. -/
theorem flagsKept_iff_stride : (1 : UInt8).toNat < 16 ∧
      (FlagsKept (⟨1000, 0, 0⟩, ⟨0⟩) ⟨⟨3048, 0, 0⟩, ⟨0⟩, 1⟩ ↔
        (1 : UInt8) = 0 ∨ (1 : UInt8) &&& flagCellAnchor ≠ 0 ∨
          ¬ WithinMedium (⟨1000, 0, 0⟩, ⟨0⟩) ⟨⟨3048, 0, 0⟩, ⟨0⟩, 1⟩) :=
  ⟨by decide, flagsKept_iff (⟨1000, 0, 0⟩, ⟨0⟩) ⟨⟨3048, 0, 0⟩, ⟨0⟩, 1⟩ (by decide)⟩

/-- The flag of an entity that begins to walk on the spot. -/
theorem not_flagsKept_still :
    ¬ ∀ (state : DeltaState) (target : DeltaTarget), target.flags.toNat < 16 →
      FlagsKept state target := by
  intro all
  have kept := (all (⟨0, 0, 0⟩, ⟨0⟩) ⟨⟨0, 0, 0⟩, ⟨0⟩, 1⟩ (by decide)).applied
  exact absurd kept (by decide)

end Eidolon.Net
