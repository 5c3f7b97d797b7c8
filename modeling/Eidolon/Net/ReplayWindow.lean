import Mathlib.Data.Nat.Bitwise
import Eidolon.Library.MachineInt
import Eidolon.Library.Run
import Eidolon.Net.Packet

/-!
# The replay window

A window remembers the greatest sequence number accepted and, in the bits of a mask, which
of the 63 numbers before it were accepted too.  The mask is zero only before the first
number: afterwards its lowest bit stands for the greatest number itself.
-/

namespace Eidolon.Net

open Library List UInt64

/-- Bit `distance` of the mask stands for the number that far before the greatest. -/
structure ReplayWindow where
  highestSequence : UInt64
  window : UInt64
  deriving DecidableEq

namespace ReplayWindow

def new : ReplayWindow where
  highestSequence := 0
  window := 0

variable (self : ReplayWindow)

def replayed (sequence : UInt64) : NetError :=
  .replayDetected sequence (saturatingSub64 self.highestSequence 63)

def checkAndUpdate (sequence : UInt64) : Except NetError Unit × ReplayWindow :=
  if self.window = 0 ∧ self.highestSequence = 0 then
    (.ok (), { highestSequence := sequence, window := 1 })
  else if self.highestSequence < sequence then
    let diff := sequence - self.highestSequence
    if diff < 64 then
      (.ok (), { highestSequence := sequence, window := self.window <<< diff ||| 1 })
    else
      (.ok (), { highestSequence := sequence, window := 1 })
  else
    let diff := self.highestSequence - sequence
    if 64 ≤ diff then
      (.error (self.replayed sequence), self)
    else
      let mask := (1 : UInt64) <<< diff
      if self.window &&& mask ≠ 0 then
        (.error (self.replayed sequence), self)
      else
        (.ok (), { self with window := self.window ||| mask })

def marks (distance : Nat) : Bool :=
  self.window.toNat.testBit distance

theorem testBit_one (index : Nat) : Nat.testBit 1 index = decide (index = 0) := by
  rw [Bool.eq_iff_iff, decide_eq_true_iff, Nat.testBit_one_eq_true_iff_self_eq_zero]

theorem testBit_shiftLeft_or_one {field diff : UInt64} {index : Nat} (short : diff.toNat < 64)
    (inside : index < 64) :
    (field <<< diff ||| 1).toNat.testBit index =
      ((decide (diff.toNat ≤ index) && field.toNat.testBit (index - diff.toNat)) ||
        decide (index = 0)) := by
  rw [UInt64.toNat_or, Nat.testBit_or, UInt64.toNat_shiftLeft, Nat.mod_eq_of_lt short,
    Nat.testBit_mod_two_pow, toNat_one, testBit_one]
  simp [inside]

theorem testBit_or_mask {field diff : UInt64} {index : Nat} (short : diff.toNat < 64)
    (inside : index < 64) :
    (field ||| (1 : UInt64) <<< diff).toNat.testBit index =
      (field.toNat.testBit index || decide (index = diff.toNat)) := by
  rw [UInt64.toNat_or, Nat.testBit_or, UInt64.toNat_shiftLeft, Nat.mod_eq_of_lt short,
    Nat.testBit_mod_two_pow, Nat.testBit_shiftLeft, toNat_one, testBit_one]
  have place : (decide (diff.toNat ≤ index) && decide (index - diff.toNat = 0)) =
      decide (index = diff.toNat) := by
    rw [← Bool.decide_and, decide_eq_decide]
    omega
  simp [inside, place]

theorem and_mask_ne_zero_iff {field diff : UInt64} (short : diff.toNat < 64) :
    field &&& (1 : UInt64) <<< diff ≠ 0 ↔ field.toNat.testBit diff.toNat = true := by
  have power : (2 : Nat) ^ diff.toNat < 2 ^ 64 := Nat.pow_lt_pow_right (by decide) short
  rw [ne_eq, ← UInt64.toNat_inj, UInt64.toNat_and, UInt64.toNat_shiftLeft,
    Nat.mod_eq_of_lt short, toNat_one, Nat.one_shiftLeft,
    Nat.mod_eq_of_lt power, Nat.and_two_pow]
  cases field.toNat.testBit diff.toNat with
  | _ => simp

/-- A window with the numbers it has accepted, the last one first. -/
structure History where
  window : ReplayWindow
  accepted : List UInt64

def History.start : History where
  window := .new
  accepted := []

def History.receive (history : History) (sequence : UInt64) : History :=
  match history.window.checkAndUpdate sequence with
  | (.ok _, window) => { window := window, accepted := sequence :: history.accepted }
  | (.error _, window) => { history with window := window }

def History.afterCalls (sequences : List UInt64) : History :=
  run History.receive History.start sequences

variable (accepted : List UInt64)

def highestAccepted : Option Nat :=
  (accepted.map UInt64.toNat).max?

/-- A number is new, and greater than the greatest number accepted minus 64. -/
def Acceptable (sequence : UInt64) : Prop :=
  sequence ∉ accepted ∧
    ∀ highest, highestAccepted accepted = some highest → (highest : Int) - 64 < sequence.toNat

structure Remembers (replayWindow : ReplayWindow) (accepted : List UInt64) : Prop where
  highest_mem : replayWindow.highestSequence ∈ accepted
  le_highest : ∀ sequence ∈ accepted, sequence.toNat ≤ replayWindow.highestSequence.toNat
  marks_iff : ∀ distance < 64, replayWindow.marks distance = true ↔
    ∃ sequence ∈ accepted, sequence.toNat + distance = replayWindow.highestSequence.toNat

/-- Before the first number a window is new. -/
def Agrees : Prop :=
  (self = new ∧ accepted = []) ∨ Remembers self accepted

variable {accepted : List UInt64} {self : ReplayWindow}

theorem Remembers.highestAccepted_eq (remembers : Remembers self accepted) :
    highestAccepted accepted = some self.highestSequence.toNat := by
  rw [highestAccepted, max?_eq_some_iff]
  constructor
  · exact mem_map_of_mem remembers.highest_mem
  intro number isAccepted
  obtain ⟨sequence, mem, rfl⟩ := mem_map.mp isAccepted
  exact remembers.le_highest sequence mem

theorem Remembers.acceptable_iff (remembers : Remembers self accepted) (sequence : UInt64) :
    Acceptable accepted sequence ↔
      sequence ∉ accepted ∧ self.highestSequence.toNat < sequence.toNat + 64 := by
  rw [Acceptable, remembers.highestAccepted_eq]
  constructor
  · rintro ⟨isNew, recent⟩
    have bound := recent _ rfl
    exact ⟨isNew, by omega⟩
  rintro ⟨isNew, recent⟩
  refine ⟨isNew, fun highest isHighest => ?_⟩
  obtain rfl := Option.some.inj isHighest
  omega

theorem Remembers.not_empty (remembers : Remembers self accepted) :
    ¬ (self.window = 0 ∧ self.highestSequence = 0) := by
  rintro ⟨noMarks, -⟩
  have marked := (remembers.marks_iff 0 (by decide)).mpr ⟨_, remembers.highest_mem, rfl⟩
  rw [marks, noMarks] at marked
  cases marked

variable {sequence : UInt64}

theorem remembers_first (older : ∀ earlier ∈ accepted, earlier.toNat + 64 ≤ sequence.toNat) :
    Remembers { highestSequence := sequence, window := 1 } (sequence :: accepted) where
  highest_mem := mem_cons_self
  le_highest := by
    intro other mem
    rcases mem_cons.mp mem with rfl | isEarlier
    · exact Nat.le_refl _
    have bound := older other isEarlier
    change other.toNat ≤ sequence.toNat
    omega
  marks_iff := by
    intro distance inside
    rw [marks, toNat_one, testBit_one, decide_eq_true_iff]
    constructor
    · intro isZero
      exact ⟨sequence, mem_cons_self, by rw [isZero, Nat.add_zero]⟩
    rintro ⟨other, mem, sum⟩
    change other.toNat + distance = sequence.toNat at sum
    rcases mem_cons.mp mem with rfl | isEarlier
    · omega
    have bound := older other isEarlier
    omega

theorem Remembers.ahead {diff : UInt64} (remembers : Remembers self accepted)
    (sum : self.highestSequence.toNat + diff.toNat = sequence.toNat) (positive : 0 < diff.toNat)
    (short : diff.toNat < 64) :
    Remembers { highestSequence := sequence, window := self.window <<< diff ||| 1 }
      (sequence :: accepted) where
  highest_mem := mem_cons_self
  le_highest := by
    intro other mem
    change other.toNat ≤ sequence.toNat
    rcases mem_cons.mp mem with rfl | isEarlier
    · exact Nat.le_refl _
    have bound := remembers.le_highest other isEarlier
    omega
  marks_iff := by
    intro distance inside
    rw [marks, testBit_shiftLeft_or_one short inside, Bool.or_eq_true, Bool.and_eq_true,
      decide_eq_true_iff, decide_eq_true_iff]
    constructor
    · rintro (⟨far, marked⟩ | rfl)
      · obtain ⟨other, mem, distant⟩ :=
          (remembers.marks_iff (distance - diff.toNat) (by omega)).mp marked
        refine ⟨other, mem_cons_of_mem _ mem, ?_⟩
        change other.toNat + distance = sequence.toNat
        omega
      exact ⟨sequence, mem_cons_self, rfl⟩
    rintro ⟨other, mem, distant⟩
    change other.toNat + distance = sequence.toNat at distant
    rcases mem_cons.mp mem with rfl | isEarlier
    · exact .inr (by omega)
    have bound := remembers.le_highest other isEarlier
    refine .inl ⟨by omega, ?_⟩
    exact (remembers.marks_iff _ (by omega)).mpr ⟨other, isEarlier, by omega⟩

theorem Remembers.late {diff : UInt64} (remembers : Remembers self accepted)
    (sum : sequence.toNat + diff.toNat = self.highestSequence.toNat) (short : diff.toNat < 64) :
    Remembers { self with window := self.window ||| (1 : UInt64) <<< diff }
      (sequence :: accepted) where
  highest_mem := mem_cons_of_mem _ remembers.highest_mem
  le_highest := by
    intro other mem
    change other.toNat ≤ self.highestSequence.toNat
    rcases mem_cons.mp mem with rfl | isEarlier
    · omega
    exact remembers.le_highest other isEarlier
  marks_iff := by
    intro distance inside
    rw [marks, testBit_or_mask short inside, Bool.or_eq_true, decide_eq_true_iff]
    constructor
    · rintro (marked | rfl)
      · obtain ⟨other, mem, distant⟩ := (remembers.marks_iff distance inside).mp marked
        exact ⟨other, mem_cons_of_mem _ mem, distant⟩
      exact ⟨sequence, mem_cons_self, sum⟩
    rintro ⟨other, mem, distant⟩
    change other.toNat + distance = self.highestSequence.toNat at distant
    rcases mem_cons.mp mem with rfl | isEarlier
    · exact .inr (by omega)
    exact .inl ((remembers.marks_iff distance inside).mpr ⟨other, isEarlier, distant⟩)

theorem Remembers.mask_ne_zero_iff {diff : UInt64} (remembers : Remembers self accepted)
    (sum : sequence.toNat + diff.toNat = self.highestSequence.toNat) (short : diff.toNat < 64) :
    self.window &&& (1 : UInt64) <<< diff ≠ 0 ↔ sequence ∈ accepted := by
  rw [and_mask_ne_zero_iff short]
  constructor
  · intro marked
    obtain ⟨other, mem, distant⟩ := (remembers.marks_iff _ short).mp marked
    have same : other = sequence := UInt64.toNat_inj.mp (by omega)
    rw [← same]
    exact mem
  intro mem
  exact (remembers.marks_iff _ short).mpr ⟨sequence, mem, sum⟩

theorem Agrees.checkAndUpdate (agrees : Agrees self accepted) (sequence : UInt64) :
    (Acceptable accepted sequence ∧ ∃ next, self.checkAndUpdate sequence = (.ok (), next) ∧
        Agrees next (sequence :: accepted)) ∨
    (¬ Acceptable accepted sequence ∧
      self.checkAndUpdate sequence = (.error (self.replayed sequence), self)) := by
  rcases agrees with ⟨rfl, rfl⟩ | remembers
  · refine .inl ⟨⟨not_mem_nil, fun highest isHighest => ?_⟩, _, rfl, .inr ?_⟩
    · cases isHighest
    refine remembers_first fun earlier mem => ?_
    cases mem
  rw [remembers.acceptable_iff, ReplayWindow.checkAndUpdate, if_neg remembers.not_empty]
  have sixtyFour : (64 : UInt64).toNat = 64 := rfl
  by_cases later : self.highestSequence < sequence
  · have greater := lt_iff_toNat_lt.mp later
    have isNew : sequence ∉ accepted := by
      intro mem
      have bound := remembers.le_highest sequence mem
      omega
    have diffIs := UInt64.toNat_sub_of_le _ _ (UInt64.le_of_lt later)
    refine .inl ⟨⟨isNew, by omega⟩, ?_⟩
    rw [if_pos later]
    by_cases short : sequence - self.highestSequence < 64
    · rw [if_pos short]
      have shortNat := lt_iff_toNat_lt.mp short
      exact ⟨_, rfl, .inr (remembers.ahead (by omega) (by omega) (by omega))⟩
    rw [if_neg short]
    rw [lt_iff_toNat_lt] at short
    refine ⟨_, rfl, .inr (remembers_first fun earlier mem => ?_)⟩
    have bound := remembers.le_highest earlier mem
    omega
  rw [if_neg later]
  rw [UInt64.not_lt] at later
  have atMost := le_iff_toNat_le.mp later
  have diffIs := UInt64.toNat_sub_of_le _ _ later
  by_cases far : 64 ≤ self.highestSequence - sequence
  · rw [if_pos far]
    rw [le_iff_toNat_le] at far
    exact .inr ⟨fun acceptable => by omega, rfl⟩
  rw [if_neg far]
  rw [le_iff_toNat_le] at far
  have short : (self.highestSequence - sequence).toNat < 64 := by
    omega
  have sum : sequence.toNat + (self.highestSequence - sequence).toNat =
      self.highestSequence.toNat := by
    omega
  have known := remembers.mask_ne_zero_iff sum short
  by_cases mem : sequence ∈ accepted
  · rw [if_pos (known.mpr mem)]
    exact .inr ⟨fun acceptable => acceptable.1 mem, rfl⟩
  rw [if_neg (fun marked => mem (known.mp marked))]
  exact .inl ⟨⟨mem, by omega⟩, _, rfl, .inr (remembers.late sum short)⟩

/-- What holds of every history. -/
structure History.Sound (history : History) : Prop where
  agrees : Agrees history.window history.accepted
  nodup : history.accepted.Nodup

theorem History.Sound.receive {history : History} (sound : history.Sound) (sequence : UInt64) :
    (history.receive sequence).Sound := by
  rcases sound.agrees.checkAndUpdate sequence with
    ⟨acceptable, next, result, agrees⟩ | ⟨-, result⟩
  · have received : history.receive sequence =
        { window := next, accepted := sequence :: history.accepted } := by
      rw [History.receive, result]
    rw [received]
    exact ⟨agrees, nodup_cons.mpr ⟨acceptable.1, sound.nodup⟩⟩
  have received : history.receive sequence = history := by
    rw [History.receive, result]
  rw [received]
  exact sound

theorem History.sound_afterCalls (sequences : List UInt64) : (afterCalls sequences).Sound := by
  have whole : Throughout History.receive History.Sound History.start sequences :=
    throughout_of_preserved (fun _ sequence sound => sound.receive sequence)
      { agrees := .inl ⟨rfl, rfl⟩, nodup := nodup_nil } sequences
  exact whole.run

/-- After any calls, the next one accepts a number exactly when it is acceptable, a call that
does not accept changes nothing, and no number has been accepted twice. -/
theorem checkAndUpdate_exact (sequences : List UInt64) (sequence : UInt64) :
    (((History.afterCalls sequences).window.checkAndUpdate sequence).1 = .ok () ↔
      Acceptable (History.afterCalls sequences).accepted sequence) ∧
    (((History.afterCalls sequences).window.checkAndUpdate sequence).1 ≠ .ok () →
      ((History.afterCalls sequences).window.checkAndUpdate sequence).2 =
        (History.afterCalls sequences).window) ∧
    (History.afterCalls sequences).accepted.Nodup := by
  have sound := History.sound_afterCalls sequences
  rcases sound.agrees.checkAndUpdate sequence with
    ⟨acceptable, next, result, -⟩ | ⟨notAcceptable, result⟩
  · rw [result]
    exact ⟨iff_of_true rfl acceptable, fun refused => absurd rfl refused, sound.nodup⟩
  rw [result]
  refine ⟨iff_of_false (fun accepted => ?_) notAcceptable, fun _ => rfl, sound.nodup⟩
  cases accepted

end ReplayWindow

end Eidolon.Net
