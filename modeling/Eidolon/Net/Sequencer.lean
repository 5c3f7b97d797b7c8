import Mathlib.Data.List.Induction
import Mathlib.Order.Bounds.Basic
import Eidolon.Library.BitString
import Eidolon.Net.Channel

/-!
# What the sequencer remembers

Packets carry unbounded numbers modulo `2 ^ 16`.  As long as no packet arrives half the
sequence space away from the highest one, the sequencer holds the highest number that
has arrived and, bit by bit, which of the 32 numbers before it have.
-/

namespace Eidolon.Net.UnreliableSequencer

open Library List

def highestOf (arrived : List Nat) : Nat :=
  arrived.foldr max 0

@[simp]
theorem highestOf_cons (number : Nat) (arrived : List Nat) :
    highestOf (number :: arrived) = max number (highestOf arrived) :=
  rfl

theorem le_highestOf {arrived : List Nat} {number : Nat} (member : number ∈ arrived) :
    number ≤ highestOf arrived := by
  induction arrived with
  | nil => cases member
  | cons head arrived ih =>
    rw [highestOf_cons]
    rcases List.mem_cons.1 member with equal | member
    · omega
    have bounded := ih member
    omega

theorem highestOf_mem {arrived : List Nat} (nonempty : arrived ≠ []) :
    highestOf arrived ∈ arrived := by
  induction arrived with
  | nil => exact absurd rfl nonempty
  | cons head arrived ih =>
    rw [highestOf_cons]
    by_cases empty : arrived = []
    · subst empty
      simp [highestOf]
    by_cases larger : highestOf arrived ≤ head
    · rw [Nat.max_eq_left larger]
      exact mem_cons_self
    rw [Nat.max_eq_right (by omega)]
    exact mem_cons_of_mem head (ih empty)

structure Tracks (sequencer : UnreliableSequencer) (arrived : List Nat) : Prop where
  any : sequencer.hasReceivedAny = true ↔ arrived ≠ []
  highest : arrived ≠ [] →
    sequencer.highestReceivedSequence = UInt16.ofNat (highestOf arrived)
  history : arrived ≠ [] → ∀ bit, bit < 32 →
    (bitAt sequencer.receivedBitfield bit = true ↔
      ∃ number ∈ arrived, number + bit + 1 = highestOf arrived)

theorem tracks_new : Tracks new [] where
  any := by simp [new]
  highest nonempty := absurd rfl nonempty
  history nonempty := absurd rfl nonempty

namespace Tracks

variable {sequencer : UnreliableSequencer} {arrived : List Nat} {number : Nat}

private theorem history_from_above (nonempty : arrived ≠ []) {bit : Nat}
    (above : highestOf arrived < number) :
    (∃ earlier ∈ number :: arrived, earlier + bit + 1 = number) ↔
      bit + 1 = number - highestOf arrived ∨ (number - highestOf arrived ≤ bit ∧
          ∃ earlier ∈ arrived,
            earlier + (bit - (number - highestOf arrived)) + 1 = highestOf arrived) := by
  constructor
  · intro found
    obtain ⟨earlier, member, sum⟩ := found
    rcases List.mem_cons.1 member with equal | member
    · omega
    have bounded := le_highestOf member
    by_cases isHighest : earlier = highestOf arrived
    · left
      omega
    right
    exact ⟨by omega, earlier, member, by omega⟩
  intro found
  rcases found with next | ⟨later, earlier, member, sum⟩
  · exact ⟨highestOf arrived, mem_cons_of_mem number (highestOf_mem nonempty), by omega⟩
  exact ⟨earlier, mem_cons_of_mem number member, by omega⟩

private theorem process_first (tracks : Tracks sequencer []) (number : Nat) :
    Tracks (sequencer.processIncomingSequence (UInt16.ofNat number)).2 [number] := by
  have notAny : sequencer.hasReceivedAny = false := by
    have any := tracks.any
    simpa using any
  have processed : (sequencer.processIncomingSequence (UInt16.ofNat number)).2 =
      { sequencer with
        hasReceivedAny := true
        highestReceivedSequence := UInt16.ofNat number
        receivedBitfield := 0 } := by
    simp [processIncomingSequence, notAny]
  rw [processed]
  refine ⟨by simp, fun _ => by simp [highestOf], fun _ bit _ => ?_⟩
  simp only [bitAt_zero, highestOf, foldr_cons, foldr_nil, mem_singleton]
  constructor
  · intro impossible
    cases impossible
  intro found
  obtain ⟨earlier, rfl, sum⟩ := found
  omega

private theorem process_newer (tracks : Tracks sequencer arrived) (nonempty : arrived ≠ [])
    (above : highestOf arrived < number) (ahead : number < highestOf arrived + 2 ^ 15) :
    Tracks (sequencer.processIncomingSequence (UInt16.ofNat number)).2 (number :: arrived) := by
  have any : sequencer.hasReceivedAny = true := tracks.any.2 nonempty
  have highest := tracks.highest nonempty
  have isNewer : isSequenceNewer (UInt16.ofNat number) sequencer.highestReceivedSequence = true := by
    rw [highest, isSequenceNewer, isNewer16_ofNat_iff (by omega) (by omega)]
    exact ⟨above, ahead⟩
  have distance : (UInt16.ofNat number - sequencer.highestReceivedSequence).toNat =
      number - highestOf arrived := by
    rw [highest, toNat_ofNat_sub_ofNat]
    omega
  have newHighest : highestOf (number :: arrived) = number := by
    rw [highestOf_cons]
    omega
  simp only [processIncomingSequence, any, Bool.not_true, Bool.false_eq_true, if_false, isNewer,
    if_true, distance]
  refine ⟨by simp, fun _ => by rw [newHighest], fun _ bit inside => ?_⟩
  rw [newHighest, history_from_above nonempty above]
  simp only
  split
  · rename_i short
    rw [bitAt_or, bitAt_shiftLeft _ short inside, bitAt_one_shiftLeft (by omega) inside,
      Bool.or_eq_true, Bool.and_eq_true, decide_eq_true_iff, decide_eq_true_iff]
    constructor
    · intro set
      rcases set with ⟨later, old⟩ | last
      · exact Or.inr ⟨later, (tracks.history nonempty _ (by omega)).1 old⟩
      left
      omega
    intro found
    rcases found with last | ⟨later, old⟩
    · right
      omega
    exact Or.inl ⟨later, (tracks.history nonempty _ (by omega)).2 old⟩
  split
  · rename_i exact32
    have lastBit : bitAt ((1 : UInt32) <<< 31) bit = decide (bit = 31) :=
      bitAt_one_shiftLeft (show 31 < 32 by omega) inside
    rw [lastBit, decide_eq_true_iff]
    omega
  rw [bitAt_zero]
  constructor
  · intro impossible
    cases impossible
  omega

private theorem process_older (tracks : Tracks sequencer arrived) (nonempty : arrived ≠ [])
    (below : number ≤ highestOf arrived) (behind : highestOf arrived ≤ number + 2 ^ 15) :
    Tracks (sequencer.processIncomingSequence (UInt16.ofNat number)).2 (number :: arrived) := by
  have any : sequencer.hasReceivedAny = true := tracks.any.2 nonempty
  have highest := tracks.highest nonempty
  have notNewer :
      ¬ isSequenceNewer (UInt16.ofNat number) sequencer.highestReceivedSequence = true := by
    rw [highest, isSequenceNewer, isNewer16_ofNat_iff (by omega) (by omega)]
    omega
  have distance : (sequencer.highestReceivedSequence - UInt16.ofNat number).toNat =
      highestOf arrived - number := by
    rw [highest, toNat_ofNat_sub_ofNat]
    omega
  have sameHighest : highestOf (number :: arrived) = highestOf arrived := by
    rw [highestOf_cons]
    omega
  simp only [processIncomingSequence, any, Bool.not_true, Bool.false_eq_true, if_false, notNewer,
    distance]
  split
  · rename_i recent
    refine ⟨by simp, fun _ => by rw [sameHighest]; exact highest, fun _ bit inside => ?_⟩
    have old := tracks.history nonempty bit inside
    rw [sameHighest]
    simp only [bitAt_or, bitAt_one_shiftLeft (by omega : highestOf arrived - number - 1 < 32) inside,
      Bool.or_eq_true, decide_eq_true_iff, old, mem_cons, exists_eq_or_imp]
    constructor
    · intro set
      rcases set with earlier | here
      · exact Or.inr earlier
      left
      omega
    intro found
    rcases found with here | earlier
    · right
      omega
    exact Or.inl earlier
  rename_i distant
  refine ⟨by simp [any], fun _ => by rw [sameHighest]; exact highest, fun _ bit inside => ?_⟩
  have old := tracks.history nonempty bit inside
  rw [sameHighest]
  simp only [old, mem_cons, exists_eq_or_imp]
  constructor
  · exact Or.inr
  intro found
  rcases found with here | earlier
  · omega
  exact earlier

theorem process (tracks : Tracks sequencer arrived)
    (behind : arrived ≠ [] → highestOf arrived ≤ number + 2 ^ 15)
    (ahead : arrived ≠ [] → number < highestOf arrived + 2 ^ 15) :
    Tracks (sequencer.processIncomingSequence (UInt16.ofNat number)).2 (number :: arrived) := by
  by_cases nonempty : arrived ≠ []
  · by_cases above : highestOf arrived < number
    · exact tracks.process_newer nonempty above (ahead nonempty)
    exact tracks.process_older nonempty (by omega) (behind nonempty)
  rw [ne_eq, not_not] at nonempty
  subst nonempty
  exact tracks.process_first number

end Tracks

variable (numbers : List Int)

/-- The sequencer after packets with these numbers, in the order of their arrival. -/
def receiveAll : UnreliableSequencer :=
  numbers.foldl
    (fun sequencer number => (sequencer.processIncomingSequence (UInt16.ofInt number)).2) new

/-- Every packet arrives within 32767 of the highest number before it. -/
def WithinReach : Prop :=
  ∀ earlier number later, numbers = earlier ++ number :: later →
    ∀ highest, IsGreatest {other | other ∈ earlier} highest →
      number ≤ highest + 32767 ∧ highest ≤ number + 32767

/-- Numbers from some multiple of `2 ^ 16` below zero, counted from there. -/
def countedFrom (rounds : Nat) (number : Int) : Nat :=
  (number + 2 ^ 16 * rounds).toNat

theorem exists_rounds :
    ∃ rounds : Nat, ∀ number ∈ numbers, 0 ≤ number + 2 ^ 16 * (rounds : Int) := by
  induction numbers with
  | nil => exact ⟨0, fun _ member => absurd member not_mem_nil⟩
  | cons first rest ih =>
    obtain ⟨rounds, enough⟩ := ih
    refine ⟨rounds + first.natAbs, ?_⟩
    intro number member
    rcases List.mem_cons.mp member with rfl | member
    · omega
    have restEnough := enough number member
    omega

theorem ofInt_eq_ofNat {rounds : Nat} {number : Int} (enough : 0 ≤ number + 2 ^ 16 * (rounds : Int)) :
    UInt16.ofInt number = UInt16.ofNat (countedFrom rounds number) := by
  rw [← UInt16.toNat_inj, UInt16.toNat_ofNat', countedFrom, UInt16.ofInt, UInt16.toNat_ofNat']
  omega

theorem exists_highestOf {numbers : List Int} {rounds : Nat}
    (enough : ∀ number ∈ numbers, 0 ≤ number + 2 ^ 16 * (rounds : Int))
    (nonempty : (numbers.map (countedFrom rounds)).reverse ≠ []) :
    ∃ highest, IsGreatest {number | number ∈ numbers} highest ∧
      highestOf (numbers.map (countedFrom rounds)).reverse = countedFrom rounds highest := by
  obtain ⟨highest, arrived, isHighest⟩ :=
    mem_map.mp (mem_reverse.mp (highestOf_mem nonempty))
  refine ⟨highest, ⟨arrived, ?_⟩, isHighest.symm⟩
  intro number member
  have counted : countedFrom rounds number ∈ (numbers.map (countedFrom rounds)).reverse :=
    mem_reverse.mpr (mem_map_of_mem member)
  have below := le_highestOf counted
  have numberEnough := enough number member
  have highestEnough := enough highest arrived
  rw [← isHighest, countedFrom, countedFrom] at below
  omega

theorem tracks_receiveAll {numbers : List Int} {rounds : Nat}
    (enough : ∀ number ∈ numbers, 0 ≤ number + 2 ^ 16 * (rounds : Int))
    (reach : WithinReach numbers) :
    Tracks (receiveAll numbers) (numbers.map (countedFrom rounds)).reverse := by
  induction numbers using List.reverseRecOn with
  | nil => exact tracks_new
  | append_singleton earlier number ih =>
    have tracks := ih (fun other member => enough other (mem_append_left _ member))
      fun before other later split =>
        reach before other (later ++ [number]) (by rw [split, append_assoc]; rfl)
    have last : 0 ≤ number + 2 ^ 16 * (rounds : Int) := enough number (by simp)
    have near : (earlier.map (countedFrom rounds)).reverse ≠ [] →
        highestOf (earlier.map (countedFrom rounds)).reverse ≤ countedFrom rounds number + 32767 ∧
          countedFrom rounds number ≤
            highestOf (earlier.map (countedFrom rounds)).reverse + 32767 := by
      intro nonempty
      obtain ⟨highest, greatest, isHighest⟩ :=
        exists_highestOf (fun other member => enough other (mem_append_left _ member)) nonempty
      have highestEnough := enough highest (mem_append_left _ greatest.1)
      have within := reach earlier number [] rfl highest greatest
      rw [isHighest, countedFrom, countedFrom]
      omega
    have processed := @Tracks.process _ _ (countedFrom rounds number) tracks
      (fun nonempty => by have := near nonempty; omega)
      (fun nonempty => by have := near nonempty; omega)
    rw [receiveAll, foldl_append, map_append, reverse_append]
    rw [← ofInt_eq_ofNat last] at processed
    exact processed

/-- The sequencer holds the highest number that has arrived, and bit by bit which of the 32
numbers before it have. -/
theorem receiveAll_tracks (reach : WithinReach numbers) (highest : Int)
    (greatest : IsGreatest {number | number ∈ numbers} highest) :
    (receiveAll numbers).highestReceivedSequence = UInt16.ofInt highest ∧
      ∀ i < 32, bitAt (receiveAll numbers).receivedBitfield i = true ↔
        highest - 1 - i ∈ numbers := by
  obtain ⟨rounds, enough⟩ := exists_rounds numbers
  have tracks := tracks_receiveAll enough reach
  have nonempty : (numbers.map (countedFrom rounds)).reverse ≠ [] :=
    ne_nil_of_mem (mem_reverse.mpr (mem_map_of_mem greatest.1))
  have highestEnough := enough highest greatest.1
  obtain ⟨other, otherGreatest, isHighest⟩ := exists_highestOf enough nonempty
  rw [otherGreatest.unique greatest] at isHighest
  refine ⟨?_, ?_⟩
  · rw [tracks.highest nonempty, isHighest, ofInt_eq_ofNat highestEnough]
  intro i inside
  rw [tracks.history nonempty i inside, isHighest]
  constructor
  · rintro ⟨number, arrived, sum⟩
    obtain ⟨earlier, member, rfl⟩ := mem_map.mp (mem_reverse.mp arrived)
    have earlierEnough := enough earlier member
    rw [countedFrom, countedFrom] at sum
    have isEarlier : highest - 1 - i = earlier := by omega
    rw [isEarlier]
    exact member
  intro member
  have earlierEnough := enough _ member
  refine ⟨_, mem_reverse.mpr (mem_map_of_mem member), ?_⟩
  rw [countedFrom, countedFrom]
  omega

theorem receiveAll_tracks_late :
    WithinReach [-1, 31, 30] ∧ IsGreatest {number : Int | number ∈ [-1, 31, 30]} 31 ∧
      ((receiveAll [-1, 31, 30]).highestReceivedSequence = UInt16.ofInt 31 ∧
        ∀ i < 32, bitAt (receiveAll [-1, 31, 30]).receivedBitfield i = true ↔
          (31 : Int) - 1 - i ∈ [-1, 31, 30]) := by
  have greatest : IsGreatest {number : Int | number ∈ [-1, 31, 30]} 31 := by
    refine ⟨by simp, ?_⟩
    intro number member
    simp only [Set.mem_ofPred_eq, mem_cons, not_mem_nil, or_false] at member
    omega
  have reach : WithinReach [-1, 31, 30] := by
    intro earlier number later split highest isGreatest
    have member (other : Int) (arrived : other ∈ earlier ++ number :: later) :
        -1 ≤ other ∧ other ≤ 31 := by
      rw [← split] at arrived
      simp only [mem_cons, not_mem_nil, or_false] at arrived
      omega
    have first := member number (by simp)
    have second := member highest (mem_append_left _ isGreatest.1)
    omega
  exact ⟨reach, greatest, receiveAll_tracks _ reach _ greatest⟩

end Eidolon.Net.UnreliableSequencer
