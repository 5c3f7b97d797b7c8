import Eidolon.Library.Run
import Eidolon.Net.Channel

/-!
# The reorder buffer

What a receiver holds back is expected next or newer, and held once, as long as no packet is
handed out on its arrival while a copy of it is held.
-/

namespace Eidolon.Net

open Library List

/-- What is called at the receiving end of a channel. -/
inductive ReceiverCall where
  | receiveReliablePacket (seq : UInt16) (data : List UInt8)
  | drainNextOrderedPacket
  | drainOrderedPackets (outputLen : Nat)

namespace ReliableChannel

variable {pendingCap orderedCap : Nat}

def receiverStep (channel : ReliableChannel pendingCap orderedCap) :
    ReceiverCall → ReliableChannel pendingCap orderedCap
  | .receiveReliablePacket seq data => (channel.receiveReliablePacket seq data).2
  | .drainNextOrderedPacket => channel.drainNextOrderedPacket.2
  | .drainOrderedPackets outputLen => (channel.drainOrderedPackets outputLen).2

structure HoldsAhead (channel : ReliableChannel pendingCap orderedCap) : Prop where
  ahead : ∀ incoming ∈ channel.reorderBuffer.entries,
    incoming.sequence = channel.expectedIncomingSeq ∨
      UnreliableSequencer.isSequenceNewer incoming.sequence channel.expectedIncomingSeq = true
  distinct : (channel.reorderBuffer.entries.map IncomingReliablePacket.sequence).Nodup

/-- A packet that is handed out on its arrival is not held as well. -/
def ExpectedNotHeld (channel : ReliableChannel pendingCap orderedCap) : ReceiverCall → Prop
  | .receiveReliablePacket seq data =>
    data.length ≤ maxReliablePayload → seq = channel.expectedIncomingSeq →
      ∀ incoming ∈ channel.reorderBuffer.entries, incoming.sequence ≠ seq
  | _ => True

theorem sequence_eq_iff {seq expected : UInt16} : seq = expected ↔ (seq - expected).toNat = 0 := by
  have seqSmall := seq.toNat_lt
  have expectedSmall := expected.toNat_lt
  rw [← UInt16.toNat_inj, UInt16.toNat_sub]
  omega

theorem notBehind_iff {seq expected : UInt16} :
    (seq = expected ∨ UnreliableSequencer.isSequenceNewer seq expected = true) ↔
      (seq - expected).toNat < 2 ^ 15 := by
  rw [sequence_eq_iff, UnreliableSequencer.isSequenceNewer, isNewer16_iff]
  omega

variable {channel : ReliableChannel pendingCap orderedCap}

section

variable (holds : channel.HoldsAhead)
include holds

theorem holdsAhead_next_iff :
    ({ channel with expectedIncomingSeq := channel.expectedIncomingSeq + 1 } :
        ReliableChannel pendingCap orderedCap).HoldsAhead ↔
      ∀ incoming ∈ channel.reorderBuffer.entries,
        incoming.sequence ≠ channel.expectedIncomingSeq := by
  have next (seq : UInt16) : (seq - (channel.expectedIncomingSeq + 1)).toNat =
      ((seq - channel.expectedIncomingSeq).toNat + 65535) % 2 ^ 16 := by
    have small := channel.expectedIncomingSeq.toNat_lt
    rw [UInt16.toNat_sub, UInt16.toNat_sub, UInt16.toNat_add, UInt16.toNat_one]
    omega
  constructor
  · intro after incoming member expected
    have notBehind := notBehind_iff.mp (after.ahead incoming member)
    rw [next, sequence_eq_iff.mp expected] at notBehind
    omega
  intro notHeld
  refine ⟨?_, holds.distinct⟩
  intro incoming member
  have notBehind := notBehind_iff.mp (holds.ahead incoming member)
  have apart := mt sequence_eq_iff.mpr (notHeld incoming member)
  rw [notBehind_iff, next]
  omega

theorem HoldsAhead.receiveReliablePacket_iff (seq : UInt16) (data : List UInt8) :
    (channel.receiverStep (.receiveReliablePacket seq data)).HoldsAhead ↔
      channel.ExpectedNotHeld (.receiveReliablePacket seq data) := by
  by_cases handedOut : data.length ≤ maxReliablePayload ∧ seq = channel.expectedIncomingSeq
  · obtain ⟨short, rfl⟩ := handedOut
    have result : channel.receiverStep (.receiveReliablePacket channel.expectedIncomingSeq data) =
        { channel with expectedIncomingSeq := channel.expectedIncomingSeq + 1 } := by
      rw [receiverStep, receiveReliablePacket, dif_pos short, if_pos rfl]
    rw [result, holdsAhead_next_iff holds]
    simp only [ExpectedNotHeld, short, forall_const]
  refine iff_of_true ?_ fun short isExpected => absurd ⟨short, isExpected⟩ handedOut
  rcases channel.receiveReliablePacket_cases seq data with
    ⟨short, isExpected, _⟩ | ⟨short, reorderBuffer, isNewer, noCopy, filled, result⟩ |
      ⟨error, result⟩ | result
  · exact absurd ⟨short, isExpected⟩ handedOut
  · rw [receiverStep, result]
    have entries := SlotArray.fillFirst?_entries filled
    refine ⟨?_, ?_⟩
    · intro incoming member
      rcases List.mem_cons.mp (entries.mem_iff.mp member) with rfl | before
      · exact Or.inr isNewer
      exact holds.ahead incoming before
    rw [(entries.map IncomingReliablePacket.sequence).nodup_iff, map_cons, nodup_cons]
    refine ⟨?_, holds.distinct⟩
    intro member
    obtain ⟨incoming, isHeld, sameSequence⟩ := List.mem_map.mp member
    exact noCopy incoming isHeld sameSequence
  · rw [receiverStep, result]
    exact holds
  rw [receiverStep, result]
  exact holds

theorem HoldsAhead.drainNextOrderedPacket :
    channel.drainNextOrderedPacket.2.HoldsAhead := by
  unfold ReliableChannel.drainNextOrderedPacket
  split
  · rename_i index incoming found
    obtain ⟨isHeld, isExpected, _⟩ := SlotArray.findFirst?_eq_some found
    rw [decide_eq_true_iff] at isExpected
    have others := ((SlotArray.entries_set_none isHeld).map
      IncomingReliablePacket.sequence).nodup_iff.mp holds.distinct
    rw [map_cons, nodup_cons, isExpected] at others
    have remaining : ({ channel with reorderBuffer := channel.reorderBuffer.set index none } :
        ReliableChannel pendingCap orderedCap).HoldsAhead :=
      ⟨fun other member => holds.ahead other (SlotArray.mem_entries_set_none member), others.2⟩
    refine (holdsAhead_next_iff remaining).mpr ?_
    intro other member same
    exact others.1 (same ▸ List.mem_map_of_mem member)
  exact holds

theorem HoldsAhead.drainOrderedPackets (room : Nat) :
    (channel.drainOrderedPackets room).2.HoldsAhead := by
  induction room generalizing channel with
  | zero => exact holds
  | succ room ih =>
    have first := holds.drainNextOrderedPacket
    rw [ReliableChannel.drainOrderedPackets]
    split
    · rename_i packet next drained
      rw [drained] at first
      exact ih first
    rename_i next drained
    rw [drained] at first
    exact first

end

/-- Along a run of the receiver, the packets that are held are expected or newer, and none is
held twice, exactly as long as no packet is handed out on its arrival while it is held. -/
theorem holdsAhead_throughout_iff (calls : List ReceiverCall) :
    Throughout receiverStep HoldsAhead (new pendingCap orderedCap) calls ↔
      EachStep receiverStep ExpectedNotHeld (new pendingCap orderedCap) calls := by
  have initial : (new pendingCap orderedCap).HoldsAhead := by
    refine ⟨?_, ?_⟩
    · intro incoming member
      rw [new, SlotArray.entries_empty] at member
      exact absurd member not_mem_nil
    rw [new, SlotArray.entries_empty]
    exact nodup_nil
  apply throughout_iff_eachStep_of_exact initial
  intro channel call holds
  cases call with
  | receiveReliablePacket seq data => exact holds.receiveReliablePacket_iff seq data
  | drainNextOrderedPacket => exact iff_of_true holds.drainNextOrderedPacket trivial
  | drainOrderedPackets outputLen => exact iff_of_true (holds.drainOrderedPackets outputLen) trivial

/-- Packet 1 arrives early and is held; it arrives again behind packet 0 and is handed out. -/
theorem not_holdsAhead_repeated : ¬ Throughout receiverStep HoldsAhead (new 1 1)
      [.receiveReliablePacket 1 [], .receiveReliablePacket 0 [], .receiveReliablePacket 1 []] := by
  intro always
  have held := always.run.ahead ⟨1, [], by decide⟩ (by decide +kernel)
  exact absurd held (by decide +kernel)

end ReliableChannel

end Eidolon.Net
