import Eidolon.Library.Run
import Eidolon.Net.Channel

/-!
# Ordered delivery over an unreliable network

Two endpoints of a reliable channel and the network between them.  Every packet that
the sender queues or retransmits goes onto the wire, where it stays: the network may
deliver any packet of the wire at any time, any number of times or never.  What the
receiver writes to its output slices is a prefix of what was queued, as long as no
expected packet arrives at an empty slice or while a copy of it is still held.
-/

namespace Eidolon.Net

open Library List

structure DeliverySystem (pendingCap orderedCap : Nat) where
  sender : ReliableChannel pendingCap orderedCap
  receiver : ReliableChannel pendingCap orderedCap
  wire : List (UInt16 × List UInt8)
  queued : List (List UInt8)
  delivered : List (List UInt8)

inductive DeliveryInput where
  | queue (data : List UInt8)
  | acknowledge (ack : UInt16) (ackBitfield : UInt32)
  | retransmit
  | setMaxRetries (maxRetries : UInt8)
  | deliver (position outputLen : Nat)
  | drain (outputLen : Nat)

namespace DeliverySystem

variable {pendingCap orderedCap : Nat}

def start (pendingCap orderedCap : Nat) : DeliverySystem pendingCap orderedCap where
  sender := .new _ _
  receiver := .new _ _
  wire := []
  queued := []
  delivered := []

def packetOf (retried : UInt16 × ReliablePayload) : UInt16 × List UInt8 :=
  (retried.1, retried.2.bytes)

def receivePacket (system : DeliverySystem pendingCap orderedCap)
    (packet : UInt16 × List UInt8) (outputLen : Nat) : DeliverySystem pendingCap orderedCap :=
  match system.receiver.receiveAndDrainOrdered packet.1 packet.2 outputLen with
  | (.ok written, receiver) =>
    { system with
      receiver := receiver
      delivered := system.delivered ++ written.map ReliablePayload.bytes }
  | (.error _, receiver) => { system with receiver := receiver }

def step (system : DeliverySystem pendingCap orderedCap) :
    DeliveryInput → DeliverySystem pendingCap orderedCap
  | .queue data =>
    match system.sender.queueReliableMessage data with
    | (.ok seq, sender) =>
      { system with
        sender := sender
        wire := system.wire ++ [(seq, data)]
        queued := system.queued ++ [data] }
    | (.error _, sender) => { system with sender := sender }
  | .acknowledge ack ackBitfield =>
    { system with sender := system.sender.processRemoteAck ack ackBitfield }
  | .retransmit =>
    { system with
      sender := system.sender.checkRetransmissions.2.2
      wire := system.wire ++ system.sender.checkRetransmissions.2.1.map packetOf }
  | .setMaxRetries maxRetries => { system with sender := system.sender.setMaxRetries maxRetries }
  | .deliver position outputLen =>
    match system.wire[position]? with
    | some packet => system.receivePacket packet outputLen
    | none => system
  | .drain outputLen =>
    let (written, receiver) := system.receiver.drainOrderedPackets outputLen
    { system with
      receiver := receiver
      delivered := system.delivered ++ written.map ReliablePayload.bytes }

def IsCopyOf (queued : List (List UInt8)) (packet : UInt16 × List UInt8) (index : Nat) : Prop :=
  packet.1 = UInt16.ofNat index ∧ queued[index]? = some packet.2

instance (queued : List (List UInt8)) (packet : UInt16 × List UInt8) (index : Nat) :
    Decidable (IsCopyOf queued packet index) :=
  inferInstanceAs (Decidable (_ ∧ _))

theorem IsCopyOf.append {queued : List (List UInt8)} {packet : UInt16 × List UInt8}
    {index : Nat} (copy : IsCopyOf queued packet index) (data : List UInt8) :
    IsCopyOf (queued ++ [data]) packet index := by
  have inside := (List.getElem?_eq_some_iff.1 copy.2).1
  exact ⟨copy.1, by rw [List.getElem?_append_left inside, copy.2]⟩

/-- The network delivers no copy more than half the sequence space behind the number of
packets delivered, nor a whole space ahead of it. -/
def WithinHalfSpace (system : DeliverySystem pendingCap orderedCap) : DeliveryInput → Prop
  | .deliver position _ =>
    ∀ packet, system.wire[position]? = some packet → ∃ index, IsCopyOf system.queued packet index ∧
        system.delivered.length ≤ index + 2 ^ 15 ∧
        index < system.delivered.length + 2 ^ 16
  | _ => True

/-- The expected packet finds room in the output slice, and none of its copies is held
in the reorder buffer. -/
def ExpectedFindsRoom (system : DeliverySystem pendingCap orderedCap) : DeliveryInput → Prop
  | .deliver position outputLen =>
    ∀ packet, system.wire[position]? = some packet →
      packet.1 = system.receiver.expectedIncomingSeq → 0 < outputLen ∧
          ∀ incoming ∈ system.receiver.reorderBuffer.entries, incoming.sequence ≠ packet.1
  | _ => True

structure Receiving (queued delivered : List (List UInt8))
    (receiver : ReliableChannel pendingCap orderedCap) : Prop where
  isPrefix : delivered <+: queued
  expected : receiver.expectedIncomingSeq = UInt16.ofNat delivered.length
  held : ∀ incoming ∈ receiver.reorderBuffer.entries, ∃ index,
    IsCopyOf queued (incoming.sequence, incoming.payload.bytes) index ∧
      delivered.length ≤ index ∧ index < delivered.length + 2 ^ 15
  distinct : (receiver.reorderBuffer.entries.map IncomingReliablePacket.sequence).Nodup

namespace Receiving

variable {queued delivered : List (List UInt8)}
  {receiver : ReliableChannel pendingCap orderedCap}

theorem prefix_snoc (isPrefix : delivered <+: queued) {data : List UInt8}
    (next : queued[delivered.length]? = some data) : delivered ++ [data] <+: queued := by
  obtain ⟨rest, rfl⟩ := isPrefix
  rw [List.getElem?_append_right (Nat.le_refl _), Nat.sub_self] at next
  cases rest with
  | nil => simp at next
  | cons head rest =>
    simp only [List.getElem?_cons_zero, Option.some.injEq] at next
    subst head
    exact ⟨rest, by simp⟩

theorem queue (receiving : Receiving queued delivered receiver) (data : List UInt8) :
    Receiving (queued ++ [data]) delivered receiver where
  isPrefix := receiving.isPrefix.trans (prefix_append queued [data])
  expected := receiving.expected
  held := by
    intro incoming member
    obtain ⟨index, copy, bounds⟩ := receiving.held incoming member
    exact ⟨index, copy.append data, bounds⟩
  distinct := receiving.distinct

theorem deliver (receiving : Receiving queued delivered receiver) {data : List UInt8}
    (next : queued[delivered.length]? = some data)
    (notHeld : ∀ incoming ∈ receiver.reorderBuffer.entries,
      incoming.sequence ≠ receiver.expectedIncomingSeq) :
    Receiving queued (delivered ++ [data])
      { receiver with expectedIncomingSeq := receiver.expectedIncomingSeq + 1 } where
  isPrefix := prefix_snoc receiving.isPrefix next
  expected := by
    simp only [receiving.expected, ofNat_add_one, length_append, length_singleton]
  held := by
    intro incoming member
    obtain ⟨index, copy, low, high⟩ := receiving.held incoming member
    have notNext : index ≠ delivered.length := by
      intro equal
      apply notHeld incoming member
      rw [receiving.expected, ← equal]
      exact copy.1
    refine ⟨index, copy, ?_, ?_⟩ <;> rw [length_append, length_singleton] <;> omega
  distinct := receiving.distinct

section

variable (receiving : Receiving queued delivered receiver)
include receiving

theorem drainNext : Receiving queued
      (delivered ++ (receiver.drainNextOrderedPacket.1.map ReliablePayload.bytes).toList)
      receiver.drainNextOrderedPacket.2 := by
  unfold ReliableChannel.drainNextOrderedPacket
  cases found : receiver.reorderBuffer.findFirst? fun incoming =>
      incoming.sequence = receiver.expectedIncomingSeq with
  | none => simpa using receiving
  | some entry =>
    obtain ⟨slot, incoming⟩ := entry
    obtain ⟨isHeld, isExpected, _⟩ := SlotArray.findFirst?_eq_some found
    rw [decide_eq_true_iff] at isExpected
    have split := SlotArray.entries_set_none isHeld
    obtain ⟨index, copy, low, high⟩ :=
      receiving.held incoming (SlotArray.mem_entries_of_get? isHeld)
    have isNext : index = delivered.length := by
      rw [← ofNat_eq_ofNat_iff (by omega) (by omega), ← receiving.expected, ← isExpected]
      exact copy.1.symm
    have others := (split.map IncomingReliablePacket.sequence).nodup_iff.1 receiving.distinct
    rw [map_cons, nodup_cons] at others
    have remaining : Receiving queued delivered
        { receiver with reorderBuffer := receiver.reorderBuffer.set slot none } := {
      isPrefix := receiving.isPrefix
      expected := receiving.expected
      held := fun other member =>
        receiving.held other (SlotArray.mem_entries_set_none member)
      distinct := others.2 }
    apply remaining.deliver (isNext ▸ copy.2)
    intro other member sameSequence
    apply others.1
    rw [isExpected, ← sameSequence]
    exact List.mem_map_of_mem member

theorem drain (room : Nat) : Receiving queued
      (delivered ++ (receiver.drainOrderedPackets room).1.map ReliablePayload.bytes)
      (receiver.drainOrderedPackets room).2 := by
  induction room generalizing delivered receiver with
  | zero => simpa [ReliableChannel.drainOrderedPackets] using receiving
  | succ room ih =>
    have first := receiving.drainNext
    simp only [ReliableChannel.drainOrderedPackets]
    cases drained : receiver.drainNextOrderedPacket with
    | mk packet next =>
      rw [drained] at first
      rcases packet with _ | packet
      · simpa using first
      have rest := ih first
      simpa using rest

/-- Receiving a copy within half the space.  The expected packet is passed on, one of
the following half space is held, and any other is left aside. -/
theorem receiveAndDrain {packet : UInt16 × List UInt8} {index : Nat}
    (copy : IsCopyOf queued packet index) (behind : delivered.length ≤ index + 2 ^ 15)
    (ahead : index < delivered.length + 2 ^ 16) {outputLen : Nat}
    (findsRoom : packet.1 = receiver.expectedIncomingSeq →
      0 < outputLen ∧ ∀ incoming ∈ receiver.reorderBuffer.entries, incoming.sequence ≠ packet.1) :
    ∀ outcome receiver', receiver.receiveAndDrainOrdered packet.1 packet.2 outputLen =
        (outcome, receiver') →
      Receiving queued
        (delivered ++ (outcome.toOption.getD []).map ReliablePayload.bytes) receiver' := by
  intro outcome receiver' received
  unfold ReliableChannel.receiveAndDrainOrdered at received
  rcases receiver.receiveReliablePacket_cases packet.1 packet.2 with
    ⟨short, isExpected, result⟩ | ⟨short, reorderBuffer, isNewer, noCopy, filled, result⟩ |
      ⟨error, result⟩ | result
  · obtain ⟨hasRoom, notHeld⟩ := findsRoom isExpected
    have isNext : index = delivered.length := by
      rw [← ofNat_eq_ofNat_iff (by omega) (by omega), ← copy.1, isExpected, receiving.expected]
    have passedOn := receiving.deliver (isNext ▸ copy.2)
      (fun incoming member => isExpected ▸ notHeld incoming member)
    rw [result] at received
    cases outputLen with
    | zero => exact absurd hasRoom (Nat.lt_irrefl 0)
    | succ room =>
      have drained := passedOn.drain room
      cases received
      simpa [Except.toOption] using drained
  · rw [result] at received
    cases received
    rw [UnreliableSequencer.isSequenceNewer, copy.1, receiving.expected,
      isNewer16_ofNat_iff behind ahead] at isNewer
    have entries := SlotArray.fillFirst?_entries filled
    simp only [Except.toOption, Option.getD_some, map_nil, append_nil]
    refine ⟨receiving.isPrefix, receiving.expected, ?_, ?_⟩
    · intro incoming member
      rw [entries.mem_iff, mem_cons] at member
      rcases member with equal | member
      · subst equal
        exact ⟨index, copy, Nat.le_of_lt isNewer.1, isNewer.2⟩
      exact receiving.held incoming member
    have sequences := entries.map IncomingReliablePacket.sequence
    rw [sequences.nodup_iff, map_cons, nodup_cons]
    refine ⟨fun member => ?_, receiving.distinct⟩
    obtain ⟨incoming, isHeld, sameSequence⟩ := List.mem_map.1 member
    exact noCopy incoming isHeld sameSequence
  · rw [result] at received
    cases received
    simpa [Except.toOption] using receiving
  rw [result] at received
  cases received
  simpa [Except.toOption] using receiving

end

end Receiving

theorem receiving_step {system : DeliverySystem pendingCap orderedCap}
    (receiving : Receiving system.queued system.delivered system.receiver) {input : DeliveryInput}
    (within : WithinHalfSpace system input) (findsRoom : ExpectedFindsRoom system input) :
    Receiving (step system input).queued (step system input).delivered
      (step system input).receiver := by
  cases input with
  | queue data =>
    rcases system.sender.queueReliableMessage_cases data with
      ⟨error, result⟩ | ⟨short, pendingPackets, _, filled, result⟩
    · simp only [step, result]
      exact receiving
    simp only [step, result]
    exact receiving.queue data
  | deliver position outputLen =>
    rcases onWire : system.wire[position]? with _ | packet
    · simp only [step, onWire]
      exact receiving
    obtain ⟨index, copy, behind, ahead⟩ := within packet onWire
    have received := receiving.receiveAndDrain copy behind ahead (findsRoom packet onWire)
    simp only [step, onWire, receivePacket]
    split
    · rename_i written receiver result
      exact received _ _ result
    rename_i error receiver result
    simpa [Except.toOption] using received _ _ result
  | drain outputLen => exact receiving.drain outputLen
  | _ => exact receiving

/-- In every run over a network that delays no copy by more than half the sequence
space, what is written to the output slices is a prefix of what was queued, if every
expected packet finds room and is not held at the same time. -/
theorem delivered_isPrefix_of_eachStep {inputs : List DeliveryInput}
    (within : EachStep step WithinHalfSpace (start pendingCap orderedCap) inputs)
    (findRoom : EachStep step ExpectedFindsRoom (start pendingCap orderedCap) inputs) :
    Throughout step (fun system => system.delivered <+: system.queued)
      (start pendingCap orderedCap) inputs := by
  have initial : Receiving (start pendingCap orderedCap).queued
      (start pendingCap orderedCap).delivered (start pendingCap orderedCap).receiver := by
    refine ⟨prefix_refl _, rfl, fun incoming member => ?_, ?_⟩
    · simp [start, ReliableChannel.new] at member
    simp [start, ReliableChannel.new]
  have always : Throughout step
      (fun system => Receiving system.queued system.delivered system.receiver)
      (start pendingCap orderedCap) inputs := by
    apply throughout_of_eachStep _ _ (within.and findRoom)
    · intro system input receiving met
      exact receiving_step receiving met.1 met.2
    exact initial
  exact always.imp fun _ receiving => receiving.isPrefix

/-- Two messages, delivered in the wrong order into slices of length four. -/
def reorderedRun : List DeliveryInput :=
  [.queue [97], .queue [98], .deliver 1 4, .deliver 0 4]

theorem delivered_isPrefix_reordered :
    Throughout step (fun system => system.delivered <+: system.queued) (start 16 16)
      reorderedRun := by
  apply delivered_isPrefix_of_eachStep
  · refine ⟨trivial, trivial, ?_, ?_, trivial⟩ <;> intro packet onWire <;> cases onWire
    · exact ⟨1, by decide, by decide, by decide⟩
    exact ⟨0, by decide, by decide, by decide⟩
  refine ⟨trivial, trivial, ?_, ?_, trivial⟩ <;> intro packet onWire <;> cases onWire <;> decide

def emptySliceRun : List DeliveryInput :=
  [.queue [97], .queue [98], .deliver 0 0, .deliver 1 1]

/-- The first message is consumed and lost, and the second is delivered in its place. -/
theorem delivered_skips_of_emptySlice : EachStep step WithinHalfSpace (start 16 16) emptySliceRun ∧
      ¬ Throughout step (fun system => system.delivered <+: system.queued) (start 16 16)
        emptySliceRun := by
  constructor
  · refine ⟨trivial, trivial, ?_, ?_, trivial⟩ <;> intro packet onWire <;> cases onWire
    · exact ⟨0, by decide, by decide, by decide⟩
    exact ⟨1, by decide, by decide, by decide⟩
  intro always
  have skipped : ¬ (run step (start 16 16) emptySliceRun).delivered <+:
      (run step (start 16 16) emptySliceRun).queued := by
    decide
  exact skipped always.run

end DeliverySystem

end Eidolon.Net
