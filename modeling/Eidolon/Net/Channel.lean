import Eidolon.Library.MachineInt
import Eidolon.Library.SerialNumber
import Eidolon.Library.SlotArray
import Eidolon.Net.Packet

/-!
# Sequenced and reliable channels

The sequencer of an unreliable stream with its 32-bit receive history, and the
sliding-window reliable channel with its retransmission and reorder buffers.
-/

namespace Eidolon.Net

open Library List

def maxReliablePayload : Nat := 256

def defaultRetryTicks : UInt32 := 4

def defaultMaxRetries : UInt8 := 16

structure UnreliableSequencer where
  nextOutgoingSequence : UInt16
  highestReceivedSequence : UInt16
  receivedBitfield : UInt32
  hasReceivedAny : Bool
  deriving DecidableEq

namespace UnreliableSequencer

def new : UnreliableSequencer where
  nextOutgoingSequence := 0
  highestReceivedSequence := 0
  receivedBitfield := 0
  hasReceivedAny := false

variable (sequencer : UnreliableSequencer)

def nextSequence : UInt16 × UnreliableSequencer :=
  (sequencer.nextOutgoingSequence,
    { sequencer with nextOutgoingSequence := sequencer.nextOutgoingSequence + 1 })

def ackData : UInt16 × UInt32 :=
  (sequencer.highestReceivedSequence, sequencer.receivedBitfield)

def isSequenceNewer (seqA seqB : UInt16) : Bool :=
  isNewer16 seqA seqB

def processIncomingSequence (seq : UInt16) : Bool × UnreliableSequencer :=
  if !sequencer.hasReceivedAny then
    (true,
      { sequencer with
        hasReceivedAny := true
        highestReceivedSequence := seq
        receivedBitfield := 0 })
  else if isSequenceNewer seq sequencer.highestReceivedSequence then
    let diff := (seq - sequencer.highestReceivedSequence).toNat
    let receivedBitfield :=
      if diff < 32 then
        (sequencer.receivedBitfield <<< UInt32.ofNat diff) ||| (1 <<< UInt32.ofNat (diff - 1))
      else if diff = 32 then
        (1 : UInt32) <<< 31
      else
        0
    (true,
      { sequencer with
        highestReceivedSequence := seq
        receivedBitfield := receivedBitfield })
  else
    let diff := (sequencer.highestReceivedSequence - seq).toNat
    if 0 < diff ∧ diff ≤ 32 then
      (false,
        { sequencer with
          receivedBitfield :=
            sequencer.receivedBitfield ||| (1 <<< UInt32.ofNat (diff - 1)) })
    else
      (false, sequencer)

end UnreliableSequencer

structure ReliablePayload where
  bytes : List UInt8
  length_le : bytes.length ≤ maxReliablePayload
  deriving DecidableEq

structure PendingReliablePacket where
  sequence : UInt16
  payload : ReliablePayload
  retryCountdown : UInt32
  retryCount : UInt8
  deriving DecidableEq

def PendingReliablePacket.packet (pending : PendingReliablePacket) : UInt16 × ReliablePayload :=
  (pending.sequence, pending.payload)

structure IncomingReliablePacket where
  sequence : UInt16
  payload : ReliablePayload
  deriving DecidableEq

structure ReliableChannel (pendingCap orderedCap : Nat) where
  nextOutgoingSeq : UInt16
  expectedIncomingSeq : UInt16
  pendingPackets : SlotArray pendingCap PendingReliablePacket
  reorderBuffer : SlotArray orderedCap IncomingReliablePacket
  maxRetries : UInt8
  isTimedOut : Bool
  deriving DecidableEq

namespace ReliableChannel

variable {pendingCap orderedCap : Nat}

def new (pendingCap orderedCap : Nat) : ReliableChannel pendingCap orderedCap where
  nextOutgoingSeq := 0
  expectedIncomingSeq := 0
  pendingPackets := SlotArray.empty _ _
  reorderBuffer := SlotArray.empty _ _
  maxRetries := defaultMaxRetries
  isTimedOut := false

def oldestOf (nextOutgoingSeq : UInt16) :
    List PendingReliablePacket → Option UInt16 × UInt16 → Option UInt16 × UInt16
  | [], best => best
  | pending :: rest, (oldest, maxAge) =>
    let age := nextOutgoingSeq - pending.sequence
    if oldest.isNone ∨ maxAge < age then
      oldestOf nextOutgoingSeq rest (some pending.sequence, age)
    else
      oldestOf nextOutgoingSeq rest (oldest, maxAge)

variable (channel : ReliableChannel pendingCap orderedCap)

def oldestPendingSeq : Option UInt16 :=
  (oldestOf channel.nextOutgoingSeq channel.pendingPackets.entries (none, 0)).1

def windowFull : Bool :=
  match channel.oldestPendingSeq with
  | some oldest => decide (pendingCap ≤ (channel.nextOutgoingSeq - oldest).toNat)
  | none => false

variable (seq : UInt16)

def freshPacket (payload : ReliablePayload) : PendingReliablePacket where
  sequence := seq
  payload := payload
  retryCountdown := defaultRetryTicks
  retryCount := 0

variable (data : List UInt8)

def queueReliableMessage : Except NetError UInt16 × ReliableChannel pendingCap orderedCap :=
  if short : data.length ≤ maxReliablePayload then
    if channel.windowFull then
      (.error .queueFull, channel)
    else
      let pending := freshPacket channel.nextOutgoingSeq ⟨data, short⟩
      match channel.pendingPackets.fillFirst? pending with
      | none => (.error .queueFull, channel)
      | some pendingPackets =>
        (.ok channel.nextOutgoingSeq,
          { channel with
            nextOutgoingSeq := channel.nextOutgoingSeq + 1
            pendingPackets := pendingPackets })
  else
    (.error (.payloadTooLarge data.length maxReliablePayload), channel)

def isAcked (ack : UInt16) (ackBitfield : UInt32) (pending : UInt16) : Bool :=
  if pending = ack then
    true
  else if UnreliableSequencer.isSequenceNewer ack pending then
    let diff := (ack - pending).toNat
    decide (0 < diff ∧ diff ≤ 32) && decide ((ackBitfield >>> UInt32.ofNat (diff - 1)) &&& 1 ≠ 0)
  else
    false

def processRemoteAck (ack : UInt16) (ackBitfield : UInt32) :
    ReliableChannel pendingCap orderedCap :=
  { channel with
    pendingPackets := channel.pendingPackets.mapSlots fun pending =>
      if isAcked ack ackBitfield pending.sequence then none else some pending }

/-- Ingests a packet; returns its payload when it is the next one expected. -/
def receiveReliablePacket :
    Except NetError (Option ReliablePayload) × ReliableChannel pendingCap orderedCap :=
  if short : data.length ≤ maxReliablePayload then
    let payload : ReliablePayload := ⟨data, short⟩
    if seq = channel.expectedIncomingSeq then
      (.ok (some payload), { channel with expectedIncomingSeq := channel.expectedIncomingSeq + 1 })
    else if UnreliableSequencer.isSequenceNewer seq channel.expectedIncomingSeq then
      -- a sequence that is already held does not take a second slot
      if channel.reorderBuffer.entries.any fun incoming => incoming.sequence = seq then
        (.ok none, channel)
      else
        match channel.reorderBuffer.fillFirst? { sequence := seq, payload := payload } with
        | some reorderBuffer => (.ok none, { channel with reorderBuffer := reorderBuffer })
        | none => (.error .queueFull, channel)
    else
      (.ok none, channel)
  else
    (.error (.payloadTooLarge data.length maxReliablePayload), channel)

def drainNextOrderedPacket : Option ReliablePayload × ReliableChannel pendingCap orderedCap :=
  match channel.reorderBuffer.findFirst? fun incoming =>
      incoming.sequence = channel.expectedIncomingSeq with
  | some (index, incoming) =>
    (some incoming.payload,
      { channel with
        reorderBuffer := channel.reorderBuffer.set index none
        expectedIncomingSeq := channel.expectedIncomingSeq + 1 })
  | none => (none, channel)

def drainOrderedPackets : Nat → ReliableChannel pendingCap orderedCap →
    List ReliablePayload × ReliableChannel pendingCap orderedCap
  | 0, channel => ([], channel)
  | room + 1, channel =>
    match channel.drainNextOrderedPacket with
    | (some packet, channel) =>
      let (packets, channel) := drainOrderedPackets room channel
      (packet :: packets, channel)
    | (none, channel) => ([], channel)

/-- Ingests a packet and drains what follows it into an output slice of the given
length; returns what is written to the front of the slice. -/
def receiveAndDrainOrdered (outputLen : Nat) :
    Except NetError (List ReliablePayload) × ReliableChannel pendingCap orderedCap :=
  match channel.receiveReliablePacket seq data with
  | (.error error, channel) => (.error error, channel)
  | (.ok none, channel) => (.ok [], channel)
  | (.ok (some first), channel) =>
    match outputLen with
    | 0 => (.ok [], channel)
    | room + 1 =>
      let (packets, channel) := channel.drainOrderedPackets room
      (.ok (first :: packets), channel)

/-- Ticks the retransmission timers slot by slot.  Returns the slots, the packets
handed to the retry callback, and whether a packet ran out of retries, which ends the
loop. -/
def tickRetries (maxRetries : UInt8) : List (Option PendingReliablePacket) →
    List (Option PendingReliablePacket) × List (UInt16 × ReliablePayload) × Bool
  | [] => ([], [], false)
  | none :: slots =>
    let (slots, retried, timedOut) := tickRetries maxRetries slots
    (none :: slots, retried, timedOut)
  | some pending :: slots =>
    if pending.retryCountdown = 0 then
      let retryCount := saturatingAdd8 pending.retryCount 1
      if maxRetries < retryCount then
        (some { pending with retryCount := retryCount } :: slots, [], true)
      else
        let shift := min (saturatingSub8 retryCount 1) 3
        let retryCountdown := min (defaultRetryTicks <<< shift.toUInt32) 32
        let (slots, retried, timedOut) := tickRetries maxRetries slots
        (some { pending with retryCount := retryCount, retryCountdown := retryCountdown } ::
            slots,
          (pending.sequence, pending.payload) :: retried, timedOut)
    else
      let (slots, retried, timedOut) := tickRetries maxRetries slots
      (some { pending with retryCountdown := saturatingSub32 pending.retryCountdown 1 } ::
          slots,
        retried, timedOut)

variable (maxRetries : UInt8) (slots : List (Option PendingReliablePacket))

theorem length_tickRetries : (tickRetries maxRetries slots).1.length = slots.length := by
  induction slots with
  | nil => rfl
  | cons slot slots ih =>
    rcases slot with _ | pending
    · simp [tickRetries, ih]
    simp only [tickRetries]
    split
    · split <;> simp [ih]
    simp [ih]

def checkRetransmissions : Except NetError Unit × List (UInt16 × ReliablePayload) ×
      ReliableChannel pendingCap orderedCap :=
  if channel.isTimedOut then
    (.error .connectionTimedOut, [], channel)
  else
    let ticked := tickRetries channel.maxRetries channel.pendingPackets.slots
    let pendingPackets : SlotArray pendingCap PendingReliablePacket :=
      ⟨ticked.1, (length_tickRetries _ _).trans channel.pendingPackets.length_eq⟩
    if ticked.2.2 then
      (.error .connectionTimedOut, ticked.2.1,
        { channel with pendingPackets := pendingPackets, isTimedOut := true })
    else
      (.ok (), ticked.2.1, { channel with pendingPackets := pendingPackets })

def setMaxRetries : ReliableChannel pendingCap orderedCap :=
  { channel with maxRetries := maxRetries }

/-- Queueing either fails without effect or stores a fresh packet under the next
sequence, with the oldest pending packet inside the window. -/
theorem queueReliableMessage_cases :
    (∃ error, channel.queueReliableMessage data = (.error error, channel)) ∨
      ∃ (short : data.length ≤ maxReliablePayload)
        (pendingPackets : SlotArray pendingCap PendingReliablePacket),
        (∀ oldest, channel.oldestPendingSeq = some oldest →
          (channel.nextOutgoingSeq - oldest).toNat < pendingCap) ∧
        channel.pendingPackets.fillFirst? (freshPacket channel.nextOutgoingSeq ⟨data, short⟩) =
          some pendingPackets ∧
        channel.queueReliableMessage data = (.ok channel.nextOutgoingSeq,
            { channel with
              nextOutgoingSeq := channel.nextOutgoingSeq + 1
              pendingPackets := pendingPackets }) := by
  unfold queueReliableMessage
  by_cases short : data.length ≤ maxReliablePayload
  · rw [dif_pos short]
    split
    · exact .inl ⟨_, rfl⟩
    rename_i windowOpen
    cases filled : channel.pendingPackets.fillFirst?
        (freshPacket channel.nextOutgoingSeq ⟨data, short⟩) with
    | none => exact .inl ⟨.queueFull, by simp only [filled]⟩
    | some pendingPackets =>
      refine .inr ⟨short, pendingPackets, ?_, filled, by simp only [filled]⟩
      intro oldest found
      simpa [windowFull, found] using windowOpen
  rw [dif_neg short]
  exact .inl ⟨_, rfl⟩

/-- An arriving packet is handed out as the expected one, or held as a newer one of
which no copy is held, or leaves the channel as it is. -/
theorem receiveReliablePacket_cases : (∃ short : data.length ≤ maxReliablePayload,
      seq = channel.expectedIncomingSeq ∧ channel.receiveReliablePacket seq data =
          (.ok (some ⟨data, short⟩),
            { channel with expectedIncomingSeq := channel.expectedIncomingSeq + 1 })) ∨
    (∃ (short : data.length ≤ maxReliablePayload)
        (reorderBuffer : SlotArray orderedCap IncomingReliablePacket),
      UnreliableSequencer.isSequenceNewer seq channel.expectedIncomingSeq = true ∧
        (∀ incoming ∈ channel.reorderBuffer.entries, incoming.sequence ≠ seq) ∧
        channel.reorderBuffer.fillFirst? { sequence := seq, payload := ⟨data, short⟩ } =
          some reorderBuffer ∧
        channel.receiveReliablePacket seq data =
          (.ok none, { channel with reorderBuffer := reorderBuffer })) ∨
    (∃ error, channel.receiveReliablePacket seq data = (.error error, channel)) ∨
    channel.receiveReliablePacket seq data = (.ok none, channel) := by
  unfold receiveReliablePacket
  by_cases short : data.length ≤ maxReliablePayload
  · rw [dif_pos short]
    simp only
    split
    · rename_i isExpected
      exact .inl ⟨short, isExpected, rfl⟩
    split
    · rename_i isNewer
      split
      · exact .inr (.inr (.inr rfl))
      rename_i notHeld
      have noCopy : ∀ incoming ∈ channel.reorderBuffer.entries, incoming.sequence ≠ seq := by
        intro incoming member same
        exact notHeld (List.any_eq_true.2 ⟨incoming, member, decide_eq_true same⟩)
      cases filled : channel.reorderBuffer.fillFirst?
          { sequence := seq, payload := ⟨data, short⟩ } with
      | none => exact .inr (.inr (.inl ⟨.queueFull, rfl⟩))
      | some reorderBuffer =>
        exact .inr (.inl ⟨short, reorderBuffer, isNewer, noCopy, filled, rfl⟩)
    exact .inr (.inr (.inr rfl))
  rw [dif_neg short]
  exact .inr (.inr (.inl ⟨_, rfl⟩))

theorem tickRetries_packets :
    (tickRetries maxRetries slots).1.map (Option.map PendingReliablePacket.packet) =
      slots.map (Option.map PendingReliablePacket.packet) := by
  induction slots with
  | nil => rfl
  | cons slot slots ih =>
    rcases slot with _ | pending
    · simp only [tickRetries, map_cons, ih, Option.map_none]
    simp only [tickRetries]
    split
    · split
      · rfl
      simp only [map_cons, ih, Option.map_some, PendingReliablePacket.packet]
    simp only [map_cons, ih, Option.map_some, PendingReliablePacket.packet]

theorem tickRetries_retried : ∀ retried ∈ (tickRetries maxRetries slots).2.1,
      ∃ pending, some pending ∈ slots ∧ pending.packet = retried := by
  induction slots with
  | nil => simp [tickRetries]
  | cons slot slots ih =>
    have later : ∀ retried ∈ (tickRetries maxRetries slots).2.1,
        ∃ pending, some pending ∈ slot :: slots ∧ pending.packet = retried := by
      intro retried member
      obtain ⟨pending, pendingMember, same⟩ := ih retried member
      exact ⟨pending, mem_cons_of_mem slot pendingMember, same⟩
    rcases slot with _ | pending
    · exact later
    simp only [tickRetries]
    split
    · split
      · simp
      intro retried member
      rcases List.mem_cons.1 member with equal | member
      · exact ⟨pending, mem_cons_self, equal.symm⟩
      exact later retried member
    exact later

theorem checkRetransmissions_frame :
    channel.checkRetransmissions.2.2.nextOutgoingSeq = channel.nextOutgoingSeq ∧
      channel.checkRetransmissions.2.2.pendingPackets.entries.map PendingReliablePacket.packet =
        channel.pendingPackets.entries.map PendingReliablePacket.packet ∧
      ∀ retried ∈ channel.checkRetransmissions.2.1,
        ∃ pending ∈ channel.pendingPackets.entries, pending.packet = retried := by
  have packets := congrArg List.reduceOption
    (tickRetries_packets channel.maxRetries channel.pendingPackets.slots)
  rw [reduceOption_map, reduceOption_map] at packets
  have retried := tickRetries_retried channel.maxRetries channel.pendingPackets.slots
  simp only [checkRetransmissions, SlotArray.mem_entries]
  split
  · exact ⟨rfl, rfl, by simp⟩
  split <;> exact ⟨rfl, packets, retried⟩

end ReliableChannel

end Eidolon.Net
