import Eidolon.Library.Run
import Eidolon.Net.Sequencer

/-!
# Agreement on what has arrived

A sender whose packets are carried to a peer, and the peer's acknowledgment reports
that are carried back.  Packets and reports may be lost, reordered and duplicated: an
arrival is that of any packet queued so far, and a report once taken may be processed
at any later time and any number of times.  With a window of at most 32 packets the
sender lets go only of packets that have arrived, as long as the peer reports nothing
before its first arrival.
-/

namespace Eidolon.Net

open Eidolon.Library List UnreliableSequencer

/-- Acknowledgment data on its way back, with the highest number that had arrived when
it was taken. -/
structure AckReport where
  ack : UInt16
  ackBitfield : UInt32
  highest : Nat

/-- The sender with the number of packets it has queued, the peer with the numbers that
have arrived, and the reports taken so far. -/
structure AckSystem (pendingCap orderedCap : Nat) where
  sender : ReliableChannel pendingCap orderedCap
  sent : Nat
  peer : UnreliableSequencer
  arrived : List Nat
  reports : List AckReport

inductive AckInput where
  | queue (data : List UInt8)
  | retransmit
  | setMaxRetries (maxRetries : UInt8)
  | arrive (number : Nat)
  | report
  | acknowledge (position : Nat)

namespace AckSystem

variable {pendingCap orderedCap : Nat}

def start (pendingCap orderedCap : Nat) : AckSystem pendingCap orderedCap where
  sender := .new _ _
  sent := 0
  peer := .new
  arrived := []
  reports := []

def step (system : AckSystem pendingCap orderedCap) : AckInput → AckSystem pendingCap orderedCap
  | .queue data =>
    match system.sender.queueReliableMessage data with
    | (.ok _, sender) => { system with sender := sender, sent := system.sent + 1 }
    | (.error _, sender) => { system with sender := sender }
  | .retransmit => { system with sender := system.sender.checkRetransmissions.2.2 }
  | .setMaxRetries maxRetries => { system with sender := system.sender.setMaxRetries maxRetries }
  | .arrive number =>
    if number < system.sent then
      { system with
        peer := (system.peer.processIncomingSequence (UInt16.ofNat number)).2
        arrived := number :: system.arrived }
    else
      system
  | .report =>
    let (ack, ackBitfield) := system.peer.ackData
    { system with
      reports := system.reports ++
        [{ ack := ack, ackBitfield := ackBitfield, highest := highestOf system.arrived }] }
  | .acknowledge position =>
    match system.reports[position]? with
    | some report =>
      { system with
        sender := system.sender.processRemoteAck report.ack report.ackBitfield }
    | none => system

/-- The sender holds a packet: its sequence is pending, and no later packet of that
sequence has been queued. -/
def Pending (system : AckSystem pendingCap orderedCap) (number : Nat) : Prop :=
  number < system.sent ∧ system.sent ≤ number + 2 ^ 16 ∧
    ∃ pending ∈ system.sender.pendingPackets.entries, pending.sequence = UInt16.ofNat number

/-- Sender and peer agree: only packets that have arrived are no longer pending, and
the acknowledgment data taken right after a pending packet arrives removes it whenever
it is processed. -/
structure Agrees (system : AckSystem pendingCap orderedCap) : Prop where
  removed_arrived : ∀ number < system.sent, ¬ system.Pending number → number ∈ system.arrived
  arrival_removes : ∀ number, system.Pending number →
    ∀ sender : ReliableChannel pendingCap orderedCap,
      ∀ pending ∈ (sender.processRemoteAck (step system (.arrive number)).peer.ackData.1
        (step system (.arrive number)).peer.ackData.2).pendingPackets.entries,
        pending.sequence ≠ UInt16.ofNat number

/-- No copy arrives more than half the sequence space behind the highest one, and no
report is processed once it is almost a whole space old. -/
def WithinSequenceSpace (system : AckSystem pendingCap orderedCap) : AckInput → Prop
  | .arrive number =>
    number < system.sent → system.arrived ≠ [] → highestOf system.arrived ≤ number + 2 ^ 15
  | .acknowledge position =>
    ∀ report, system.reports[position]? = some report → system.sent ≤ report.highest + (2 ^ 16 - 32)
  | _ => True

def ReportsArrivals (system : AckSystem pendingCap orderedCap) : AckInput → Prop
  | .report => system.peer.hasReceivedAny = true
  | _ => True

end AckSystem

namespace ReliableChannel

variable {pendingCap orderedCap : Nat}

theorem oldestOf_some (next : UInt16) (packets : List PendingReliablePacket) (first : UInt16) :
    ∃ oldest, oldestOf next packets (some first, next - first) = (some oldest, next - oldest) ∧
      next - first ≤ next - oldest ∧
      ∀ pending ∈ packets, next - pending.sequence ≤ next - oldest := by
  induction packets generalizing first with
  | nil =>
    exact ⟨first, rfl, UInt16.le_refl _, fun pending member => absurd member not_mem_nil⟩
  | cons pending packets ih =>
    simp only [oldestOf, Option.isNone_some, Bool.false_eq_true, false_or]
    split
    · rename_i older
      obtain ⟨oldest, found, candidate, rest⟩ := ih pending.sequence
      refine ⟨oldest, found, UInt16.le_trans (UInt16.le_of_lt older) candidate, ?_⟩
      intro other member
      rcases List.mem_cons.1 member with equal | member
      · exact equal ▸ candidate
      exact rest other member
    rename_i notOlder
    obtain ⟨oldest, found, candidate, rest⟩ := ih first
    refine ⟨oldest, found, candidate, ?_⟩
    intro other member
    rcases List.mem_cons.1 member with equal | member
    · exact equal ▸ UInt16.le_trans (UInt16.not_lt.1 notOlder) candidate
    exact rest other member

/-- No pending packet is older than the oldest one, and there is one when any is
pending. -/
theorem exists_oldestPendingSeq {channel : ReliableChannel pendingCap orderedCap}
    {pending : PendingReliablePacket} (member : pending ∈ channel.pendingPackets.entries) :
    ∃ oldest, channel.oldestPendingSeq = some oldest ∧
      (channel.nextOutgoingSeq - pending.sequence).toNat ≤
        (channel.nextOutgoingSeq - oldest).toNat := by
  unfold oldestPendingSeq
  rcases packets : channel.pendingPackets.entries with _ | ⟨head, rest⟩
  · rw [packets] at member
    cases member
  obtain ⟨oldest, found, headYounger, restYounger⟩ :=
    oldestOf_some channel.nextOutgoingSeq rest head.sequence
  refine ⟨oldest, by simp [oldestOf, found], UInt16.le_iff_toNat_le.1 ?_⟩
  rw [packets] at member
  rcases List.mem_cons.1 member with equal | member
  · exact equal ▸ headYounger
  exact restYounger pending member

theorem isAcked_iff {ack : UInt16} {ackBitfield : UInt32} {pending : UInt16} :
    isAcked ack ackBitfield pending = true ↔ pending = ack ∨
        (isNewer16 ack pending = true ∧ 0 < (ack - pending).toNat ∧ (ack - pending).toNat ≤ 32 ∧
          bitAt ackBitfield ((ack - pending).toNat - 1) = true) := by
  unfold isAcked
  by_cases same : pending = ack
  · simp [same]
  by_cases isNewer : isNewer16 ack pending = true
  · simp only [same, if_false, false_or, UnreliableSequencer.isSequenceNewer, isNewer, if_true,
      Bool.and_eq_true, decide_eq_true_iff, true_and, and_assoc]
    constructor
    · intro acked
      exact ⟨acked.1, acked.2.1,
        (shiftRight_and_one_ne_zero_iff ackBitfield (by omega)).1 acked.2.2⟩
    intro acked
    exact ⟨acked.1, acked.2.1, (shiftRight_and_one_ne_zero_iff ackBitfield (by omega)).2 acked.2.2⟩
  simp [same, UnreliableSequencer.isSequenceNewer, isNewer]

theorem mem_processRemoteAck {channel : ReliableChannel pendingCap orderedCap} {ack : UInt16}
    {ackBitfield : UInt32} {pending : PendingReliablePacket} :
    pending ∈ (channel.processRemoteAck ack ackBitfield).pendingPackets.entries ↔
      pending ∈ channel.pendingPackets.entries ∧
        isAcked ack ackBitfield pending.sequence = false := by
  simp only [processRemoteAck, SlotArray.entries_mapSlots, mem_filterMap]
  constructor
  · intro kept
    obtain ⟨before, member, same⟩ := kept
    split at same
    · cases same
    rename_i notAcked
    cases same
    exact ⟨member, Bool.eq_false_iff.2 notAcked⟩
  intro kept
  exact ⟨pending, kept.1, by simp [kept.2]⟩

end ReliableChannel

namespace AckSystem

variable {pendingCap orderedCap : Nat}

/-- The pending packets lie in the window, the peer tracks what has arrived, only
arrived packets have left the window, and every report tells of arrivals only. -/
structure Invariant (system : AckSystem pendingCap orderedCap) : Prop where
  next : system.sender.nextOutgoingSeq = UInt16.ofNat system.sent
  window : ∀ pending ∈ system.sender.pendingPackets.entries, ∃ number,
    pending.sequence = UInt16.ofNat number ∧ number < system.sent ∧
      system.sent ≤ number + pendingCap
  tracks : Tracks system.peer system.arrived
  arrivedSent : ∀ number ∈ system.arrived, number < system.sent
  settled : ∀ number < system.sent, ¬ system.Pending number → number ∈ system.arrived
  reported : ∀ report ∈ system.reports,
    report.ack = UInt16.ofNat report.highest ∧ report.highest ∈ system.arrived ∧
      ∀ bit < 32, bitAt report.ackBitfield bit = true →
        ∃ number ∈ system.arrived, number + bit + 1 = report.highest

theorem invariant_start : Invariant (start pendingCap orderedCap) where
  next := rfl
  window pending member := by simp [start, ReliableChannel.new] at member
  tracks := tracks_new
  arrivedSent number member := absurd member not_mem_nil
  settled number sent := absurd sent (Nat.not_lt_zero number)
  reported report member := absurd member not_mem_nil

namespace Invariant

variable {system : AckSystem pendingCap orderedCap} {number : Nat}

section

variable (invariant : Invariant system)
include invariant

section

variable (small : pendingCap ≤ 32)
include small

theorem pending_window (pending : system.Pending number) : system.sent ≤ number + pendingCap := by
  obtain ⟨sent, recent, packet, member, sequence⟩ := pending
  obtain ⟨other, otherSequence, otherSent, otherWindow⟩ := invariant.window packet member
  have same : number = other := by
    rw [← ofNat_eq_ofNat_iff (by omega) (by omega), ← sequence, otherSequence]
  omega

theorem arrival_ahead (sent : number < system.sent) :
    number < highestOf system.arrived + 2 ^ 15 := by
  by_cases early : system.sent ≤ 33
  · omega
  have leftBehind : ¬ system.Pending (system.sent - 33) := by
    intro pending
    have window := invariant.pending_window small pending
    omega
  have arrived := invariant.settled (system.sent - 33) (by omega) leftBehind
  have bounded := le_highestOf arrived
  omega

theorem acked_arrived {report : AckReport} (member : report ∈ system.reports)
    (fresh : system.sent ≤ report.highest + (2 ^ 16 - 32)) (pending : system.Pending number)
    (acked : ReliableChannel.isAcked report.ack report.ackBitfield (UInt16.ofNat number) = true) :
    number ∈ system.arrived := by
  have sent := pending.1
  have window := invariant.pending_window small pending
  obtain ⟨ack, highestArrived, history⟩ := invariant.reported report member
  have highestSent := invariant.arrivedSent report.highest highestArrived
  rw [ReliableChannel.isAcked_iff, ack] at acked
  rcases acked with same | ⟨_, positive, recent, bit⟩
  · rw [ofNat_eq_ofNat_iff (by omega) (by omega)] at same
    exact same ▸ highestArrived
  have distance := toNat_ofNat_sub_ofNat report.highest number
  obtain ⟨earlier, arrived, sum⟩ := history _ (by omega) bit
  have same : earlier = number := by omega
  exact same ▸ arrived

theorem arrival_acked (pending : system.Pending number) :
    ReliableChannel.isAcked (step system (.arrive number)).peer.ackData.1
      (step system (.arrive number)).peer.ackData.2 (UInt16.ofNat number) = true := by
  have sent := pending.1
  have window := invariant.pending_window small pending
  have tracks := invariant.tracks.process (fun nonempty => by
      have highestSent := invariant.arrivedSent _ (highestOf_mem nonempty)
      omega)
    (fun _ => invariant.arrival_ahead small sent)
  have nonempty : number :: system.arrived ≠ [] := cons_ne_nil _ _
  have highest := tracks.highest nonempty
  have highestSent : highestOf (number :: system.arrived) < system.sent := by
    rcases List.mem_cons.1 (highestOf_mem nonempty) with equal | member
    · omega
    exact invariant.arrivedSent _ member
  have notBelow := le_highestOf (@mem_cons_self _ number system.arrived)
  simp only [step, sent, if_true, ackData]
  rw [ReliableChannel.isAcked_iff, highest]
  by_cases isHighest : number = highestOf (number :: system.arrived)
  · exact Or.inl (congrArg UInt16.ofNat isHighest)
  right
  have distance := toNat_ofNat_sub_ofNat (highestOf (number :: system.arrived)) number
  refine ⟨(isNewer16_ofNat_iff (by omega) (by omega)).2 ⟨by omega, by omega⟩,
    by omega, by omega, ?_⟩
  apply (tracks.history nonempty _ (by omega)).2
  exact ⟨number, mem_cons_self, by omega⟩

end

end

theorem agrees (invariant : Invariant system) (small : pendingCap ≤ 32) : Agrees system where
  removed_arrived := invariant.settled
  arrival_removes number pending sender packet member same := by
    have kept := (ReliableChannel.mem_processRemoteAck.1 member).2
    rw [same, invariant.arrival_acked small pending] at kept
    cases kept

section

variable (invariant : Invariant system)
include invariant

theorem queue (small : pendingCap ≤ 32) (data : List UInt8) :
    Invariant (step system (.queue data)) := by
  rcases system.sender.queueReliableMessage_cases data with
    ⟨error, result⟩ | ⟨short, pendingPackets, windowOpen, filled, result⟩
  · simp only [step, result]
    exact invariant
  simp only [step, result]
  have entries := SlotArray.fillFirst?_entries filled
  have hasSlot : 0 < pendingCap := by
    have room := SlotArray.fillFirst?_isSome_iff.1 (Option.isSome_of_eq_some filled)
    omega
  have newWindow : ∀ pending ∈ system.sender.pendingPackets.entries, ∀ number,
      pending.sequence = UInt16.ofNat number → number < system.sent →
      system.sent ≤ number + pendingCap → system.sent + 1 ≤ number + pendingCap := by
    intro pending member number sequence sent window
    obtain ⟨oldest, found, younger⟩ := ReliableChannel.exists_oldestPendingSeq member
    have flight := windowOpen oldest found
    rw [invariant.next, sequence, toNat_ofNat_sub_ofNat, ← invariant.next] at younger
    omega
  refine ⟨?_, ?_, invariant.tracks, ?_, ?_, invariant.reported⟩
  · simp only [invariant.next, ofNat_add_one]
  · intro pending member
    rw [entries.mem_iff, mem_cons] at member
    rcases member with equal | member
    · subst equal
      exact ⟨system.sent, invariant.next, by simp only; omega, by simp only; omega⟩
    obtain ⟨number, sequence, sent, window⟩ := invariant.window pending member
    exact ⟨number, sequence, by simp only; omega,
      newWindow pending member number sequence sent window⟩
  · intro number member
    have sent := invariant.arrivedSent number member
    simp only
    omega
  intro number sent notPending
  simp only at sent
  by_cases newest : number = system.sent
  · exfalso
    apply notPending
    refine ⟨sent, by simp only; omega,
      ReliableChannel.freshPacket system.sender.nextOutgoingSeq ⟨data, short⟩, ?_, ?_⟩
    · exact entries.mem_iff.2 mem_cons_self
    exact newest ▸ invariant.next
  apply invariant.settled number (by omega)
  intro pending
  apply notPending
  have window := invariant.pending_window small pending
  obtain ⟨_, _, packet, member, sequence⟩ := pending
  exact ⟨by omega, by simp only; omega, packet,
    entries.mem_iff.2 (mem_cons_of_mem _ member), sequence⟩

theorem retransmit : Invariant (step system .retransmit) := by
  obtain ⟨sameNext, samePackets, _⟩ := system.sender.checkRetransmissions_frame
  refine ⟨sameNext.trans invariant.next, ?_, invariant.tracks, invariant.arrivedSent, ?_,
    invariant.reported⟩
  · intro ticked member
    have packetMember : ticked.packet ∈
        system.sender.pendingPackets.entries.map PendingReliablePacket.packet :=
      samePackets ▸ mem_map_of_mem member
    obtain ⟨pending, pendingMember, same⟩ := mem_map.1 packetMember
    have sameSequence : pending.sequence = ticked.sequence := congrArg Prod.fst same
    exact sameSequence ▸ invariant.window pending pendingMember
  intro number sent notPending
  apply invariant.settled number sent
  intro pending
  apply notPending
  obtain ⟨_, recent, packet, member, sequence⟩ := pending
  have packetMember : packet.packet ∈
      system.sender.checkRetransmissions.2.2.pendingPackets.entries.map
        PendingReliablePacket.packet :=
    samePackets ▸ mem_map_of_mem member
  obtain ⟨ticked, tickedMember, same⟩ := mem_map.1 packetMember
  have sameSequence : ticked.sequence = packet.sequence := congrArg Prod.fst same
  exact ⟨sent, recent, ticked, tickedMember, sameSequence.trans sequence⟩

theorem arrive (small : pendingCap ≤ 32) (within : WithinSequenceSpace system (.arrive number)) :
    Invariant (step system (.arrive number)) := by
  simp only [step]
  split
  · rename_i sent
    have tracks := invariant.tracks.process (within sent)
      (fun _ => invariant.arrival_ahead small sent)
    refine ⟨invariant.next, invariant.window, tracks, ?_, ?_, ?_⟩
    · intro other member
      rcases List.mem_cons.1 member with equal | member
      · exact equal ▸ sent
      exact invariant.arrivedSent other member
    · intro other otherSent notPending
      exact mem_cons_of_mem number (invariant.settled other otherSent notPending)
    intro report member
    obtain ⟨ack, highest, history⟩ := invariant.reported report member
    refine ⟨ack, mem_cons_of_mem number highest, fun bit inside set => ?_⟩
    obtain ⟨earlier, arrived, sum⟩ := history bit inside set
    exact ⟨earlier, mem_cons_of_mem number arrived, sum⟩
  exact invariant

theorem report (reportsArrivals : ReportsArrivals system .report) :
    Invariant (step system .report) := by
  have nonempty := invariant.tracks.any.1 reportsArrivals
  refine ⟨invariant.next, invariant.window, invariant.tracks, invariant.arrivedSent,
    invariant.settled, fun taken member => ?_⟩
  rcases mem_append.1 member with member | member
  · exact invariant.reported taken member
  rw [mem_singleton.1 member]
  refine ⟨invariant.tracks.highest nonempty, highestOf_mem nonempty, fun bit inside set => ?_⟩
  exact (invariant.tracks.history nonempty bit inside).1 set

theorem acknowledge (small : pendingCap ≤ 32) {position : Nat}
    (within : WithinSequenceSpace system (.acknowledge position)) :
    Invariant (step system (.acknowledge position)) := by
  simp only [step]
  split
  · rename_i report found
    have member : report ∈ system.reports := mem_of_getElem? found
    refine ⟨invariant.next, ?_, invariant.tracks, invariant.arrivedSent, ?_, invariant.reported⟩
    · intro pending kept
      exact invariant.window pending (ReliableChannel.mem_processRemoteAck.1 kept).1
    intro number sent notPending
    by_cases pending : system.Pending number
    · apply invariant.acked_arrived small member (within report found) pending
      rw [← Bool.not_eq_false]
      intro notAcked
      obtain ⟨_, recent, packet, packetMember, sequence⟩ := pending
      apply notPending
      exact ⟨sent, recent, packet,
        ReliableChannel.mem_processRemoteAck.2 ⟨packetMember, sequence ▸ notAcked⟩, sequence⟩
    exact invariant.settled number sent pending
  exact invariant

theorem step (small : pendingCap ≤ 32) {input : AckInput}
    (within : WithinSequenceSpace system input) (reportsArrivals : ReportsArrivals system input) :
    Invariant (step system input) := by
  cases input with
  | queue data => exact invariant.queue small data
  | retransmit => exact invariant.retransmit
  | setMaxRetries maxRetries =>
    exact ⟨invariant.next, invariant.window, invariant.tracks, invariant.arrivedSent,
      invariant.settled, invariant.reported⟩
  | arrive number => exact invariant.arrive small within
  | report => exact invariant.report reportsArrivals
  | acknowledge position => exact invariant.acknowledge small within

end

end Invariant

/-- In every run over a network that keeps within the sequence space, sender and peer
agree in every state, if the peer takes no report before its first arrival. -/
theorem agrees_of_eachStep (small : pendingCap ≤ 32) {inputs : List AckInput}
    (within : EachStep step WithinSequenceSpace (start pendingCap orderedCap) inputs)
    (reportArrivals : EachStep step ReportsArrivals (start pendingCap orderedCap) inputs) :
    Throughout step Agrees (start pendingCap orderedCap) inputs := by
  have always : Throughout step Invariant (start pendingCap orderedCap) inputs := by
    apply throughout_of_eachStep _ _ (within.and reportArrivals)
    · intro system input invariant met
      exact invariant.step small met.1 met.2
    exact invariant_start
  exact always.imp fun _ invariant => invariant.agrees small

/-- Two packets, of which the second arrives first and is reported. -/
def reorderedRun : List AckInput :=
  [.queue [97], .queue [98], .arrive 1, .report, .acknowledge 0, .arrive 0, .report, .acknowledge 1]

theorem agrees_reordered : Throughout step Agrees (start 32 16) reorderedRun := by
  apply agrees_of_eachStep (by decide)
  · refine ⟨trivial, trivial, ?_, trivial, ?_, ?_, trivial, ?_, trivial⟩
    · intro _ nonempty
      exact absurd rfl nonempty
    · intro report taken
      cases taken
      decide
    · intro _ _
      decide
    intro report taken
    cases taken
    decide
  exact ⟨trivial, trivial, trivial, rfl, trivial, trivial, rfl, trivial, trivial⟩

/-- A packet, and a report taken before anything has arrived. -/
def emptyReportRun : List AckInput :=
  [.queue [97], .report, .acknowledge 0]

/-- The peer that has received nothing acknowledges packet zero. -/
theorem disagrees_of_emptyReport : EachStep step WithinSequenceSpace (start 32 16) emptyReportRun ∧
      ¬ Throughout step Agrees (start 32 16) emptyReportRun := by
  constructor
  · refine ⟨trivial, trivial, ?_, trivial⟩
    intro report taken
    cases taken
    decide
  intro always
  have arrived := always.run.removed_arrived 0 (by decide)
  have notPending : ¬ (run step (start 32 16) emptyReportRun).Pending 0 := by
    intro pending
    obtain ⟨_, _, packet, member, _⟩ := pending
    cases member
  exact absurd (arrived notPending) not_mem_nil

end AckSystem

end Eidolon.Net
