import Mathlib.Data.UInt
import Eidolon.Library.Ring
import Eidolon.Library.Run
import Eidolon.Net.Auth

/-!
# Submission and completion rings

The rings of submissions and of completions have counters of their own, which wrap at the
width of a word; a submission at a slot uses the payload buffer of that slot.
-/

namespace Eidolon.Net

open List Option

def packetBufferSize : Nat := 1500

def ioringOpRecvmsg : UInt8 := 10

def ioringOpSendmsg : UInt8 := 9

inductive IoUringError where
  | submissionQueueFull
  | completionQueueFull
  | packetTooLarge (len : Nat)
  | invalidConfiguration
  deriving DecidableEq

structure IoUringSqEntry where
  opcode : UInt8
  flags : UInt8
  userData : UInt64
  bufferIdx : UInt32
  len : UInt32
  deriving DecidableEq, Inhabited

structure IoUringCqEntry where
  userData : UInt64
  res : Int32
  flags : UInt32
  deriving DecidableEq, Inhabited

structure IoUringRingBuffer (capacity : Nat) where
  sq : List IoUringSqEntry
  cq : List IoUringCqEntry
  buffers : List (FixedBytes packetBufferSize)
  sqHead : UInt64
  sqTail : UInt64
  cqHead : UInt64
  cqTail : UInt64

def FixedBytes.overwrite {length : Nat} (buffer : FixedBytes length) (payload : List UInt8)
    (fits : payload.length ≤ length) : FixedBytes length :=
  ⟨payload ++ buffer.val.drop payload.length, by
    rw [length_append, length_drop, buffer.property]
    omega⟩

namespace IoUringRingBuffer

variable {capacity : Nat}

/-- Empty rings; allocation fails for more bytes of buffers than an address can count. -/
def new (capacity : Nat) : Option (IoUringRingBuffer capacity) :=
  if capacity * packetBufferSize < 2 ^ 63 then
    some
      { sq := List.replicate capacity default
        cq := List.replicate (capacity * 2) default
        buffers := List.replicate capacity (FixedBytes.replicate packetBufferSize 0)
        sqHead := 0
        sqTail := 0
        cqHead := 0
        cqTail := 0 }
  else none

variable (ring : IoUringRingBuffer capacity) (userData : UInt64)

def submitRecv : Except IoUringError Nat × IoUringRingBuffer capacity :=
  if capacity ≤ (ring.sqTail - ring.sqHead).toNat then
    (.error .submissionQueueFull, ring)
  else
    let idx := ring.sqTail.toNat % capacity
    let entry : IoUringSqEntry :=
      { opcode := ioringOpRecvmsg
        flags := 0
        userData := userData
        bufferIdx := UInt32.ofNat idx
        len := UInt32.ofNat packetBufferSize }
    (.ok idx, { ring with sq := ring.sq.set idx entry, sqTail := ring.sqTail + 1 })

def sendEntry (idx len : Nat) : IoUringSqEntry where
  opcode := ioringOpSendmsg
  flags := 0
  userData := userData
  bufferIdx := UInt32.ofNat idx
  len := UInt32.ofNat len

def submitSend (payload : List UInt8) : Except IoUringError Nat × IoUringRingBuffer capacity :=
  if fits : payload.length ≤ packetBufferSize then
    if capacity ≤ (ring.sqTail - ring.sqHead).toNat then
      (.error .submissionQueueFull, ring)
    else
      let idx := ring.sqTail.toNat % capacity
      (.ok idx,
        { ring with
          buffers := ring.buffers.modify idx fun buffer => buffer.overwrite payload fits
          sq := ring.sq.set idx (sendEntry userData idx payload.length)
          sqTail := ring.sqTail + 1 })
  else
    (.error (.packetTooLarge payload.length), ring)

/-- The serializer writes into the buffer of the slot, also where it fails. -/
def submitDirectSend (serializer : FixedBytes packetBufferSize →
      Except IoUringError Nat × FixedBytes packetBufferSize) :
    Except IoUringError (Nat × Nat) × IoUringRingBuffer capacity :=
  if capacity ≤ (ring.sqTail - ring.sqHead).toNat then
    (.error .submissionQueueFull, ring)
  else
    let idx := ring.sqTail.toNat % capacity
    match ring.buffers[idx]? with
    -- a slot outside of the buffers, where the source panics
    | none => (.error .invalidConfiguration, ring)
    | some buffer =>
      let buffers := ring.buffers.set idx (serializer buffer).2
      match (serializer buffer).1 with
      | .error error => (.error error, { ring with buffers := buffers })
      | .ok written =>
        if packetBufferSize < written then
          (.error (.packetTooLarge written), { ring with buffers := buffers })
        else
          (.ok (idx, written),
            { ring with
              buffers := buffers
              sq := ring.sq.set idx (sendEntry userData idx written)
              sqTail := ring.sqTail + 1 })

def complete (result : Int32) (flags : UInt32) :
    Except IoUringError Unit × IoUringRingBuffer capacity :=
  let cqCap := capacity * 2
  if cqCap ≤ (ring.cqTail - ring.cqHead).toNat then
    (.error .completionQueueFull, ring)
  else
    let idx := ring.cqTail.toNat % cqCap
    (.ok (),
      { ring with
        cq := ring.cq.set idx { userData := userData, res := result, flags := flags }
        cqTail := ring.cqTail + 1 })

/-- Copies completions into the first entries of a buffer; returns how many. -/
def pollCompletions (out : List IoUringCqEntry) :
    Nat × List IoUringCqEntry × IoUringRingBuffer capacity :=
  let cqCap := capacity * 2
  let available := (ring.cqTail - ring.cqHead).toNat
  let count := min available out.length
  let polled := (List.range count).map fun i =>
    ring.cq.getD ((ring.cqHead + UInt64.ofNat i).toNat % cqCap) default
  (count, polled ++ out.drop count, { ring with cqHead := ring.cqHead + UInt64.ofNat count })

end IoUringRingBuffer

end Eidolon.Net

/-!
## Runs of the submission and completion rings

Nothing moves the head of the submission ring, so that only the first submissions are
accepted, as many as the ring has slots. Completions pass through their ring in order while
none is written over one that waits.
-/

namespace Eidolon.Net

open Library List Option

variable {capacity : Nat}

inductive SubmitCall where
  | recv (userData : UInt64)
  | send (userData : UInt64) (payload : List UInt8)
  | directSend (userData : UInt64) (serializer : FixedBytes packetBufferSize →
      Except IoUringError Nat × FixedBytes packetBufferSize)

inductive RingCall where
  | submit (call : SubmitCall)
  | complete (userData : UInt64) (result : Int32) (flags : UInt32)
  | pollCompletions (out : List IoUringCqEntry)

namespace IoUringRingBuffer

def submit (ring : IoUringRingBuffer capacity) :
    SubmitCall → Except IoUringError Nat × IoUringRingBuffer capacity
  | .recv userData => ring.submitRecv userData
  | .send userData payload => ring.submitSend userData payload
  | .directSend userData serializer =>
    ((ring.submitDirectSend userData serializer).1.map Prod.fst,
      (ring.submitDirectSend userData serializer).2)

/-- The payload is no longer than a buffer. -/
def Fits (ring : IoUringRingBuffer capacity) : SubmitCall → Prop
  | .recv _ => True
  | .send _ payload => payload.length ≤ packetBufferSize
  | .directSend _ serializer =>
    ∀ buffer, ring.buffers[ring.sqTail.toNat % capacity]? = some buffer →
      ∃ written, (serializer buffer).1 = .ok written ∧ written ≤ packetBufferSize

variable (ring : IoUringRingBuffer capacity)

def pending : List IoUringCqEntry :=
  (List.range (ring.cqTail - ring.cqHead).toNat).map fun i =>
    ring.cq.getD ((ring.cqHead + UInt64.ofNat i).toNat % (capacity * 2)) default

def SlotFree : Prop :=
  (ring.cqTail - ring.cqHead).toNat < capacity * 2 → ∀ i < (ring.cqTail - ring.cqHead).toNat,
      (ring.cqHead + UInt64.ofNat i).toNat % (capacity * 2) ≠ ring.cqTail.toNat % (capacity * 2)

end IoUringRingBuffer

/-- An accepted submission: its slot and what the buffer of the slot held then. -/
structure Submission where
  idx : Nat
  buffer : Option (FixedBytes packetBufferSize)

structure RingLog (capacity : Nat) where
  ring : IoUringRingBuffer capacity
  submissions : List Submission
  accepted : List IoUringCqEntry
  delivered : List IoUringCqEntry

namespace RingLog

def start (ring : IoUringRingBuffer capacity) : RingLog capacity where
  ring := ring
  submissions := []
  accepted := []
  delivered := []

def step (log : RingLog capacity) : RingCall → RingLog capacity
  | .submit call =>
    match log.ring.submit call with
    | (.ok idx, ring) =>
      { log with
        ring := ring
        submissions := log.submissions ++ [⟨idx, ring.buffers[idx]?⟩] }
    | (.error _, ring) => { log with ring := ring }
  | .complete userData result flags =>
    match log.ring.complete userData result flags with
    | (.ok (), ring) =>
      { log with
        ring := ring
        accepted := log.accepted ++ [⟨userData, result, flags⟩] }
    | (.error _, ring) => { log with ring := ring }
  | .pollCompletions out =>
    let (count, polled, ring) := log.ring.pollCompletions out
    { log with ring := ring, delivered := log.delivered ++ polled.take count }

/-- No submission is written over, and no completion is lost. -/
structure Sound (log : RingLog capacity) : Prop where
  intact : ∀ submission ∈ log.submissions, ∃ buffer, submission.buffer = some buffer ∧
    log.ring.buffers[submission.idx]? = some buffer
  apart : (log.submissions.map Submission.idx).Nodup
  inOrder : log.delivered ++ log.ring.pending = log.accepted

/-- What a call should do: below the capacity of submissions in flight one more is not
refused, and a poll takes the first completions that wait. -/
def Behaves (log : RingLog capacity) : RingCall → Prop
  | .submit call =>
    log.submissions.length < capacity + log.accepted.length → log.ring.Fits call →
      (log.ring.submit call).1 ≠ .error .submissionQueueFull
  | .complete _ _ _ => True
  | .pollCompletions out =>
    let count := min log.ring.pending.length out.length
    (log.ring.pollCompletions out).1 = count ∧
      (log.ring.pollCompletions out).2.1 = log.ring.pending.take count ++ out.drop count

/-- The submission is one of the first, or none has been completed; the completion is not
written over one that waits. -/
def Meets (log : RingLog capacity) : RingCall → Prop
  | .submit call => log.ring.Fits call →
      log.submissions.length < capacity ∨ log.accepted = []
  | .complete _ _ _ => log.ring.SlotFree
  | .pollCompletions _ => True

structure Submitted (log : RingLog capacity) : Prop where
  small : capacity * packetBufferSize < 2 ^ 63
  head : log.ring.sqHead = 0
  tail : log.ring.sqTail.toNat = log.submissions.length
  bound : log.submissions.length ≤ capacity
  size : log.ring.buffers.length = capacity
  slots : log.submissions.map Submission.idx = List.range log.submissions.length
  intact : ∀ submission ∈ log.submissions, ∃ buffer, submission.buffer = some buffer ∧
    log.ring.buffers[submission.idx]? = some buffer

end RingLog

namespace IoUringRingBuffer

/-- What a submission does to the rings: it takes the slot at the tail and touches no other
buffer, or leaves the tail. -/
structure SubmitEffect (before after : IoUringRingBuffer capacity)
    (result : Except IoUringError Nat) : Prop where
  head : after.sqHead = before.sqHead
  completions : after.cq = before.cq ∧ after.cqHead = before.cqHead ∧
    after.cqTail = before.cqTail
  size : after.buffers.length = before.buffers.length
  others : ∀ other ≠ before.sqTail.toNat % capacity,
    after.buffers[other]? = before.buffers[other]?
  accepted : ∀ idx, result = .ok idx → ¬ capacity ≤ (before.sqTail - before.sqHead).toNat ∧
    idx = before.sqTail.toNat % capacity ∧ after.sqTail = before.sqTail + 1
  refused : ∀ error, result = .error error → after.sqTail = before.sqTail ∧
    (capacity ≤ (before.sqTail - before.sqHead).toNat → after.buffers = before.buffers)

theorem submit_effect (ring : IoUringRingBuffer capacity) (call : SubmitCall) :
    SubmitEffect ring (ring.submit call).2 (ring.submit call).1 := by
  have kept : ∀ error, SubmitEffect ring ring (.error error) := by
    intro error
    refine ⟨rfl, ⟨rfl, rfl, rfl⟩, rfl, fun _ _ => rfl, ?_, fun _ _ => ⟨rfl, fun _ => rfl⟩⟩
    intro idx isOk
    cases isOk
  cases call with
  | recv userData =>
    rw [submit, submitRecv]
    split
    · exact kept _
    rename_i room
    refine ⟨rfl, ⟨rfl, rfl, rfl⟩, rfl, fun _ _ => rfl, ?_, ?_⟩
    · rintro idx ⟨⟩
      exact ⟨room, rfl, rfl⟩
    intro error isError
    cases isError
  | send userData payload =>
    rw [submit, submitSend]
    split
    · split
      · exact kept _
      rename_i room
      refine ⟨rfl, ⟨rfl, rfl, rfl⟩, length_modify .., ?_, ?_, ?_⟩
      · intro other elsewhere
        rw [List.getElem?_modify_ne _ _ (Ne.symm elsewhere)]
      · rintro idx ⟨⟩
        exact ⟨room, rfl, rfl⟩
      intro error isError
      cases isError
    exact kept _
  | directSend userData serializer =>
    rw [submit, submitDirectSend]
    split
    · exact kept _
    rename_i room
    dsimp only
    split
    · exact kept _
    rename_i buffer _
    have others : ∀ (written : FixedBytes packetBufferSize) (other : Nat),
        other ≠ ring.sqTail.toNat % capacity →
          (ring.buffers.set (ring.sqTail.toNat % capacity) written)[other]? =
            ring.buffers[other]? :=
      fun _ _ elsewhere => List.getElem?_set_ne (Ne.symm elsewhere)
    -- a serializer that fails has written into the buffer of a slot that is free
    have failed : ∀ error, SubmitEffect ring
        { ring with
          buffers := ring.buffers.set (ring.sqTail.toNat % capacity)
            (serializer buffer).2 } (.error error) := by
      intro error
      refine ⟨rfl, ⟨rfl, rfl, rfl⟩, length_set, others _, ?_,
        fun _ _ => ⟨rfl, fun full => absurd full room⟩⟩
      intro idx isOk
      cases isOk
    split
    · exact failed _
    split
    · exact failed _
    refine ⟨rfl, ⟨rfl, rfl, rfl⟩, length_set, others _, ?_, ?_⟩
    · rintro idx ⟨⟩
      exact ⟨room, rfl, rfl⟩
    intro error isError
    cases isError

theorem submit_full_iff {ring : IoUringRingBuffer capacity} {call : SubmitCall}
    (size : ring.buffers.length = capacity) (fits : ring.Fits call) :
    (ring.submit call).1 = .error .submissionQueueFull ↔
      capacity ≤ (ring.sqTail - ring.sqHead).toNat := by
  by_cases full : capacity ≤ (ring.sqTail - ring.sqHead).toNat
  · refine iff_of_true ?_ full
    cases call with
    | recv userData => rw [submit, submitRecv, if_pos full]
    | send userData payload =>
      have short : payload.length ≤ packetBufferSize := fits
      rw [submit, submitSend, dif_pos short, if_pos full]
    | directSend userData serializer =>
      rw [submit, submitDirectSend, if_pos full]
      rfl
  refine iff_of_false ?_ full
  intro isFull
  cases call with
  | recv userData =>
    rw [submit, submitRecv, if_neg full] at isFull
    cases isFull
  | send userData payload =>
    have short : payload.length ≤ packetBufferSize := fits
    rw [submit, submitSend, dif_pos short, if_neg full] at isFull
    cases isFull
  | directSend userData serializer =>
    have positive : 0 < capacity := by omega
    have inside : ring.sqTail.toNat % capacity < ring.buffers.length := by
      rw [size]
      exact Nat.mod_lt _ positive
    have held := List.getElem?_eq_getElem inside
    obtain ⟨written, isWritten, small⟩ := fits _ held
    rw [submit, submitDirectSend, if_neg full] at isFull
    simp only [held, isWritten, if_neg (Nat.not_lt.mpr small)] at isFull
    cases isFull

end IoUringRingBuffer

namespace RingLog

variable {log : RingLog capacity}

theorem Submitted.distance (submitted : log.Submitted) :
    (log.ring.sqTail - log.ring.sqHead).toNat = log.submissions.length := by
  rw [submitted.head, UInt64.sub_zero, submitted.tail]

theorem Submitted.idx_lt (submitted : log.Submitted) {submission : Submission}
    (there : submission ∈ log.submissions) : submission.idx < log.submissions.length := by
  have mapped : submission.idx ∈ log.submissions.map Submission.idx :=
    List.mem_map_of_mem there
  rw [submitted.slots, mem_range] at mapped
  exact mapped

theorem Submitted.submit (submitted : log.Submitted) (call : SubmitCall) :
    (log.step (.submit call)).Submitted := by
  have effect := log.ring.submit_effect call
  have distance := submitted.distance
  have small := submitted.small
  rw [packetBufferSize] at small
  have bound := submitted.bound
  rw [step]
  generalize log.ring.submit call = outcome at *
  obtain ⟨result, ring⟩ := outcome
  cases result with
  | error error =>
    obtain ⟨sameTail, sameBuffers⟩ := effect.refused error rfl
    refine ⟨submitted.small, effect.head.trans submitted.head, ?_, bound,
      effect.size.trans submitted.size, submitted.slots, ?_⟩
    · rw [sameTail]
      exact submitted.tail
    intro submission there
    obtain ⟨buffer, isBuffer, held⟩ := submitted.intact submission there
    refine ⟨buffer, isBuffer, ?_⟩
    by_cases full : capacity ≤ (log.ring.sqTail - log.ring.sqHead).toNat
    · rw [sameBuffers full]
      exact held
    have before := submitted.idx_lt there
    rw [effect.others]
    · exact held
    rw [submitted.tail, Nat.mod_eq_of_lt (by omega)]
    omega
  | ok idx =>
    obtain ⟨room, isIdx, nextTail⟩ := effect.accepted idx rfl
    have below : log.submissions.length < capacity := by omega
    rw [submitted.tail, Nat.mod_eq_of_lt below] at isIdx
    have inside : idx < ring.buffers.length := by
      rw [effect.size, submitted.size, isIdx]
      exact below
    refine ⟨submitted.small, effect.head.trans submitted.head, ?_, ?_,
      effect.size.trans submitted.size, ?_, ?_⟩
    · rw [nextTail, length_append, UInt64.toNat_add, submitted.tail]
      change (log.submissions.length + 1) % 2 ^ 64 = log.submissions.length + 1
      omega
    · rw [length_append, length_singleton]
      omega
    · rw [map_append, submitted.slots, length_append, length_singleton, range_succ, isIdx]
      rfl
    intro submission there
    rcases List.mem_append.mp there with earlier | new
    · obtain ⟨buffer, isBuffer, held⟩ := submitted.intact submission earlier
      have before := submitted.idx_lt earlier
      refine ⟨buffer, isBuffer, ?_⟩
      rw [effect.others]
      · exact held
      rw [submitted.tail, Nat.mod_eq_of_lt below]
      omega
    rw [mem_singleton] at new
    rw [new]
    exact ⟨_, List.getElem?_eq_getElem inside, List.getElem?_eq_getElem inside⟩

structure Completed (log : RingLog capacity) : Prop where
  small : capacity * packetBufferSize < 2 ^ 63
  size : log.ring.cq.length = capacity * 2
  head : log.ring.cqHead.toNat = log.delivered.length % 2 ^ 64
  tail : log.ring.cqTail.toNat = log.accepted.length % 2 ^ 64
  delivered : log.delivered <+: log.accepted
  room : log.accepted.length ≤ log.delivered.length + capacity * 2
  waiting : ∀ number, log.delivered.length ≤ number → number < log.accepted.length →
    log.ring.cq[number % 2 ^ 64 % (capacity * 2)]? = log.accepted[number]?

section

variable (completed : log.Completed)
include completed

theorem Completed.distance :
    (log.ring.cqTail - log.ring.cqHead).toNat = log.accepted.length - log.delivered.length := by
  have small := completed.small
  have room := completed.room
  have ordered := completed.delivered.length_le
  rw [packetBufferSize] at small
  rw [UInt64.toNat_sub, completed.head, completed.tail]
  omega

theorem Completed.place (i : Nat) :
    (log.ring.cqHead + UInt64.ofNat i).toNat = (log.delivered.length + i) % 2 ^ 64 := by
  rw [UInt64.toNat_add, UInt64.toNat_ofNat', completed.head]
  omega

theorem Completed.pending_eq : log.ring.pending = log.accepted.drop log.delivered.length := by
  apply ext_getElem?
  intro i
  rw [IoUringRingBuffer.pending, completed.distance, List.getElem?_map, List.getElem?_drop]
  by_cases waits : i < log.accepted.length - log.delivered.length
  · have inside : log.delivered.length + i < log.accepted.length := by omega
    rw [List.getElem?_range waits, map_some, completed.place,
      getD_eq_getElem?_getD, completed.waiting _ (Nat.le_add_right _ _) inside,
      List.getElem?_eq_getElem inside, getD_some]
  rw [List.getElem?_eq_none (by rw [length_range]; omega), List.getElem?_eq_none (by omega)]
  rfl

theorem Completed.inOrder : log.delivered ++ log.ring.pending = log.accepted := by
  rw [completed.pending_eq]
  exact List.prefix_iff_eq_append.mp completed.delivered

theorem Completed.complete (free : log.ring.SlotFree) (userData : UInt64) (result : Int32)
    (flags : UInt32) :
    (log.step (.complete userData result flags)).Completed := by
  have distance := completed.distance
  rw [step, IoUringRingBuffer.complete]
  by_cases full : capacity * 2 ≤ (log.ring.cqTail - log.ring.cqHead).toNat
  · simp only [if_pos full]
    exact completed
  simp only [if_neg full]
  have notFull : (log.ring.cqTail - log.ring.cqHead).toNat < capacity * 2 := by omega
  have positive : 0 < capacity * 2 := by omega
  have inside : log.accepted.length % 2 ^ 64 % (capacity * 2) < log.ring.cq.length := by
    rw [completed.size]
    exact Nat.mod_lt _ positive
  refine ⟨completed.small, ?_, completed.head, ?_, ?_, ?_, ?_⟩
  · rw [length_set]
    exact completed.size
  · rw [length_append, UInt64.toNat_add, completed.tail]
    exact Nat.mod_add_mod _ _ _
  · exact completed.delivered.trans (prefix_append _ _)
  · dsimp only
    rw [length_append, length_singleton]
    omega
  intro number notDelivered isAccepted
  dsimp only at notDelivered isAccepted ⊢
  rw [length_append, length_singleton] at isAccepted
  rw [completed.tail]
  by_cases isNew : number = log.accepted.length
  · rw [isNew, List.getElem?_set_self inside, List.getElem?_append_right (Nat.le_refl _),
      Nat.sub_self, List.getElem?_cons_zero]
  have other := free notFull (number - log.delivered.length) (by omega)
  rw [completed.place, completed.tail, Nat.add_sub_cancel' notDelivered] at other
  rw [List.getElem?_set_ne (Ne.symm other), List.getElem?_append_left (by omega)]
  exact completed.waiting number notDelivered (by omega)

end

theorem pollCompletions_eq (ring : IoUringRingBuffer capacity) (out : List IoUringCqEntry) :
    ring.pollCompletions out = (min ring.pending.length out.length,
        ring.pending.take (min ring.pending.length out.length) ++
          out.drop (min ring.pending.length out.length),
        { ring with
          cqHead := ring.cqHead + UInt64.ofNat (min ring.pending.length out.length) }) := by
  have length : ring.pending.length = (ring.cqTail - ring.cqHead).toNat := by
    rw [IoUringRingBuffer.pending, length_map, length_range]
  rw [length, IoUringRingBuffer.pollCompletions, IoUringRingBuffer.pending,
    ← map_take, take_range, Nat.min_eq_left (Nat.min_le_left _ _)]

theorem step_pollCompletions (log : RingLog capacity) (out : List IoUringCqEntry) :
    log.step (.pollCompletions out) =
      { log with
        ring :=
          { log.ring with
            cqHead := log.ring.cqHead + UInt64.ofNat (min log.ring.pending.length out.length) }
        delivered := log.delivered ++
          log.ring.pending.take (min log.ring.pending.length out.length) } := by
  have copied : (log.ring.pending.take (min log.ring.pending.length out.length)).length =
      min log.ring.pending.length out.length := by
    rw [length_take, Nat.min_eq_left (Nat.min_le_left _ _)]
  rw [step, pollCompletions_eq]
  dsimp only
  rw [take_left' copied]

theorem Completed.poll (completed : log.Completed) (out : List IoUringCqEntry) :
    (log.step (.pollCompletions out)).Completed := by
  have room := completed.room
  rw [step_pollCompletions]
  generalize isCount : min log.ring.pending.length out.length = count
  have enough : count ≤ log.ring.pending.length := by
    rw [← isCount]
    exact Nat.min_le_left _ _
  have length : (log.delivered ++ log.ring.pending.take count).length =
      log.delivered.length + count := by
    rw [length_append, length_take, Nat.min_eq_left enough]
  refine ⟨completed.small, completed.size, ?_, completed.tail, ?_, ?_, ?_⟩
  · rw [length]
    exact completed.place count
  · obtain ⟨rest, isRest⟩ : log.ring.pending.take count <+: log.ring.pending :=
      take_prefix _ _
    refine ⟨rest, ?_⟩
    rw [append_assoc, isRest]
    exact completed.inOrder
  · dsimp only
    omega
  intro number notDelivered isAccepted
  dsimp only at notDelivered
  exact completed.waiting number (by omega) isAccepted

theorem Completed.submit (completed : log.Completed) (call : SubmitCall) :
    (log.step (.submit call)).Completed := by
  obtain ⟨sameCq, sameHead, sameTail⟩ := (log.ring.submit_effect call).completions
  have small := completed.small
  rw [step]
  generalize log.ring.submit call = outcome at *
  obtain ⟨result, ring⟩ := outcome
  have moved : ∀ submissions, Completed { log with ring := ring, submissions := submissions } := by
    intro submissions
    refine ⟨small, ?_, ?_, ?_, completed.delivered, completed.room, ?_⟩
    · rw [sameCq]
      exact completed.size
    · rw [sameHead]
      exact completed.head
    · rw [sameTail]
      exact completed.tail
    rw [sameCq]
    exact completed.waiting
  cases result with
  | error error => exact moved log.submissions
  | ok idx => exact moved _

/-- What every run keeps. -/
structure Kept (log : RingLog capacity) : Prop where
  submitted : log.Submitted
  completed : log.Completed

theorem kept_start {ring : IoUringRingBuffer capacity}
    (started : IoUringRingBuffer.new capacity = some ring) : (start ring).Kept := by
  rw [IoUringRingBuffer.new] at started
  split at started
  · rename_i small
    rw [some.injEq] at started
    rw [← started]
    refine ⟨⟨small, rfl, rfl, Nat.zero_le _, length_replicate, rfl, ?_⟩,
      ⟨small, length_replicate, rfl, rfl, prefix_refl _, Nat.zero_le _, ?_⟩⟩
    · intro submission there
      cases there
    intro number _ accepted
    cases accepted
  cases started

theorem Kept.sound (kept : log.Kept) : log.Sound := by
  refine ⟨kept.submitted.intact, ?_, kept.completed.inOrder⟩
  rw [kept.submitted.slots]
  exact nodup_range

/-- A submission of a payload that fits is refused wrongly exactly where a completion was
accepted and all slots have been used once. -/
theorem Kept.behaves_submit_iff (kept : log.Kept) (call : SubmitCall) :
    log.Behaves (.submit call) ↔ log.Meets (.submit call) := by
  have bound := kept.submitted.bound
  constructor
  · intro behaves fits
    by_contra notMet
    rw [not_or] at notMet
    have some : 0 < log.accepted.length := List.length_pos_iff.mpr notMet.2
    apply behaves (by omega) fits
    rw [IoUringRingBuffer.submit_full_iff kept.submitted.size fits, kept.submitted.distance]
    omega
  intro meets inFlight fits isFull
  rw [IoUringRingBuffer.submit_full_iff kept.submitted.size fits, kept.submitted.distance] at isFull
  rcases meets fits with below | none
  · omega
  rw [none, length_nil] at inFlight
  omega

theorem Kept.behaves (kept : log.Kept) {call : RingCall} (meets : log.Meets call) :
    log.Behaves call := by
  cases call with
  | submit call => exact (kept.behaves_submit_iff call).mpr meets
  | complete userData result flags => trivial
  | pollCompletions out =>
    rw [Behaves, pollCompletions_eq]
    exact ⟨rfl, rfl⟩

theorem Kept.step (kept : log.Kept) {call : RingCall} (meets : log.Meets call) :
    (log.step call).Kept := by
  have submitted := kept.submitted
  cases call with
  | submit call => exact ⟨kept.submitted.submit call, kept.completed.submit call⟩
  | complete userData result flags =>
    refine ⟨?_, kept.completed.complete meets userData result flags⟩
    rw [RingLog.step, IoUringRingBuffer.complete]
    split
    · rename_i accepted
      split at accepted
      · cases accepted
      cases accepted
      exact ⟨submitted.small, submitted.head, submitted.tail, submitted.bound,
        submitted.size, submitted.slots, submitted.intact⟩
    rename_i refused
    split at refused
    · cases refused
      exact submitted
    cases refused
  | pollCompletions out =>
    refine ⟨?_, kept.completed.poll out⟩
    exact ⟨submitted.small, submitted.head, submitted.tail, submitted.bound,
      submitted.size, submitted.slots, submitted.intact⟩

/-- In a run whose submissions are the first ones, or before any completion, none is refused
wrongly; no payload is written over, and completions are delivered once and in order. -/
theorem submissionsKept {ring : IoUringRingBuffer capacity}
    (started : IoUringRingBuffer.new capacity = some ring) {calls : List RingCall}
    (met : EachStep step Meets (start ring) calls) :
    Throughout step Sound (start ring) calls ∧ EachStep step Behaves (start ring) calls ∧
      ∀ out : List IoUringCqEntry, capacity * 2 ≤ out.length →
        (run step (start ring) (calls ++ [.pollCompletions out])).delivered =
          (run step (start ring) calls).accepted := by
  have preserved : ∀ (log : RingLog capacity) (call : RingCall),
      log.Kept → log.Meets call → (log.step call).Kept :=
    fun _ _ kept meets => kept.step meets
  have kept : Throughout step Kept (start ring) calls :=
    throughout_of_eachStep preserved (kept_start started) met
  refine ⟨kept.imp fun _ now => now.sound, ?_, ?_⟩
  · exact eachStep_of_invariant preserved (fun _ _ now meets => now.behaves meets)
      (kept_start started) met
  intro out enough
  have reached := kept.run
  have room := reached.completed.room
  have all : (run step (start ring) calls).ring.pending.length ≤ out.length := by
    rw [reached.completed.pending_eq, length_drop]
    omega
  rw [run_append, run_cons, step_pollCompletions, Nat.min_eq_left all, take_length]
  exact reached.completed.inOrder

/-- Both slots are used, and one of the submissions is completed. -/
theorem submissionsKept_two : ∃ ring : IoUringRingBuffer 2, IoUringRingBuffer.new 2 = some ring ∧
      Throughout step Sound (start ring)
        [.submit (.recv 1), .submit (.send 2 [7, 8]), .complete 1 512 0,
          .pollCompletions [default]] ∧
      EachStep step Behaves (start ring)
        [.submit (.recv 1), .submit (.send 2 [7, 8]), .complete 1 512 0,
          .pollCompletions [default]] ∧
      ∀ out : List IoUringCqEntry, 2 * 2 ≤ out.length → (run step (start ring)
          ([.submit (.recv 1), .submit (.send 2 [7, 8]), .complete 1 512 0,
            .pollCompletions [default]] ++ [.pollCompletions out])).delivered =
          (run step (start ring) [.submit (.recv 1), .submit (.send 2 [7, 8]), .complete 1 512 0,
              .pollCompletions [default]]).accepted := by
  refine ⟨_, if_pos (by decide), submissionsKept (if_pos (by decide)) ?_⟩
  refine ⟨fun _ => Or.inr rfl, fun _ => Or.inr rfl, ?_, trivial, trivial⟩
  intro _ i waits
  exact absurd waits (Nat.not_lt_zero i)

/-- The only slot is not used again, though its submission was completed. -/
theorem not_submissionsKept : ¬ ∀ ring : IoUringRingBuffer 1, IoUringRingBuffer.new 1 = some ring →
      ∀ calls, EachStep step Behaves (start ring) calls := by
  intro always
  obtain ⟨-, -, third, -⟩ := always _ (if_pos (by decide))
    [.submit (.recv 1), .complete 1 512 0, .submit (.recv 2)]
  exact third Nat.one_lt_two trivial rfl

end RingLog

end Eidolon.Net
