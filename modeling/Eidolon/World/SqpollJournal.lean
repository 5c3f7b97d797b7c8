import Eidolon.Library.Holdings
import Eidolon.Library.Run
import Eidolon.World.Wal

/-!
# The double-buffered journal queue

Threads push records into the active one of two buffers, and flushers swap the buffers and
write what they have drained.  Each thread is at a point of its code, and one step of the
queue is one atomic access of one thread: to an atomic counter, to a buffer under its lock,
or to the writer, whose answers are inputs.  A lock is never poisoned, as no code panics
while it has one.
-/

namespace Eidolon.World

open Function Library List

def journalBufferCapacity : Nat := 2048

structure StampedWalRecord where
  sequence : UInt64
  record : WalRecord
  deriving DecidableEq

inductive PushState where
  | idle
  /-- It has loaded the index and is about to lock the buffer. -/
  | waiting (bufIdx : Fin 2) (record : WalRecord)
  /-- It has the lock and is about to load the index again. -/
  | holding (bufIdx : Fin 2) (record : WalRecord)
  /-- The index is right and the buffer has room. -/
  | admitted (bufIdx : Fin 2) (record : WalRecord)
  /-- The record has its sequence number and is about to be put into the buffer. -/
  | stamped (bufIdx : Fin 2) (stampedRecord : StampedWalRecord)

inductive FlushState where
  | idle
  /-- It has loaded the index. -/
  | loaded (oldIdx : Fin 2)
  /-- It has switched the active buffer and is about to drain the old one. -/
  | switched (oldIdx : Fin 2)
  /-- It is writing its batch; these records remain. -/
  | writing (batch remaining : List StampedWalRecord)
  /-- The writer has been flushed, and the fence is about to be raised. -/
  | flushed (batch : List StampedWalRecord)

/-- The queue with its threads, and what has become of the records: those that were given a
sequence number, those written completely, and those of batches whose write failed. -/
structure DoubleBufferedJournalQueue (Pusher Flusher : Type) where
  activeBufIdx : Fin 2
  locked : Fin 2 → Bool
  buffers : Fin 2 → List StampedWalRecord
  latestSequence : UInt64
  committedSequence : UInt64
  pushers : Pusher → PushState
  flushers : Flusher → FlushState
  numbered : List StampedWalRecord
  written : List StampedWalRecord
  failed : List StampedWalRecord

/-- The next access of a thread; a flusher's carries the writer's answer. -/
inductive QueueAction (Pusher Flusher : Type) where
  | beginPush (pusher : Pusher) (record : WalRecord)
  | advancePush (pusher : Pusher)
  | beginFlush (flusher : Flusher)
  | advanceFlush (flusher : Flusher) (accepted : Bool)

namespace DoubleBufferedJournalQueue

variable {Pusher Flusher : Type} [DecidableEq Pusher] [DecidableEq Flusher]

def new : DoubleBufferedJournalQueue Pusher Flusher where
  activeBufIdx := 0
  locked := fun _ => false
  buffers := fun _ => []
  latestSequence := 0
  committedSequence := 0
  pushers := fun _ => .idle
  flushers := fun _ => .idle
  numbered := []
  written := []
  failed := []

variable (queue : DoubleBufferedJournalQueue Pusher Flusher)

def isDurable (sequence : UInt64) : Bool :=
  decide (sequence ≤ queue.committedSequence)

def highestSeq (records : List StampedWalRecord) : UInt64 :=
  records.foldl (fun highest stamped => if highest < stamped.sequence then stamped.sequence
    else highest) 0

variable (pusher : Pusher)

def setPusher (state : PushState) : DoubleBufferedJournalQueue Pusher Flusher :=
  { queue with pushers := Function.update queue.pushers pusher state }

variable (flusher : Flusher)

def setFlusher (state : FlushState) : DoubleBufferedJournalQueue Pusher Flusher :=
  { queue with flushers := Function.update queue.flushers flusher state }

def setLock (bufIdx : Fin 2) (isLocked : Bool) : DoubleBufferedJournalQueue Pusher Flusher :=
  { queue with locked := Function.update queue.locked bufIdx isLocked }

def setBuffer (bufIdx : Fin 2) (records : List StampedWalRecord) :
    DoubleBufferedJournalQueue Pusher Flusher :=
  { queue with buffers := Function.update queue.buffers bufIdx records }

/-- The write of a batch fails; the flusher returns and the batch is not written again. -/
def abandon (batch : List StampedWalRecord) : DoubleBufferedJournalQueue Pusher Flusher :=
  { queue.setFlusher flusher .idle with failed := queue.failed ++ batch }

def beginPush (record : WalRecord) : DoubleBufferedJournalQueue Pusher Flusher :=
  match queue.pushers pusher with
  | .idle => queue.setPusher pusher (.waiting queue.activeBufIdx record)
  | _ => queue

/-- The next access of a `push`; one that waits for a lock is left where it is. -/
def advancePush : DoubleBufferedJournalQueue Pusher Flusher :=
  match queue.pushers pusher with
  | .idle => queue
  | .waiting bufIdx record =>
    if queue.locked bufIdx then queue
    else (queue.setLock bufIdx true).setPusher pusher (.holding bufIdx record)
  | .holding bufIdx record =>
    let actualIdx := queue.activeBufIdx
    if actualIdx ≠ bufIdx then
      (queue.setLock bufIdx false).setPusher pusher (.waiting actualIdx record)
    else if (queue.buffers bufIdx).length < journalBufferCapacity then
      queue.setPusher pusher (.admitted bufIdx record)
    else
      (queue.setLock bufIdx false).setPusher pusher .idle
  | .admitted bufIdx record =>
    let stamped : StampedWalRecord :=
      { sequence := queue.latestSequence + 1, record := record }
    { queue.setPusher pusher (.stamped bufIdx stamped) with
      latestSequence := queue.latestSequence + 1
      numbered := queue.numbered ++ [stamped] }
  | .stamped bufIdx stamped =>
    ((queue.setBuffer bufIdx (queue.buffers bufIdx ++ [stamped])).setLock bufIdx
      false).setPusher pusher .idle

def beginFlush : DoubleBufferedJournalQueue Pusher Flusher :=
  match queue.flushers flusher with
  | .idle => queue.setFlusher flusher (.loaded queue.activeBufIdx)
  | _ => queue

/-- The next access of `swap_and_drain` and, with what it has drained, of `flush_records`. -/
def advanceFlush (accepted : Bool) : DoubleBufferedJournalQueue Pusher Flusher :=
  match queue.flushers flusher with
  | .idle => queue
  | .loaded oldIdx =>
    { queue.setFlusher flusher (.switched oldIdx) with activeBufIdx := 1 - oldIdx }
  | .switched oldIdx =>
    if queue.locked oldIdx then queue
    else if queue.buffers oldIdx = [] then queue.setFlusher flusher .idle
    else
      (queue.setBuffer oldIdx []).setFlusher flusher
        (.writing (queue.buffers oldIdx) (queue.buffers oldIdx))
  | .writing batch [] =>
    if accepted then queue.setFlusher flusher (.flushed batch)
    else queue.abandon flusher batch
  | .writing batch (stamped :: remaining) =>
    match stamped.record.encode (walHeaderLen + maxWalPayloadLen + 4) with
    | .error _ => queue.abandon flusher batch
    | .ok _ =>
      if accepted then
        { queue.setFlusher flusher (.writing batch remaining) with
          written := queue.written ++ [stamped] }
      else
        queue.abandon flusher batch
  | .flushed batch =>
    { queue.setFlusher flusher .idle with
      committedSequence := max queue.committedSequence (highestSeq batch) }

def step (queue : DoubleBufferedJournalQueue Pusher Flusher) :
    QueueAction Pusher Flusher → DoubleBufferedJournalQueue Pusher Flusher
  | .beginPush pusher record => queue.beginPush pusher record
  | .advancePush pusher => queue.advancePush pusher
  | .beginFlush flusher => queue.beginFlush flusher
  | .advanceFlush flusher accepted => queue.advanceFlush flusher accepted

end DoubleBufferedJournalQueue

end Eidolon.World

/-!
## Durability of the double-buffered queue

The fence is one number.  It tells the truth as long as it is never raised past a record
that another thread still has, that is in a buffer, or that was lost with a failed batch.
-/

namespace Eidolon.World

open Function Library List

def PushState.records : PushState → List StampedWalRecord
  | .idle | .waiting _ _ | .holding _ _ | .admitted _ _ => []
  | .stamped _ stampedRecord => [stampedRecord]

def FlushState.batch : FlushState → List StampedWalRecord
  | .idle | .loaded _ | .switched _ => []
  | .writing batch _ => batch
  | .flushed batch => batch

def FlushState.remaining : FlushState → List StampedWalRecord
  | .idle | .loaded _ | .switched _ | .flushed _ => []
  | .writing _ remaining => remaining

namespace DoubleBufferedJournalQueue

variable {Pusher Flusher : Type} (queue : DoubleBufferedJournalQueue Pusher Flusher)

def Pending (stamped : StampedWalRecord) : Prop :=
  HeldBySome id queue.buffers stamped ∨ HeldBySome PushState.records queue.pushers stamped ∨
    HeldBySome FlushState.batch queue.flushers stamped ∨ stamped ∈ queue.failed

def PendingApart (flusher : Flusher) (stamped : StampedWalRecord) : Prop :=
  HeldBySome id queue.buffers stamped ∨ HeldBySome PushState.records queue.pushers stamped ∨
    HeldByOther FlushState.batch queue.flushers flusher stamped ∨ stamped ∈ queue.failed

/-- What the fence promises: a record at or below a number reported durable has been
written, and no record of a failed batch is reported durable. -/
structure Sound (queue : DoubleBufferedJournalQueue Pusher Flusher) : Prop where
  written : ∀ sequence, queue.isDurable sequence →
    ∀ stamped ∈ queue.numbered, stamped.sequence ≤ sequence → stamped ∈ queue.written
  failed : ∀ stamped ∈ queue.failed, ¬ queue.isDurable stamped.sequence

/-- The access that raises the fence is made while no record with a lower number is pending
apart from the batch, and the counter does not wrap around. -/
def Orderly (queue : DoubleBufferedJournalQueue Pusher Flusher) : QueueAction Pusher Flusher → Prop
  | .advancePush pusher =>
    match queue.pushers pusher with
    | .admitted _ _ => queue.latestSequence.toNat + 1 < 2 ^ 64
    | _ => True
  | .advanceFlush flusher _ =>
    match queue.flushers flusher with
    | .flushed batch =>
      ∀ stamped, queue.PendingApart flusher stamped → highestSeq batch < stamped.sequence
    | _ => True
  | _ => True

/-- Every numbered record is pending or written, and what is pending is ahead of the fence. -/
structure Fenced (queue : DoubleBufferedJournalQueue Pusher Flusher) : Prop where
  located : ∀ stamped ∈ queue.numbered, queue.Pending stamped ∨ stamped ∈ queue.written
  ahead : ∀ stamped, queue.Pending stamped → queue.committedSequence < stamped.sequence
  counted : ∀ stamped, queue.Pending stamped → stamped.sequence ≤ queue.latestSequence
  fence : queue.committedSequence ≤ queue.latestSequence
  progress : ∀ flusher, ∀ stamped ∈ (queue.flushers flusher).batch,
    stamped ∈ (queue.flushers flusher).remaining ∨ stamped ∈ queue.written

variable {queue : DoubleBufferedJournalQueue Pusher Flusher}

theorem Fenced.sound (fenced : queue.Fenced) : queue.Sound := by
  constructor
  · intro sequence durable stamped numbered below
    rw [isDurable, decide_eq_true_iff] at durable
    rcases fenced.located stamped numbered with pending | written
    · have beyond := fenced.ahead stamped pending
      exact absurd (UInt64.le_trans below durable) (UInt64.not_le.mpr beyond)
    exact written
  intro stamped member durable
  rw [isDurable, decide_eq_true_iff] at durable
  have beyond := fenced.ahead stamped (.inr (.inr (.inr member)))
  exact absurd durable (UInt64.not_le.mpr beyond)

variable {stamped : StampedWalRecord}

section Push

variable [DecidableEq Pusher] {queue : DoubleBufferedJournalQueue Pusher Flusher} {pusher : Pusher}

section

variable (fenced : queue.Fenced)
include fenced

end

end Push

section Flush

variable [DecidableEq Flusher]

variable {queue : DoubleBufferedJournalQueue Pusher Flusher} {flusher : Flusher}

end Flush

variable [DecidableEq Pusher] [DecidableEq Flusher]

end DoubleBufferedJournalQueue

end Eidolon.World
