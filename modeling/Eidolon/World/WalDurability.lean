import Mathlib.Data.List.Infix
import Eidolon.Library.Run
import Eidolon.World.Wal

/-!
# Numbered journals

The records a journal has taken are those its sink has accepted followed by those still
queued.  They are numbered by their places, up to the largest sequence number, and the
durable number is that of the last accepted one: appends and flushes keep this, whatever
the sink answers.
-/

namespace Eidolon.World

open Library List

theorem WalRecord.new_lsn {lsn tick accountId : UInt64} {entityId : UInt32} {opcode : UInt8}
    {payloadData : List UInt8} {record : WalRecord}
    (made : WalRecord.new lsn tick accountId entityId opcode payloadData = .ok record) :
    record.lsn = lsn := by
  unfold WalRecord.new at made
  split at made
  · cases made
    rfl
  cases made

namespace WriteAheadJournal

variable {cap : Nat}

/-- The records taken so far: accepted by the sink, then queued. -/
def records (journal : WriteAheadJournal cap) : List WalRecord :=
  journal.sink.accepted ++ journal.ringBuffer.queued

def maxLsn : Nat := 2 ^ 64 - 1

structure Numbered (journal : WriteAheadJournal cap) : Prop where
  lsn_eq : ∀ index record, journal.records[index]? = some record →
    record.lsn.toNat = min (index + 1) maxLsn
  current_eq : journal.currentLsn.toNat = min journal.records.length maxLsn
  durable_eq : journal.durableLsn.toNat = min journal.sink.accepted.length maxLsn

theorem Numbered.new (cap : Nat) : Numbered (WriteAheadJournal.new cap) where
  lsn_eq := by
    intro index record found
    cases found
  current_eq := rfl
  durable_eq := rfl

variable {journal : WriteAheadJournal cap}

theorem Numbered.append {appended : WriteAheadJournal cap} {record : WalRecord}
    (numbered : journal.Numbered) (recordLsn : record.lsn = saturatingAdd64 journal.currentLsn 1)
    (current : appended.currentLsn = saturatingAdd64 journal.currentLsn 1)
    (durable : appended.durableLsn = journal.durableLsn) (sink : appended.sink = journal.sink)
    (queued : appended.ringBuffer.queued = journal.ringBuffer.queued ++ [record]) :
    appended.Numbered := by
  have next : (saturatingAdd64 journal.currentLsn 1).toNat =
      min (journal.records.length + 1) maxLsn := by
    rw [toNat_saturatingAdd64, numbered.current_eq, UInt64.toNat_one, maxLsn]
    omega
  have grown : appended.records = journal.records ++ [record] := by
    rw [records, records, sink, queued, append_assoc]
  refine ⟨?_, ?_, ?_⟩
  · intro index other found
    rw [grown] at found
    by_cases last : index < journal.records.length
    · rw [getElem?_append_left last] at found
      exact numbered.lsn_eq index other found
    have inside := (List.getElem?_eq_some_iff.mp found).1
    simp only [length_append, length_singleton] at inside
    have place : index = journal.records.length := by
      omega
    rw [place, getElem?_concat_length] at found
    cases found
    rw [recordLsn, next, place]
  · rw [current, next, grown, length_append, length_singleton]
  rw [durable, sink]
  exact numbered.durable_eq

theorem accepted_acceptBatch (journal : WriteAheadJournal cap) (room : Nat) :
    (journal.acceptBatch (journal.ringBuffer.peekBatch room)).sink.accepted =
      journal.sink.accepted ++ journal.ringBuffer.queued.take room := by
  rw [← RingBuffer.peekBatch_eq]
  rfl

theorem queued_acceptBatch (journal : WriteAheadJournal cap) (room : Nat) :
    (journal.acceptBatch (journal.ringBuffer.peekBatch room)).ringBuffer.queued =
      journal.ringBuffer.queued.drop room := by
  have evicted : (journal.ringBuffer.advanceHead
      (journal.ringBuffer.peekBatch room).length).queued =
        journal.ringBuffer.queued.drop (min room journal.ringBuffer.queued.length) := by
    rw [RingBuffer.queued_advanceHead, RingBuffer.peekBatch_eq, length_take]
  refine evicted.trans ?_
  rw [drop_eq_drop_iff]
  omega

theorem records_acceptBatch (journal : WriteAheadJournal cap) (room : Nat) :
    (journal.acceptBatch (journal.ringBuffer.peekBatch room)).records = journal.records := by
  rw [records, accepted_acceptBatch, queued_acceptBatch, append_assoc, take_append_drop]
  rfl

theorem Numbered.acceptBatch (numbered : journal.Numbered) (room : Nat) :
    (journal.acceptBatch (journal.ringBuffer.peekBatch room)).Numbered := by
  have same := records_acceptBatch journal room
  refine ⟨?_, ?_, ?_⟩
  · rw [same]
    exact numbered.lsn_eq
  · rw [same]
    exact numbered.current_eq
  rw [accepted_acceptBatch, length_append, ← RingBuffer.peekBatch_eq]
  rcases last : (journal.ringBuffer.peekBatch room).getLast? with _ | lastRec
  · have empty := getLast?_eq_none_iff.mp last
    simp only [WriteAheadJournal.acceptBatch, empty, getLast?_nil, length_nil, Nat.add_zero]
    exact numbered.durable_eq
  have nonempty : 0 < (journal.ringBuffer.peekBatch room).length := by
    cases batch : journal.ringBuffer.peekBatch room with
    | nil =>
      rw [batch] at last
      cases last
    | cons first rest => exact Nat.succ_pos _
  -- the last record of the batch stands behind the accepted ones
  have place : journal.records[journal.sink.accepted.length +
      ((journal.ringBuffer.peekBatch room).length - 1)]? = some lastRec := by
    rw [getLast?_eq_getElem?, RingBuffer.peekBatch_eq, getElem?_take] at last
    rw [records, getElem?_append_right (by omega), Nat.add_sub_cancel_left,
      RingBuffer.peekBatch_eq]
    split at last
    · exact last
    cases last
  have lastLsn := numbered.lsn_eq _ lastRec place
  have durable := numbered.durable_eq
  simp only [WriteAheadJournal.acceptBatch, last]
  split
  · omega
  rename_i notLess
  rw [UInt64.lt_iff_toNat_lt] at notLess
  omega

variable (answers : SinkAnswers)

/-- Whatever the sink answers, the batches of a flush move records from the queue to the
accepted ones, and synchronise nothing. -/
theorem flushBatches_spec (turns index totalFlushed : Nat) (journal : WriteAheadJournal cap) :
    (flushBatches answers turns index totalFlushed journal).2.records = journal.records ∧
      (flushBatches answers turns index totalFlushed journal).2.sink.syncedCount =
        journal.sink.syncedCount := by
  induction turns generalizing index totalFlushed journal with
  | zero => exact ⟨rfl, rfl⟩
  | succ turns ih =>
    simp only [flushBatches]
    split
    · exact ⟨rfl, rfl⟩
    split
    · exact ⟨rfl, rfl⟩
    rcases ih (index + 1) _ (journal.acceptBatch _) with
      ⟨sameRecords, sameSynced⟩
    exact ⟨sameRecords.trans (records_acceptBatch journal drainScratchLen), sameSynced⟩

theorem Numbered.flushBatches (numbered : journal.Numbered) (answers : SinkAnswers)
    (turns index totalFlushed : Nat) :
    (WriteAheadJournal.flushBatches answers turns index totalFlushed journal).2.Numbered := by
  induction turns generalizing index totalFlushed journal with
  | zero => exact numbered
  | succ turns ih =>
    simp only [WriteAheadJournal.flushBatches]
    split
    · exact numbered
    split
    · exact numbered
    exact ih (numbered.acceptBatch drainScratchLen) (index + 1) _

theorem flushBatches_of_accepted (turns index totalFlushed : Nat)
    (journal : WriteAheadJournal cap) (enough : journal.ringBuffer.queued.length < turns)
    (accepted : ∀ offset, offset * drainScratchLen < journal.ringBuffer.queued.length →
      answers.writeBatch (index + offset) = .ok ()) :
    (flushBatches answers turns index totalFlushed journal).1 =
        .ok (totalFlushed + journal.ringBuffer.queued.length) ∧
      (flushBatches answers turns index totalFlushed journal).2.ringBuffer.queued = [] := by
  induction turns generalizing index totalFlushed journal with
  | zero => omega
  | succ turns ih =>
    have batchLength : (journal.ringBuffer.peekBatch drainScratchLen).length =
        min drainScratchLen journal.ringBuffer.queued.length := by
      rw [RingBuffer.peekBatch_eq, length_take]
    have scratch : drainScratchLen = 128 := rfl
    simp only [flushBatches]
    by_cases empty : (journal.ringBuffer.peekBatch drainScratchLen).length = 0
    · have noneQueued : journal.ringBuffer.queued.length = 0 := by
        omega
      rw [if_pos empty, noneQueued]
      exact ⟨rfl, length_eq_zero_iff.mp noneQueued⟩
    have first : answers.writeBatch index = .ok () := accepted 0 (by omega)
    have rest := queued_acceptBatch journal drainScratchLen
    have restLength := congrArg List.length rest
    rw [length_drop] at restLength
    rcases ih (index + 1) (totalFlushed + (journal.ringBuffer.peekBatch drainScratchLen).length)
        (journal.acceptBatch (journal.ringBuffer.peekBatch drainScratchLen)) (by omega)
        (by
          intro offset inside
          have next : (offset + 1) * drainScratchLen =
              offset * drainScratchLen + drainScratchLen := Nat.succ_mul _ _
          rw [Nat.add_assoc, Nat.add_comm 1]
          exact accepted (offset + 1) (by omega)) with ⟨result, emptied⟩
    rw [if_neg empty, first]
    refine ⟨?_, emptied⟩
    rw [result]
    congr 1
    omega

def FlushCompletes (journal : WriteAheadJournal cap) (answers : SinkAnswers) : Prop :=
  journal.ringBuffer.queued = [] ∨ (∃ error, answers.writeBatch 0 = .error error) ∨
    ((∀ index, index * drainScratchLen < journal.ringBuffer.queued.length →
        answers.writeBatch index = .ok ()) ∧
      answers.flush = .ok ())

def Synced (journal : WriteAheadJournal cap) : Prop :=
  journal.sink.syncedCount = journal.sink.accepted.length

theorem flushPending_cases (journal : WriteAheadJournal cap) (answers : SinkAnswers) :
    (journal.flushPending answers).2 =
        (flushBatches answers (journal.ringBuffer.len + 1) 0 0 journal).2 ∨
      (journal.flushPending answers).2 =
        { (flushBatches answers (journal.ringBuffer.len + 1) 0 0 journal).2 with
          sink := (flushBatches answers (journal.ringBuffer.len + 1) 0 0 journal).2.sink.flush
        } := by
  unfold flushPending
  rcases flushBatches answers (journal.ringBuffer.len + 1) 0 0 journal with ⟨result, after⟩
  rcases result with error | totalFlushed
  · exact Or.inl rfl
  simp only
  split
  · cases answers.flush with
    | error error => exact Or.inl rfl
    | ok done => exact Or.inr rfl
  exact Or.inl rfl

theorem records_flushPending (journal : WriteAheadJournal cap) (answers : SinkAnswers) :
    (journal.flushPending answers).2.records = journal.records := by
  have same := (flushBatches_spec answers (journal.ringBuffer.len + 1) 0 0 journal).1
  rcases journal.flushPending_cases answers with unsynced | flushed
  · rw [unsynced, same]
  rw [flushed]
  exact same

theorem Numbered.flushPending (numbered : journal.Numbered) (answers : SinkAnswers) :
    (journal.flushPending answers).2.Numbered := by
  have after := numbered.flushBatches answers (journal.ringBuffer.len + 1) 0 0
  rcases journal.flushPending_cases answers with unsynced | flushed
  · rw [unsynced]
    exact after
  rw [flushed]
  exact ⟨after.lsn_eq, after.current_eq, after.durable_eq⟩

theorem flushPending_of_empty (empty : journal.ringBuffer.queued = []) :
    (journal.flushPending answers).2 = journal := by
  have noBatch : (journal.ringBuffer.peekBatch drainScratchLen).length = 0 := by
    rw [RingBuffer.peekBatch_eq, empty, take_nil, length_nil]
  simp [flushPending, flushBatches, noBatch]

theorem flushPending_of_refused {answers : SinkAnswers} {error : WorldError}
    (refused : answers.writeBatch 0 = .error error) :
    (journal.flushPending answers).2 = journal := by
  by_cases noBatch : (journal.ringBuffer.peekBatch drainScratchLen).length = 0
  · simp [flushPending, flushBatches, noBatch]
  simp [flushPending, flushBatches, noBatch, refused]

theorem Synced.flushPending {answers : SinkAnswers} (synced : journal.Synced)
    (completes : journal.FlushCompletes answers) : (journal.flushPending answers).2.Synced := by
  by_cases empty : journal.ringBuffer.queued = []
  · rw [flushPending_of_empty answers empty]
    exact synced
  rcases completes with impossible | ⟨error, refused⟩ | ⟨accepted, flushed⟩
  · exact absurd impossible empty
  · rw [flushPending_of_refused refused]
    exact synced
  have positive : 0 < journal.ringBuffer.queued.length := length_pos_iff.mpr empty
  have allAccepted := (flushBatches_of_accepted answers (journal.ringBuffer.len + 1) 0 0
    journal (by rw [RingBuffer.length_queued]; omega)
    (by intro offset inside; rw [Nat.zero_add]; exact accepted offset inside)).1
  unfold WriteAheadJournal.flushPending
  rcases result : flushBatches answers (journal.ringBuffer.len + 1) 0 0 journal with
    ⟨total, after⟩
  rw [result] at allAccepted
  cases allAccepted
  simp only [Nat.zero_add, if_pos positive, flushed]
  rfl

/-- In a synchronised journal every number up to the durable one that a record has is
that of a synchronised record, and below the largest number of no other record. -/
theorem Numbered.synced_of_isFlushed (numbered : journal.Numbered) (synced : journal.Synced)
    {taken : WalRecord} (isTaken : taken ∈ journal.records)
    (flushed : journal.isFlushed taken.lsn = true) :
    ∃ record ∈ journal.sink.synced, record.lsn = taken.lsn ∧ (taken.lsn.toNat < maxLsn →
        ∀ other ∈ journal.records, other.lsn = taken.lsn → other = record) := by
  have syncedEq : journal.sink.synced = journal.sink.accepted := by
    rw [DurableWalSink.synced, synced, take_length]
  rw [syncedEq]
  rcases getElem?_of_mem isTaken with ⟨index, found⟩
  have takenLsn := numbered.lsn_eq index taken found
  have durable := numbered.durable_eq
  have reached := of_decide_eq_true flushed
  rw [UInt64.le_iff_toNat_le] at reached
  by_cases accepted : index < journal.sink.accepted.length
  · refine ⟨taken, ?_, rfl, ?_⟩
    · rw [records, getElem?_append_left accepted] at found
      exact mem_of_getElem? found
    intro below other otherTaken sameLsn
    rcases getElem?_of_mem otherTaken with ⟨place, otherFound⟩
    have otherLsn := numbered.lsn_eq place other otherFound
    rw [sameLsn] at otherLsn
    have samePlace : place = index := by
      omega
    rw [samePlace, found] at otherFound
    exact (Option.some.inj otherFound).symm
  -- behind the accepted records only the largest number is durable
  have positive : 0 < journal.sink.accepted.length := by
    have large : 0 < maxLsn := by decide
    omega
  have lastInside : journal.sink.accepted.length - 1 < journal.sink.accepted.length := by
    omega
  have lastFound : journal.records[journal.sink.accepted.length - 1]? =
      some (journal.sink.accepted[journal.sink.accepted.length - 1]) := by
    rw [records, getElem?_append_left lastInside, getElem?_eq_getElem lastInside]
  have lastLsn := numbered.lsn_eq _ _ lastFound
  refine ⟨_, getElem_mem lastInside, ?_, ?_⟩
  · apply UInt64.toNat_inj.mp
    omega
  omega

theorem accepted_prefix_flushBatches (turns index totalFlushed : Nat)
    (journal : WriteAheadJournal cap) : journal.sink.accepted <+:
      (flushBatches answers turns index totalFlushed journal).2.sink.accepted := by
  induction turns generalizing index totalFlushed journal with
  | zero => exact prefix_rfl
  | succ turns ih =>
    simp only [flushBatches]
    split
    · exact prefix_rfl
    split
    · exact prefix_rfl
    exact (prefix_append _ _).trans (ih (index + 1) _ (journal.acceptBatch _))

theorem synced_prefix_flushPending (journal : WriteAheadJournal cap) (answers : SinkAnswers) :
    journal.sink.synced <+: (journal.flushPending answers).2.sink.synced := by
  have moved := flushBatches_spec answers (journal.ringBuffer.len + 1) 0 0 journal
  have grown :=
    accepted_prefix_flushBatches answers (journal.ringBuffer.len + 1) 0 0 journal
  rcases journal.flushPending_cases answers with unsynced | flushed
  · rw [unsynced, DurableWalSink.synced, DurableWalSink.synced, moved.2]
    exact IsPrefix.take grown _
  rw [flushed]
  have taken := List.take_prefix journal.sink.syncedCount journal.sink.accepted
  refine taken.trans (grown.trans ?_)
  simp only [DurableWalSink.synced, DurableWalSink.flush, take_length, prefix_rfl]

/-- A flush ends well only when the queue is empty. -/
theorem flushBatches_ok {turns index totalFlushed total : Nat}
    {journal flushed : WriteAheadJournal cap} (enough : journal.ringBuffer.queued.length < turns)
    (done : flushBatches answers turns index totalFlushed journal = (.ok total, flushed)) :
    total = totalFlushed + journal.ringBuffer.queued.length ∧
      flushed.ringBuffer.queued = [] := by
  induction turns generalizing index totalFlushed journal with
  | zero => omega
  | succ turns ih =>
    have batchLength : (journal.ringBuffer.peekBatch drainScratchLen).length =
        min drainScratchLen journal.ringBuffer.queued.length := by
      rw [RingBuffer.peekBatch_eq, length_take]
    have scratch : drainScratchLen = 128 := rfl
    have rest := congrArg List.length (queued_acceptBatch journal drainScratchLen)
    rw [length_drop] at rest
    simp only [flushBatches] at done
    split at done
    · have noneQueued : journal.ringBuffer.queued.length = 0 := by
        omega
      cases done
      exact ⟨by omega, length_eq_zero_iff.mp noneQueued⟩
    split at done
    · cases done
    obtain ⟨sameTotal, emptied⟩ := ih (by omega) done
    exact ⟨by omega, emptied⟩

theorem synced_of_flushPending {answers : SinkAnswers} {total : Nat}
    {flushed : WriteAheadJournal cap} (queued : journal.ringBuffer.queued ≠ [])
    (done : journal.flushPending answers = (.ok total, flushed)) :
    flushed.sink.synced = flushed.records := by
  have positive := length_pos_iff.mpr queued
  rw [flushPending] at done
  rcases batches : flushBatches answers (journal.ringBuffer.len + 1) 0 0 journal with
    ⟨error | count, after⟩
  · rw [batches] at done
    cases done
  rw [batches] at done
  obtain ⟨counted, emptied⟩ := flushBatches_ok answers
    (by rw [RingBuffer.length_queued]; omega) batches
  simp only [if_pos (show 0 < count by omega)] at done
  split at done
  · cases done
  cases done
  rw [records, emptied, append_nil]
  exact take_length

theorem Numbered.eq_of_lsn (numbered : journal.Numbered) {record other : WalRecord}
    (taken : record ∈ journal.records) (otherTaken : other ∈ journal.records)
    (same : other.lsn = record.lsn) (below : record.lsn.toNat < maxLsn) : other = record := by
  rcases getElem?_of_mem taken with ⟨index, found⟩
  rcases getElem?_of_mem otherTaken with ⟨place, otherFound⟩
  have lsn := numbered.lsn_eq index record found
  have otherLsn := numbered.lsn_eq place other otherFound
  rw [same] at otherLsn
  have samePlace : place = index := by
    omega
  rw [samePlace, found] at otherFound
  exact (Option.some.inj otherFound).symm

end WriteAheadJournal

end Eidolon.World

/-!
## What was appended

The records a write-ahead journal has taken, accepted by the sink or still queued, are
those whose append has returned a number, in the order of the appends.  The numbers count
the appends from one, up to the largest number.
-/

namespace Eidolon.World

open Library List

/-- A call of the journal; a flush comes with the answers of the sink. -/
inductive JournalCall where
  | append (tick accountId : UInt64) (entityId : UInt32) (opcode : UInt8)
      (payloadData : List UInt8)
  | flushPending (answers : SinkAnswers)

structure AppendHistory (cap : Nat) where
  journal : WriteAheadJournal cap
  appended : List WalRecord

namespace AppendHistory

variable {cap : Nat}

def new (cap : Nat) : AppendHistory cap where
  journal := WriteAheadJournal.new cap
  appended := []

def step (history : AppendHistory cap) : JournalCall → AppendHistory cap
  | .append tick accountId entityId opcode payloadData =>
    match history.journal.append tick accountId entityId opcode payloadData with
    | (.ok lsn, journal) =>
      { journal := journal
        appended := history.appended ++
          (WalRecord.new lsn tick accountId entityId opcode payloadData).toOption.toList }
    | (.error _, journal) => { history with journal := journal }
  | .flushPending answers => { history with journal := (history.journal.flushPending answers).2 }

/-- Nothing that was appended is lost, doubled or moved; the numbers are those that
`number` gives to the places, and no number is left out. -/
structure Faithful (number : Nat → Nat) (history : AppendHistory cap) : Prop where
  records_eq : history.journal.sink.accepted ++ history.journal.ringBuffer.queued =
    history.appended
  lsn_eq : ∀ index record, history.appended[index]? = some record →
    record.lsn.toNat = number (index + 1)
  current_eq : history.journal.currentLsn.toNat = number history.appended.length

def FailsWithoutTrace (history : AppendHistory cap) : JournalCall → Prop
  | .append tick accountId entityId opcode payloadData =>
    ∀ error, (history.journal.append tick accountId entityId opcode payloadData).1 = .error error →
      (history.journal.append tick accountId entityId opcode payloadData).2 = history.journal
  | .flushPending _ => True

/-- Sequence numbers stay at the largest one. -/
def saturated (place : Nat) : Nat :=
  min place WriteAheadJournal.maxLsn

structure Traced (history : AppendHistory cap) : Prop where
  numbered : history.journal.Numbered
  records_eq : history.journal.records = history.appended

theorem Traced.faithful {history : AppendHistory cap} (traced : history.Traced) :
    history.Faithful saturated := by
  refine ⟨traced.records_eq, ?_, ?_⟩
  · rw [← traced.records_eq]
    exact traced.numbered.lsn_eq
  rw [← traced.records_eq]
  exact traced.numbered.current_eq

theorem traced_step {history : AppendHistory cap} (traced : history.Traced)
    (call : JournalCall) : (history.step call).Traced := by
  cases call with
  | flushPending answers =>
    refine ⟨traced.numbered.flushPending answers, ?_⟩
    exact (WriteAheadJournal.records_flushPending history.journal answers).trans traced.records_eq
  | append tick accountId entityId opcode payloadData =>
    rcases history.journal.append_cases tick accountId entityId opcode payloadData with
      ⟨error, failed⟩ | ⟨record, journal, succeeded, made, current, durable, sink, queued⟩
    · simp only [step, failed]
      exact ⟨traced.numbered, traced.records_eq⟩
    simp only [step, succeeded, made]
    refine ⟨traced.numbered.append (WalRecord.new_lsn made) current durable sink queued, ?_⟩
    rw [WriteAheadJournal.records, sink, queued, ← append_assoc]
    exact congrArg (fun records => records ++ [record]) traced.records_eq

theorem failsWithoutTrace (history : AppendHistory cap) (call : JournalCall) :
    history.FailsWithoutTrace call := by
  cases call with
  | flushPending answers => trivial
  | append tick accountId entityId opcode payloadData =>
    intro error failed
    rcases result : history.journal.append tick accountId entityId opcode payloadData with
      ⟨outcome, journal⟩
    rw [result] at failed
    cases failed
    exact WriteAheadJournal.append_error result

/-- Along every run the journal holds what was appended, numbered from one up to the
largest number, and failed appends leave no trace. -/
theorem journal_holds_appended (cap : Nat) (calls : List JournalCall) :
    Throughout step (Faithful saturated) (new cap) calls ∧
      EachStep step FailsWithoutTrace (new cap) calls := by
  have start : (new cap).Traced := ⟨WriteAheadJournal.Numbered.new cap, rfl⟩
  have preserved : ∀ (history : AppendHistory cap) (call : JournalCall),
      history.Traced → True → (history.step call).Traced :=
    fun _ call traced _ => traced_step traced call
  have allowed : EachStep step (fun _ _ => True) (new cap) calls :=
    eachStep_of_forall (fun _ _ => trivial) (new cap)
  have always := throughout_of_eachStep preserved start allowed
  exact ⟨always.imp fun _ traced => traced.faithful,
    eachStep_of_invariant preserved (fun history call _ _ => history.failsWithoutTrace call)
      start allowed⟩

private def accepting : SinkAnswers where
  writeBatch := fun _ => .ok ()
  flush := .ok ()

private def rounds : Nat → List JournalCall
  | 0 => []
  | more + 1 => .append 0 0 0 0 [] :: .flushPending accepting :: rounds more

private theorem appended_round {history : AppendHistory 1}
    (empty : history.journal.ringBuffer.queued = []) :
    ((history.step (.append 0 0 0 0 [])).step (.flushPending accepting)).appended.length =
        history.appended.length + 1 ∧
      ((history.step (.append 0 0 0 0 [])).step
        (.flushPending accepting)).journal.ringBuffer.queued = [] := by
  have noneQueued : history.journal.ringBuffer.len = 0 := by
    rw [← RingBuffer.length_queued, empty, length_nil]
  have room : ¬ 1 ≤ history.journal.ringBuffer.len := by
    omega
  rcases history.journal.append_cases 0 0 0 0 [] with
    ⟨error, failed⟩ | ⟨record, journal, succeeded, made, _, _, _, _⟩
  · have succeeds : ∃ lsn journal, history.journal.append 0 0 0 0 [] = (.ok lsn, journal) :=
      WriteAheadJournal.append_of_room room (Nat.zero_le _)
    rcases succeeds with ⟨lsn, journal, succeeded⟩
    rw [failed] at succeeded
    cases succeeded
  simp only [step, succeeded, made]
  constructor
  · exact length_append
  have emptied := (WriteAheadJournal.flushBatches_of_accepted accepting
    (journal.ringBuffer.len + 1) 0 0 journal (by rw [RingBuffer.length_queued]; omega)
    (fun _ _ => rfl)).2
  rcases journal.flushPending_cases accepting with unsynced | flushed
  · rw [unsynced]
    exact emptied
  rw [flushed]
  exact emptied

private theorem appended_rounds (more : Nat) {history : AppendHistory 1}
    (empty : history.journal.ringBuffer.queued = []) :
    (run step history (rounds more)).appended.length = history.appended.length + more := by
  induction more generalizing history with
  | zero => rfl
  | succ more ih =>
    rcases appended_round empty with ⟨grown, stillEmpty⟩
    exact (ih stillEmpty).trans (by omega)

/-- After as many appends as there are numbers, the numbers are no longer the places. -/
theorem not_faithful_beyond_maxLsn :
    ¬ ∀ (cap : Nat) (calls : List JournalCall), Throughout step (Faithful id) (new cap) calls := by
  intro always
  have last := (always 1 (rounds (2 ^ 64))).run.current_eq
  have many : (run step (new 1) (rounds (2 ^ 64))).appended.length = 0 + 2 ^ 64 :=
    appended_rounds (2 ^ 64) rfl
  rw [many] at last
  have bounded := UInt64.toNat_lt (run step (new 1) (rounds (2 ^ 64))).journal.currentLsn
  simp only [Nat.zero_add, id_eq] at last
  omega

end AppendHistory

end Eidolon.World
