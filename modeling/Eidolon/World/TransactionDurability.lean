import Eidolon.World.Transaction
import Eidolon.World.WalDurability

/-!
# Durable transactions

A manager and its journal, with the sequence numbers that appends have returned.  What is
reported as flushed has been synchronised, as long as every flush that gets a batch
accepted also gets the rest accepted and synchronised.
-/

namespace Eidolon.World

open Core Library List

structure LoggedManager (cap : Nat) where
  manager : TransactionManager
  journal : WriteAheadJournal cap
  appended : List UInt64

/-- The calls on the manager and the journal; `manage` is any change of the accounts and
the locks. -/
inductive LogInput where
  | append (tick accountId : UInt64) (entityId : UInt32) (opcode : UInt8)
      (payloadData : List UInt8)
  | flush (answers : SinkAnswers)
  | execute (txId : UInt64) (op : TransactionOp) (callerSessionId : UInt64)
      (sourceToken : LockToken) (currentTick : UInt64)
  | manage (lockRegistry : GenerationLockRegistry maxTrackedLocks) (accounts : Accounts)

namespace LoggedManager

variable {cap : Nat}

def start (cap : Nat) : LoggedManager cap where
  manager := TransactionManager.new
  journal := WriteAheadJournal.new cap
  appended := []

def noteAppended (system : LoggedManager cap) : Except WorldError UInt64 → List UInt64
  | .ok lsn => system.appended ++ [lsn]
  | .error _ => system.appended

def step (system : LoggedManager cap) : LogInput → LoggedManager cap
  | .append tick accountId entityId opcode payloadData =>
    let (result, journal) :=
      system.journal.append tick accountId entityId opcode payloadData
    { system with journal := journal, appended := system.noteAppended result }
  | .flush answers => { system with journal := (system.journal.flushPending answers).2 }
  | .execute txId op callerSessionId sourceToken currentTick =>
    let (result, manager, journal) :=
      system.manager.executeTransaction txId op callerSessionId sourceToken currentTick
        system.journal
    { manager := manager, journal := journal, appended := system.noteAppended result }
  | .manage lockRegistry accounts =>
    { system with
      manager := { system.manager with lockRegistry := lockRegistry, accounts := accounts } }

/-- The record of a number has been synchronised; only the largest number can be shared. -/
def SyncedUnder (journal : WriteAheadJournal cap) (lsn : UInt64) : Prop :=
  ∃ record ∈ journal.sink.synced, record.lsn = lsn ∧ (lsn.toNat < WriteAheadJournal.maxLsn →
      ∀ other ∈ journal.records, other.lsn = lsn → other = record)

/-- What is reported as flushed, a number or a transaction, has been synchronised. -/
structure FlushedIsSynced (system : LoggedManager cap) : Prop where
  number : ∀ lsn ∈ system.appended, system.journal.isFlushed lsn = true →
    SyncedUnder system.journal lsn
  transaction : ∀ txId, system.manager.isTransactionDurable txId system.journal = true →
    ∃ lsn, system.manager.executedTxs.lookup txId = some (.committed lsn) ∧
      SyncedUnder system.journal lsn

def FlushesComplete (system : LoggedManager cap) : LogInput → Prop
  | .flush answers => system.journal.FlushCompletes answers
  | _ => True

/-- The numbers returned are those of the records taken, in order, and every executed
transaction has one of them. -/
structure Logged (system : LoggedManager cap) : Prop where
  numbered : system.journal.Numbered
  appended_eq : system.appended = system.journal.records.map WalRecord.lsn
  executed : ∀ txId lsn, system.manager.executedTxs.lookup txId = some (.committed lsn) →
    lsn ∈ system.appended

theorem Logged.start (cap : Nat) : Logged (start cap) where
  numbered := WriteAheadJournal.Numbered.new cap
  appended_eq := rfl
  executed := by
    intro txId lsn found
    cases found

variable {system : LoggedManager cap}

theorem Logged.append (logged : system.Logged) {tick accountId lsn : UInt64} {entityId : UInt32}
    {opcode : UInt8} {payloadData : List UInt8} {journal : WriteAheadJournal cap}
    (result : system.journal.append tick accountId entityId opcode payloadData =
      (.ok lsn, journal)) :
    journal.Numbered ∧ system.appended ++ [lsn] = journal.records.map WalRecord.lsn := by
  rcases system.journal.append_cases tick accountId entityId opcode payloadData with
    ⟨error, failed⟩ | ⟨record, appended, succeeded, made, current, durable, sink, queued⟩
  · rw [failed] at result
    cases result
  rw [succeeded] at result
  cases result
  have recordLsn := WalRecord.new_lsn made
  refine ⟨logged.numbered.append recordLsn current durable sink queued, ?_⟩
  rw [WriteAheadJournal.records, sink, queued, ← append_assoc, map_append,
    map_singleton, recordLsn, logged.appended_eq]
  rfl

theorem Logged.step (logged : system.Logged) (input : LogInput) : (step system input).Logged := by
  cases input with
  | append tick accountId entityId opcode payloadData =>
    rcases result : system.journal.append tick accountId entityId opcode payloadData with
      ⟨outcome, journal⟩
    simp only [LoggedManager.step, result]
    rcases outcome with error | lsn
    · rw [WriteAheadJournal.append_error result]
      exact logged
    rcases logged.append result with ⟨numbered, appendedEq⟩
    refine ⟨numbered, appendedEq, ?_⟩
    intro txId other found
    exact mem_append_left _ (logged.executed txId other found)
  | flush answers =>
    refine ⟨logged.numbered.flushPending answers, ?_, logged.executed⟩
    rw [LoggedManager.step, WriteAheadJournal.records_flushPending]
    exact logged.appended_eq
  | execute txId op callerSessionId sourceToken currentTick =>
    rcases system.manager.executeTransaction_cases txId op callerSessionId sourceToken
      currentTick system.journal with
      ⟨error, accounts, failed⟩ | ⟨record, accounts, lsn, journal, _, result, succeeded⟩
    · simp only [LoggedManager.step, failed]
      exact ⟨logged.numbered, logged.appended_eq, logged.executed⟩
    simp only [LoggedManager.step, succeeded]
    rcases logged.append result with ⟨numbered, appendedEq⟩
    refine ⟨numbered, appendedEq, ?_⟩
    intro other otherLsn found
    by_cases same : other = txId
    · rw [same, Finmap.lookup_insert] at found
      cases found
      exact mem_append_right _ (mem_singleton_self lsn)
    rw [Finmap.lookup_insert_of_ne _ same] at found
    exact mem_append_left _ (logged.executed other otherLsn found)
  | manage lockRegistry accounts => exact ⟨logged.numbered, logged.appended_eq, logged.executed⟩

theorem sink_execute (system : LoggedManager cap) (txId : UInt64) (op : TransactionOp)
    (callerSessionId : UInt64) (sourceToken : LockToken) (currentTick : UInt64) :
    (step system (.execute txId op callerSessionId sourceToken currentTick)).journal.sink =
      system.journal.sink := by
  rcases system.manager.executeTransaction_cases txId op callerSessionId sourceToken
    currentTick system.journal with
    ⟨error, accounts, failed⟩ | ⟨record, accounts, lsn, journal, _, result, succeeded⟩
  · simp only [step, failed]
  have same := system.journal.sink_append currentTick record.accountId 0 record.opcode
    record.payload
  rw [result] at same
  simp only [step, succeeded]
  exact same

/-- Only a flush changes what is synchronised, and one that completes leaves nothing
accepted unsynchronised. -/
theorem synced_step (synced : system.journal.Synced) {input : LogInput}
    (completes : FlushesComplete system input) : (step system input).journal.Synced := by
  cases input with
  | append tick accountId entityId opcode payloadData =>
    rw [WriteAheadJournal.Synced, step, WriteAheadJournal.sink_append]
    exact synced
  | flush answers => exact synced.flushPending completes
  | execute txId op callerSessionId sourceToken currentTick =>
    rw [WriteAheadJournal.Synced, sink_execute]
    exact synced
  | manage lockRegistry accounts => exact synced

theorem Logged.flushedIsSynced (logged : system.Logged) (synced : system.journal.Synced) :
    system.FlushedIsSynced := by
  have flushed : ∀ lsn ∈ system.appended, system.journal.isFlushed lsn = true →
      SyncedUnder system.journal lsn := by
    intro lsn member reached
    rw [logged.appended_eq] at member
    rcases List.mem_map.mp member with ⟨record, taken, sameLsn⟩
    subst sameLsn
    exact logged.numbered.synced_of_isFlushed synced taken reached
  refine ⟨flushed, ?_⟩
  intro txId durable
  rw [TransactionManager.isTransactionDurable] at durable
  split at durable
  · rename_i lsn found
    exact ⟨lsn, found, flushed lsn (logged.executed txId lsn found) durable⟩
  cases durable

/-- In every run whose flushes complete, whatever is reported as flushed is synchronised
in every state. -/
theorem flushedIsSynced_of_flushesComplete {inputs : List LogInput}
    (complete : EachStep step FlushesComplete (start cap) inputs) :
    Throughout step FlushedIsSynced (start cap) inputs := by
  have invariant : Throughout step
      (fun system : LoggedManager cap => system.Logged ∧ system.journal.Synced)
      (start cap) inputs := by
    apply throughout_of_eachStep _ _ complete
    · intro system input holds completes
      exact ⟨holds.1.step input, synced_step holds.2 completes⟩
    exact ⟨Logged.start cap, rfl⟩
  exact invariant.imp fun system holds => holds.1.flushedIsSynced holds.2

def acceptingSink (flush : Except WorldError Unit) : SinkAnswers where
  writeBatch _ := .ok ()
  flush := flush

def refusingSink : SinkAnswers where
  writeBatch _ := .error .walStorageUnavailable
  flush := .error .walStorageUnavailable

def retriedFlush : List LogInput :=
  [.append 1 7 0 opCurrencyDelta [1, 2], .flush refusingSink, .append 2 7 0 opCurrencyDelta [3],
    .flush (acceptingSink (.ok ()))]

theorem flushedIsSynced_retriedFlush : Throughout step FlushedIsSynced (start 4) retriedFlush := by
  apply flushedIsSynced_of_flushesComplete
  refine ⟨trivial, ?_, trivial, ?_, trivial⟩
  · exact Or.inr (Or.inl ⟨.walStorageUnavailable, rfl⟩)
  exact Or.inr (Or.inr ⟨fun _ _ => rfl, rfl⟩)

def unsyncedFlush : List LogInput :=
  [.append 1 7 0 opCurrencyDelta [1, 2], .flush (acceptingSink (.error .walStorageUnavailable))]

/-- After a flush whose batch is accepted and whose synchronisation fails the record is
reported as flushed. -/
theorem flushed_not_synced_of_failedFlush :
    ¬ Throughout step FlushedIsSynced (start 4) unsyncedFlush := by
  intro always
  have reported : ((run step (start 4) unsyncedFlush).journal.isFlushed 1) = true := by decide
  rcases always.run.number 1 (by decide) reported with ⟨record, member, _⟩
  revert member
  exact not_mem_nil

section Confirmed

theorem synced_prefix_step (system : LoggedManager cap) (input : LogInput) :
    system.journal.sink.synced <+: (step system input).journal.sink.synced := by
  cases input with
  | append tick accountId entityId opcode payloadData =>
    rw [step, WriteAheadJournal.sink_append]
  | flush answers => exact system.journal.synced_prefix_flushPending answers
  | execute txId op callerSessionId sourceToken currentTick => rw [sink_execute]
  | manage lockRegistry accounts => exact prefix_rfl

theorem Logged.syncedUnder (logged : system.Logged) {record : WalRecord}
    (synced : record ∈ system.journal.sink.synced) : SyncedUnder system.journal record.lsn := by
  have taken : record ∈ system.journal.records := mem_append_left _ (mem_of_mem_take synced)
  exact ⟨record, synced, rfl, fun below other otherTaken same =>
    logged.numbered.eq_of_lsn taken otherTaken same below⟩

variable {txId : UInt64} {op : TransactionOp} {callerSessionId : UInt64} {sourceToken : LockToken}
  {currentTick : UInt64} {durability : CommitDurability} {answers : SinkAnswers} {lsn : UInt64}
  {manager : TransactionManager} {journal : WriteAheadJournal cap}

theorem executeTransactionWithDurability_ok (gated : durability ≠ .inMemoryBuffered)
    (confirmed : system.manager.executeTransactionWithDurability txId op callerSessionId
      sourceToken currentTick system.journal durability answers = (.ok lsn, manager, journal)) :
    ∃ executed, step system (.execute txId op callerSessionId sourceToken currentTick) =
        { manager := manager, journal := executed, appended := system.appended ++ [lsn] } ∧
      manager.executedTxs.lookup txId = some (.committed lsn) ∧
      executed.ringBuffer.queued ≠ [] ∧
      ∃ total, executed.flushPending answers = (.ok total, journal) := by
  rcases system.manager.executeTransaction_cases txId op callerSessionId sourceToken
    currentTick system.journal with
    ⟨error, accounts, failed⟩ | ⟨record, accounts, number, executed, _, taken, succeeded⟩
  · rw [TransactionManager.executeTransactionWithDurability, failed] at confirmed
    cases confirmed
  have queued : executed.ringBuffer.queued ≠ [] := by
    rcases system.journal.append_cases currentTick record.accountId 0 record.opcode
      record.payload with ⟨error, refused⟩ | ⟨entry, after, result, _, _, _, _, queue⟩
    · rw [refused] at taken
      cases taken
    rw [result] at taken
    cases taken
    rw [queue]
    exact concat_ne_nil _ _
  rcases flushed : executed.flushPending answers with ⟨error | total, after⟩ <;>
    cases durability <;>
    simp only [TransactionManager.executeTransactionWithDurability, succeeded, flushed,
      ne_eq, not_true_eq_false] at confirmed gated <;>
    cases confirmed <;>
    exact ⟨executed, by simp only [step, succeeded, noteAppended],
      Finmap.lookup_insert _, queued, total, flushed⟩

/-- A durable commit confirms only what the disk has and keeps: whatever flushes failed
before and whatever happens later, its record and all records before it are synchronised. -/
theorem syncedUnder_of_confirmed {inputs : List LogInput}
    (gated : durability ≠ .inMemoryBuffered)
    (confirmed : (run step (start cap) inputs).manager.executeTransactionWithDurability txId op
      callerSessionId sourceToken currentTick (run step (start cap) inputs).journal durability
      answers = (.ok lsn, manager, journal)) (later : List LogInput) :
    manager.executedTxs.lookup txId = some (.committed lsn) ∧
      Throughout step
        (fun system => ∀ number ∈ (run step (start cap) inputs).appended ++ [lsn],
          SyncedUnder system.journal number)
        { manager := manager
          journal := journal
          appended := (run step (start cap) inputs).appended ++ [lsn] } later := by
  have logged := (@throughout_of_preserved _ _ step Logged
    (fun _ input logged => logged.step input) (start cap) (Logged.start cap) inputs).run
  generalize run step (start cap) inputs = system at confirmed logged ⊢
  obtain ⟨executed, stepped, committed, queued, total, flushed⟩ :=
    executeTransactionWithDurability_ok gated confirmed
  have taken := logged.step (.execute txId op callerSessionId sourceToken currentTick)
  rw [stepped] at taken
  have synchronised := taken.step (.flush answers)
  rw [step, flushed] at synchronised
  have all := WriteAheadJournal.synced_of_flushPending queued flushed
  refine ⟨committed, ?_⟩
  -- from here on the synchronised records only grow
  have invariant := @throughout_of_preserved _ _ step
    (fun later : LoggedManager cap =>
      later.Logged ∧ journal.sink.synced <+: later.journal.sink.synced)
    (fun later input holds =>
      ⟨holds.1.step input, holds.2.trans (later.synced_prefix_step input)⟩)
    _ ⟨synchronised, prefix_rfl⟩ later
  refine invariant.imp fun later holds number member => ?_
  have numbers : number ∈ journal.records.map WalRecord.lsn := synchronised.appended_eq ▸ member
  rcases List.mem_map.mp numbers with ⟨record, recorded, rfl⟩
  exact holds.1.syncedUnder (holds.2.subset (all ▸ recorded))

def failedFlush : List LogInput :=
  let manager := ((TransactionManager.new.registerAccount
    { AccountState.new 1001 with premiumCurrency := 1000 }).acquireLock 1001 lockWallet 555 10 50
      false).2
  .manage manager.lockRegistry manager.accounts :: unsyncedFlush

def confirmedSpend : Except WorldError UInt64 × TransactionManager × WriteAheadJournal 4 :=
  (run step (start 4) failedFlush).manager.executeTransactionWithDurability 1
    (.currencySpend 1001 700 true) 555 ⟨1001, lockWallet, 1, 555, 10, 50⟩ 12
    (run step (start 4) failedFlush).journal .localDiskFsync (acceptingSink (.ok ()))

theorem syncedUnder_of_confirmed_spend : SyncedUnder confirmedSpend.2.2 1 := by
  have confirmed : confirmedSpend.1 = .ok 2 := by decide +kernel
  have recorded : 1 ∈ (run step (start 4) failedFlush).appended ++ [2] := by decide +kernel
  rcases outcome : confirmedSpend with ⟨result, manager, journal⟩
  rw [outcome] at confirmed
  obtain rfl : result = .ok 2 := confirmed
  rw [confirmedSpend] at outcome
  exact (syncedUnder_of_confirmed (by decide) outcome []).2 1 recorded

end Confirmed

end LoggedManager

end Eidolon.World
