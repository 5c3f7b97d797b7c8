import Mathlib.Data.List.Sort
import Eidolon.Library.Tally
import Eidolon.World.Wal

/-!
# The durable file journal

Records framed one after another in an append-only file, and the recovery that reads
them back from its start.
-/

namespace Eidolon.World

open Library List

def journalMagic : Nat := 0xE1D04A52

inductive CommitDurability where
  | inMemoryBuffered
  | localDiskFsync
  | distributedQuorum
  deriving DecidableEq

/-- How the file operations of an append end: all succeed, or one of them fails with so
many bytes of the frame written. -/
inductive DiskOutcome where
  | synced
  | failed (written : Nat)
  deriving DecidableEq

inductive JournalError where
  | encoding (error : WorldError)
  | disk
  deriving DecidableEq

structure DurableFileJournal where
  file : List UInt8
  recordsWritten : UInt64
  bytesWritten : UInt64
  deriving DecidableEq

namespace DurableFileJournal

def openFile (file : List UInt8) : DurableFileJournal where
  file := file
  recordsWritten := 0
  bytesWritten := UInt64.ofNat file.length

def frame (encoded : List UInt8) : List UInt8 :=
  bigEndian 4 journalMagic ++ bigEndian 4 encoded.length ++ encoded

def appendAndSync (journal : DurableFileJournal) (record : WalRecord) (disk : DiskOutcome) :
    Except JournalError Nat × DurableFileJournal :=
  match record.encode (walHeaderLen + maxWalPayloadLen + 4) with
  | .error error => (.error (.encoding error), journal)
  | .ok encoded =>
    match disk with
    | .failed written =>
      (.error .disk, { journal with file := journal.file ++ (frame encoded).take written })
    | .synced =>
      let totalWritten := 8 + encoded.length
      (.ok totalWritten,
        { file := journal.file ++ frame encoded
          recordsWritten := journal.recordsWritten + 1
          bytesWritten := journal.bytesWritten + UInt64.ofNat totalWritten })

/-- The loop of `recover_from_journal` over what is left of the buffer.  Every turn takes
a frame off it, so that as many turns as bytes are enough. -/
def recoverFrames : Nat → List UInt8 → List WalRecord
  | 0, _ => []
  | turns + 1, buffer =>
    if buffer.length < 8 then
      []
    else if WalRecord.field buffer 0 4 ≠ journalMagic then
      []
    else
      let recordLen := WalRecord.field buffer 4 4
      let buffer := buffer.drop 8
      if buffer.length < recordLen then
        []
      else
        match WalRecord.decode (buffer.take recordLen) with
        | .ok (record, consumed) => record :: recoverFrames turns (buffer.drop consumed)
        | .error _ => []

def recoverFromJournal (file : Option (List UInt8)) : List WalRecord :=
  match file with
  | none => []
  | some buffer => recoverFrames buffer.length buffer

end DurableFileJournal

end Eidolon.World

/-!
## The replicated journal

A primary journal with replicas.  In the quorum mode a record is confirmed once enough of
them have appended it, and recovery takes the records that enough journals report.
-/

namespace Eidolon.World

open Library List

inductive ReplicationMode where
  | localOnly
  | synchronousQuorum (totalNodes requiredAcks : Nat)
  | asynchronousMirror
  deriving DecidableEq

inductive ReplicationError where
  | journal (error : JournalError)
  | quorumWriteFailed (required achieved : Nat)
  deriving DecidableEq

structure ReplicatedJournalSink where
  primary : DurableFileJournal
  replicas : List DurableFileJournal
  mode : ReplicationMode
  recordsReplicated : UInt64
  bytesReplicated : UInt64
  quorumSuccesses : UInt64
  quorumFailures : UInt64
  deriving DecidableEq

namespace ReplicatedJournalSink

def new (primaryFile : List UInt8) (mode : ReplicationMode) : ReplicatedJournalSink where
  primary := DurableFileJournal.openFile primaryFile
  replicas := []
  mode := mode
  recordsReplicated := 0
  bytesReplicated := 0
  quorumSuccesses := 0
  quorumFailures := 0

variable (sink : ReplicatedJournalSink)

def addReplica (replicaFile : List UInt8) :
    ReplicatedJournalSink :=
  { sink with replicas := sink.replicas ++ [DurableFileJournal.openFile replicaFile] }

theorem foldl_addReplica (replicaFiles : List (List UInt8)) (sink : ReplicatedJournalSink) :
    replicaFiles.foldl addReplica sink =
      { sink with
        replicas := sink.replicas ++ replicaFiles.map DurableFileJournal.openFile } := by
  induction replicaFiles generalizing sink with
  | nil => rw [foldl_nil, map_nil, append_nil]
  | cons replicaFile rest ih =>
    rw [foldl_cons, ih, addReplica, map_cons, append_assoc, singleton_append]

def appendReplicas (record : WalRecord) (replicaDisks : Nat → DiskOutcome)
    (replicas : List DurableFileJournal) :
    List (Except JournalError Nat × DurableFileJournal) :=
  replicas.mapIdx fun index replica => replica.appendAndSync record (replicaDisks index)

/-- Appends a record to the primary journal and replicates it by the mode.  The disks
decide how each append ends. -/
def appendAndReplicate (record : WalRecord) (primaryDisk : DiskOutcome)
    (replicaDisks : Nat → DiskOutcome) :
    Except ReplicationError Nat × ReplicatedJournalSink :=
  match sink.primary.appendAndSync record primaryDisk with
  | (.error error, primary) => (.error (.journal error), { sink with primary := primary })
  | (.ok bytesWritten, primary) =>
    let appends := appendReplicas record replicaDisks sink.replicas
    let confirmed : ReplicatedJournalSink :=
      { sink with
        primary := primary
        recordsReplicated := sink.recordsReplicated + 1
        bytesReplicated := sink.bytesReplicated + UInt64.ofNat bytesWritten }
    match sink.mode with
    | .localOnly => (.ok bytesWritten, confirmed)
    | .asynchronousMirror => (.ok bytesWritten, { confirmed with replicas := appends.map Prod.snd })
    | .synchronousQuorum _ requiredAcks =>
      let acks := 1 + appends.countP (·.1.isOk)
      if requiredAcks ≤ acks then
        (.ok bytesWritten,
          { confirmed with
            replicas := appends.map Prod.snd
            quorumSuccesses := sink.quorumSuccesses + 1 })
      else
        (.error (.quorumWriteFailed requiredAcks acks),
          { sink with
            primary := primary
            replicas := appends.map Prod.snd
            quorumFailures := sink.quorumFailures + 1 })

/-- The loop over the sorted sequence numbers in `recover_quorum`: numbers without enough
acknowledgments are passed over, and the first gap between the others ends it. -/
def commitFrom (ackMap : List (WalRecord × Nat)) (requiredAcks : Nat) :
    Nat → List UInt64 → List WalRecord
  | _, [] => []
  | expectedLsn, lsn :: sortedLsns =>
    match Tally.lookup WalRecord.lsn ackMap lsn with
    | none => commitFrom ackMap requiredAcks expectedLsn sortedLsns
    | some (record, acks) =>
      if requiredAcks ≤ acks then
        if lsn.toNat = expectedLsn then
          record :: commitFrom ackMap requiredAcks (expectedLsn + 1) sortedLsns
        else if lsn.toNat < expectedLsn then
          commitFrom ackMap requiredAcks expectedLsn sortedLsns
        else
          []
      else
        commitFrom ackMap requiredAcks expectedLsn sortedLsns

/-- Recovers the committed records from journal files; a file that is not there or cannot
be read has none. -/
def recoverQuorum (journals : List (Option (List UInt8))) (requiredAcks : Nat) : List WalRecord :=
  if journals.isEmpty || requiredAcks == 0 then
    []
  else
    let ackMap :=
      Tally.tally WalRecord.lsn (journals.flatMap DurableFileJournal.recoverFromJournal)
    let sortedLsns := (ackMap.map fun entry => entry.1.lsn).insertionSort (· ≤ ·)
    commitFrom ackMap requiredAcks 1 sortedLsns

end ReplicatedJournalSink

end Eidolon.World
