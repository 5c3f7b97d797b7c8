import Eidolon.Library.Run
import Eidolon.World.QuorumRecovery

/-!
# Durability of replicated records

A caller passes records with consecutive sequence numbers to a group of journals in the
quorum mode, and may retry a record that is not confirmed or move on.  Recovery stops at
the first number without enough acknowledgments, so that the confirmed records behind it
are lost.  They are all recovered exactly when a record is confirmed only after every
earlier number has its acknowledgments, as long as no journal is appended to behind what a
failed append has left of a frame.
-/

namespace Eidolon.World

open Library List

namespace DurableFileJournal

def Whole (file : List UInt8) : Prop :=
  (recoverFromJournal (some file)).flatMap recordFrame = file

instance (file : List UInt8) : Decidable (Whole file) :=
  inferInstanceAs (Decidable (_ = _))

/-- Whether an append leaves the whole frame in the file. -/
def lands (record : WalRecord) : DiskOutcome → Bool
  | .synced => true
  | .failed written => decide ((recordFrame record).length ≤ written)

theorem appendAndSync_isOk (journal : DurableFileJournal) (record : WalRecord) (disk : DiskOutcome) :
    (journal.appendAndSync record disk).1.isOk = decide (disk = .synced) := by
  cases disk with
  | synced =>
    rw [(journal.appendAndSync_synced record).1]
    rfl
  | failed written => simp [appendAndSync, record.encode_eq_ok, Except.isOk, Except.toBool]

private theorem readFrame_torn (record : WalRecord) {written : Nat}
    (torn : written < (recordFrame record).length) :
    readFrame ((recordFrame record).take written) = none := by
  have whole : (recordFrame record).length = 8 + record.encoded.length := by
    rw [recordFrame, frame, length_append, length_append, length_bigEndian, length_bigEndian]
  rw [readFrame]
  by_cases short : ((recordFrame record).take written).length < 8
  · rw [if_pos short]
  have long : 8 ≤ written := by
    rw [length_take] at short
    omega
  have header : (recordFrame record).take written = bigEndian 4 journalMagic ++
        (bigEndian 4 record.encoded.length ++ record.encoded.take (written - 8)) := by
    rw [recordFrame, frame, take_append, take_of_length_le (by simp; omega)]
    simp
  have encodedLength := record.length_encoded
  have limit : maxWalPayloadLen = 128 := rfl
  have headerLen : walHeaderLen = 30 := rfl
  have magicRead : WalRecord.field ((recordFrame record).take written) 0 4 = journalMagic := by
    rw [header, WalRecord.field_bigEndian _ (by decide)]
  have lengthRead : WalRecord.field ((recordFrame record).take written) 4 4 =
      record.encoded.length := by
    rw [header, WalRecord.field_append_right (by rw [length_bigEndian]), length_bigEndian,
      WalRecord.field_bigEndian _ (by omega)]
  have missing : (((recordFrame record).take written).drop 8).length <
      record.encoded.length := by
    rw [length_drop, length_take]
    omega
  simp only [if_neg short, magicRead, ne_eq, not_true_eq_false, if_false, lengthRead,
    if_pos missing]

private theorem nonempty_frame (record : WalRecord) : 0 < (recordFrame record).length := by
  rw [recordFrame, frame, length_append, length_append, length_bigEndian]
  omega

private theorem recover_frames_append {records : List WalRecord} {tail : List UInt8}
    (wellFormed : ∀ record ∈ records, record.WellFormed) (unread : readFrame tail = none) :
    recoverFromJournal (some (records.flatMap recordFrame ++ tail)) = records := by
  have enough : records.length ≤ (records.flatMap recordFrame ++ tail).length := by
    have framed := Framing.length_le_flatMap fun record (_ : record ∈ records) =>
      nonempty_frame record
    rw [length_append]
    omega
  have turns : (records.flatMap recordFrame ++ tail).length =
      records.length + ((records.flatMap recordFrame ++ tail).length - records.length) := by
    omega
  rw [recoverFromJournal, recoverFrames_eq_readAll, turns,
    Framing.readAll_flatMap_append fun record member =>
      readFrame_undoes (wellFormed record member)]
  have nothing : ∀ more, Framing.readAll readFrame more tail = [] := by
    intro more
    cases more with
    | zero => rfl
    | succ more => rw [Framing.readAll, unread]
  rw [nothing, append_nil]

private theorem readFrame_nil : readFrame [] = none :=
  rfl

theorem recover_appendAndSync {journal : DurableFileJournal} (whole : Whole journal.file)
    {record : WalRecord} (wellFormed : record.WellFormed) (disk : DiskOutcome) :
    recoverFromJournal (some (journal.appendAndSync record disk).2.file) =
      recoverFromJournal (some journal.file) ++ (if lands record disk then [record] else []) := by
  have good : ∀ read ∈ recoverFromJournal (some journal.file), read.WellFormed := by
    intro read member
    rw [recoverFromJournal, recoverFrames_eq_readAll] at member
    exact Framing.forall_mem_readAll wellFormed_of_readFrame _ _ read member
  have landed : recoverFromJournal (some (journal.file ++ recordFrame record)) =
      recoverFromJournal (some journal.file) ++ [record] := by
    have goodAll : ∀ read ∈ recoverFromJournal (some journal.file) ++ [record],
        read.WellFormed := by
      intro read member
      rcases mem_append.mp member with before | last
      · exact good read before
      rw [mem_singleton.mp last]
      exact wellFormed
    have read := recover_frames_append goodAll readFrame_nil
    rw [flatMap_append, whole, flatMap_singleton, append_nil] at read
    exact read
  cases disk with
  | synced =>
    rw [(journal.appendAndSync_synced record).2, landed]
    rfl
  | failed written =>
    rw [journal.appendAndSync_failed]
    by_cases all : (recordFrame record).length ≤ written
    · rw [take_of_length_le all, landed, lands, if_pos (decide_eq_true all)]
    have read := recover_frames_append good (readFrame_torn record (Nat.not_le.mp all))
    rw [whole] at read
    rw [read, lands, if_neg (by simpa using all), append_nil]

end DurableFileJournal

/-- One call of `append_and_replicate`, with the disks that decide how its appends end. -/
structure ReplicationCall where
  record : WalRecord
  primaryDisk : DiskOutcome
  replicaDisks : Nat → DiskOutcome

/-- A group of journals, the last record passed with whether it was confirmed, and all
confirmed records. -/
structure ReplicationHistory where
  sink : ReplicatedJournalSink
  last : Option (WalRecord × Bool)
  confirmed : List WalRecord

namespace ReplicationHistory

open DurableFileJournal ReplicatedJournalSink

/-- A new group: a primary and so many replicas, all of them empty. -/
def start (replicaCount totalNodes requiredAcks : Nat) : ReplicationHistory where
  sink :=
    (List.replicate replicaCount []).foldl ReplicatedJournalSink.addReplica
      (ReplicatedJournalSink.new [] (.synchronousQuorum totalNodes requiredAcks))
  last := none
  confirmed := []

variable (history : ReplicationHistory) (call : ReplicationCall)

def step : ReplicationHistory :=
  let (result, after) :=
    history.sink.appendAndReplicate call.record call.primaryDisk call.replicaDisks
  { sink := after
    last := some (call.record, result.isOk)
    confirmed :=
      if result.isOk then call.record :: history.confirmed else history.confirmed }

def files (sink : ReplicatedJournalSink) : List (Option (List UInt8)) :=
  some sink.primary.file :: sink.replicas.map fun replica => some replica.file

/-- The caller starts at 1, moves on to the next number, or retries the record that was
not confirmed. -/
def Consecutive : Prop :=
  match history.last with
  | none => call.record.lsn.toNat = 1
  | some (record, confirmed) =>
    call.record.lsn.toNat = record.lsn.toNat + 1 ∨ (confirmed = false ∧ call.record = record)

/-- The record is as the source builds it, and the journals that the call appends to
consist of whole frames. -/
def AppendsBehindWholeFrames : Prop :=
  call.record.WellFormed ∧ Whole history.sink.primary.file ∧
    (call.primaryDisk = .synced → ∀ replica ∈ history.sink.replicas, Whole replica.file)

variable (requiredAcks : Nat)

def Confirms (history : ReplicationHistory) (call : ReplicationCall) :
    Prop :=
  call.primaryDisk = .synced ∧ requiredAcks ≤
      1 + (history.sink.replicas.mapIdx fun index _ => call.replicaDisks index).countP
        fun disk => decide (disk = .synced)

/-- A call that is confirmed comes when every earlier number has its acknowledgments. -/
def ConfirmsInOrder (history : ReplicationHistory) (call : ReplicationCall) : Prop :=
  Confirms requiredAcks history call → 0 < requiredAcks ∧
    ∀ earlier : UInt64, 1 ≤ earlier.toNat → earlier.toNat < call.record.lsn.toNat →
      requiredAcks ≤ (copies (files history.sink) earlier).length

def RecoversConfirmed (history : ReplicationHistory) : Prop :=
  ∀ record ∈ history.confirmed, record ∈ recoverQuorum (files history.sink) requiredAcks

private def Grown (record : WalRecord) (before after : List (Option (List UInt8))) : Prop :=
  List.Forall₂ (fun old new =>
    recoverFromJournal new = recoverFromJournal old ∨
      recoverFromJournal new = recoverFromJournal old ++ [record]) before after

private theorem copies_cons (journal : Option (List UInt8))
    (journals : List (Option (List UInt8))) (lsn : UInt64) :
    copies (journal :: journals) lsn =
      Tally.withKey WalRecord.lsn (recoverFromJournal journal) lsn ++ copies journals lsn := by
  rw [copies, flatMap_cons, Tally.withKey_append]
  rfl

variable {record : WalRecord}

private theorem Grown.copies_eq {before after : List (Option (List UInt8))}
    (grown : Grown record before after) {lsn : UInt64} (other : lsn ≠ record.lsn) :
    copies after lsn = copies before lsn := by
  induction grown with
  | nil => rfl
  | cons one rest ih =>
    rw [copies_cons, copies_cons, ih]
    rcases one with same | longer
    · rw [same]
    have none : Tally.withKey WalRecord.lsn [record] lsn = [] := by
      simp [Tally.withKey, Ne.symm other]
    rw [longer, Tally.withKey_append, none, append_nil]

private theorem Grown.length_copies_le {before after : List (Option (List UInt8))}
    (grown : Grown record before after) (lsn : UInt64) :
    (copies before lsn).length ≤ (copies after lsn).length := by
  induction grown with
  | nil => exact Nat.le_refl _
  | cons one rest ih =>
    rw [copies_cons, copies_cons, length_append, length_append]
    rcases one with same | longer
    · rw [same]
      omega
    rw [longer, Tally.withKey_append, length_append]
    omega

variable {read : WalRecord}

private theorem Grown.mem {before after : List (Option (List UInt8))}
    (grown : Grown record before after) (member : read ∈ after.flatMap recoverFromJournal) :
    read ∈ before.flatMap recoverFromJournal ∨ read = record := by
  induction grown with
  | nil => exact .inl member
  | cons one rest ih =>
    rcases mem_append.mp member with here | later
    · rcases one with same | longer
      · rw [same] at here
        exact .inl (mem_append_left _ here)
      rw [longer] at here
      rcases mem_append.mp here with old | last
      · exact .inl (mem_append_left _ old)
      exact .inr (mem_singleton.mp last)
    rcases ih later with old | new
    · exact .inl (mem_append_right _ old)
    exact .inr new

private theorem grown_refl (record : WalRecord) (journals : List (Option (List UInt8))) :
    Grown record journals journals :=
  forall₂_same.mpr fun _ _ => .inl rfl

private theorem read_appendAndSync {journal : DurableFileJournal} (whole : Whole journal.file)
    (wellFormed : record.WellFormed) (disk : DiskOutcome) :
    recoverFromJournal (some (journal.appendAndSync record disk).2.file) =
        recoverFromJournal (some journal.file) ∨
      recoverFromJournal (some (journal.appendAndSync record disk).2.file) =
        recoverFromJournal (some journal.file) ++ [record] := by
  rw [recover_appendAndSync whole wellFormed]
  cases lands record disk with
  | true => exact .inr rfl
  | false => exact .inl (append_nil _)

private theorem grown_appendReplicas (wellFormed : record.WellFormed)
    (replicaDisks : Nat → DiskOutcome) {replicas : List DurableFileJournal}
    (whole : ∀ replica ∈ replicas, Whole replica.file) :
    Grown record (replicas.map fun replica => some replica.file)
      (((appendReplicas record replicaDisks replicas).map Prod.snd).map
        fun replica => some replica.file) := by
  rw [appendReplicas, mapIdx_eq_zipIdx_map, map_map, map_map]
  induction replicas using List.reverseRecOn with
  | nil => exact List.Forall₂.nil
  | append_singleton replicas replica ih =>
    rw [zipIdx_append, map_append, map_append]
    apply rel_append
    · apply ih
      intro other member
      exact whole other (mem_append_left _ member)
    exact List.Forall₂.cons (read_appendAndSync (whole replica (mem_append_right _ mem_cons_self))
        wellFormed _) List.Forall₂.nil

private theorem countP_appendReplicas (record : WalRecord) (replicaDisks : Nat → DiskOutcome)
    (replicas : List DurableFileJournal) :
    (appendReplicas record replicaDisks replicas).countP (·.1.isOk) =
      (replicas.mapIdx fun index _ => replicaDisks index).countP
        fun disk => decide (disk = .synced) := by
  rw [appendReplicas, mapIdx_eq_zipIdx_map, mapIdx_eq_zipIdx_map, countP_map, countP_map]
  congr 1
  funext place
  exact appendAndSync_isOk _ _ _

variable {history : ReplicationHistory} {totalNodes requiredAcks : Nat}

private theorem step_quorum (mode : history.sink.mode = .synchronousQuorum totalNodes requiredAcks)
    (call : ReplicationCall) :
    (history.step call).sink.mode = history.sink.mode ∧ (history.step call).sink.primary =
        (history.sink.primary.appendAndSync call.record call.primaryDisk).2 ∧
      (history.step call).sink.replicas = (if call.primaryDisk = .synced then
          (appendReplicas call.record call.replicaDisks history.sink.replicas).map Prod.snd
        else history.sink.replicas) ∧
      (Confirms requiredAcks history call ∧ (history.step call).last = some (call.record, true) ∧
          (history.step call).confirmed = call.record :: history.confirmed ∨
        ¬ Confirms requiredAcks history call ∧
          (history.step call).last = some (call.record, false) ∧
          (history.step call).confirmed = history.confirmed) := by
  have primaryOk := appendAndSync_isOk history.sink.primary call.record call.primaryDisk
  rw [step, appendAndReplicate]
  rcases written : history.sink.primary.appendAndSync call.record call.primaryDisk with
    ⟨result, primary⟩
  rw [written] at primaryOk
  rcases result with error | bytesWritten
  · have failed : call.primaryDisk ≠ .synced := by
      intro synced
      rw [synced] at primaryOk
      cases primaryOk
    refine ⟨rfl, rfl, ?_, .inr ⟨fun confirms => failed confirms.1, rfl, rfl⟩⟩
    rw [if_neg failed]
  have synced : call.primaryDisk = .synced := of_decide_eq_true primaryOk.symm
  simp only [mode]
  rw [Confirms, ← countP_appendReplicas call.record, if_pos synced]
  by_cases enough : requiredAcks ≤ 1 +
      (appendReplicas call.record call.replicaDisks history.sink.replicas).countP (·.1.isOk)
  · rw [if_pos enough]
    exact ⟨rfl, rfl, rfl, .inl ⟨⟨synced, enough⟩, rfl, rfl⟩⟩
  rw [if_neg enough]
  exact ⟨rfl, rfl, rfl, .inr ⟨fun confirms => enough confirms.2, rfl, rfl⟩⟩

variable {call : ReplicationCall}

private theorem grown_step (mode : history.sink.mode = .synchronousQuorum totalNodes requiredAcks)
    (behind : AppendsBehindWholeFrames history call) :
    Grown call.record (files history.sink) (files (history.step call).sink) := by
  obtain ⟨wellFormed, primaryWhole, replicasWhole⟩ := behind
  obtain ⟨-, primaryIs, replicasAre, -⟩ := step_quorum mode call
  rw [files, files, primaryIs, replicasAre]
  apply List.Forall₂.cons
  · exact read_appendAndSync primaryWhole wellFormed call.primaryDisk
  by_cases synced : call.primaryDisk = .synced
  · rw [if_pos synced]
    exact grown_appendReplicas wellFormed call.replicaDisks (replicasWhole synced)
  rw [if_neg synced]
  exact grown_refl _ _

private theorem copies_of_confirms
    (mode : history.sink.mode = .synchronousQuorum totalNodes requiredAcks)
    (behind : AppendsBehindWholeFrames history call)
    (confirms : Confirms requiredAcks history call) :
    requiredAcks ≤ (copies (files (history.step call).sink) call.record.lsn).length := by
  obtain ⟨wellFormed, primaryWhole, replicasWhole⟩ := behind
  obtain ⟨-, primaryIs, replicasAre, -⟩ := step_quorum mode call
  rw [length_copies_eq]
  have held : 1 + (history.sink.replicas.mapIdx fun index _ => call.replicaDisks index).countP
      (fun disk => decide (disk = .synced)) ≤
        holders (files (history.step call).sink) call.record := by
    rw [holders, files, primaryIs, replicasAre, if_pos confirms.1, countP_cons,
      recover_appendAndSync primaryWhole wellFormed, confirms.1, lands, countP_map,
      countP_map, ← countP_appendReplicas call.record]
    have own : decide (call.record ∈
        recoverFromJournal (some history.sink.primary.file) ++ [call.record]) = true := by
      simp
    simp only [if_true, own]
    rw [Nat.add_comm]
    apply Nat.add_le_add_right
    apply countP_mono_left
    intro append member acked
    rw [appendReplicas, mem_mapIdx] at member
    obtain ⟨index, inside, appendIs⟩ := member
    have whole := replicasWhole confirms.1 _ (getElem_mem inside)
    rw [← appendIs, appendAndSync_isOk] at acked
    have synced : call.replicaDisks index = .synced := of_decide_eq_true acked
    simp only [Function.comp_apply, decide_eq_true_eq]
    rw [← appendIs, recover_appendAndSync whole wellFormed, synced, lands]
    simp
  have enough := confirms.2
  omega


/-- What every state of a run satisfies: readings of one number are the same record, and
none is past the last record passed. -/
structure Ordered (totalNodes requiredAcks : Nat) (history : ReplicationHistory) : Prop where
  mode : history.sink.mode = .synchronousQuorum totalNodes requiredAcks
  same : ∀ first ∈ (files history.sink).flatMap recoverFromJournal,
    ∀ second ∈ (files history.sink).flatMap recoverFromJournal,
      first.lsn = second.lsn → first = second
  reached : ∀ read ∈ (files history.sink).flatMap recoverFromJournal,
    ∃ record confirmed, history.last = some (record, confirmed) ∧
      read.lsn.toNat ≤ record.lsn.toNat ∧ (read.lsn = record.lsn → read = record)
  positive : ∀ record confirmed, history.last = some (record, confirmed) →
    1 ≤ record.lsn.toNat

private theorem files_start (replicaCount totalNodes requiredAcks : Nat) :
    ∀ file ∈ files (start replicaCount totalNodes requiredAcks).sink, file = some [] := by
  intro file member
  rw [start, ReplicatedJournalSink.foldl_addReplica] at member
  rcases mem_cons.mp member with own | other
  · rw [own]
    rfl
  obtain ⟨replica, replicaMember, fileIs⟩ := mem_map.mp other
  obtain ⟨replicaFile, isEmpty, opened⟩ := mem_map.mp replicaMember
  rw [← fileIs, ← opened, eq_of_mem_replicate isEmpty]
  rfl

private theorem ordered_start (replicaCount totalNodes requiredAcks : Nat) :
    Ordered totalNodes requiredAcks (start replicaCount totalNodes requiredAcks) := by
  have nothing : (files (start replicaCount totalNodes requiredAcks).sink).flatMap
      recoverFromJournal = [] := by
    apply flatMap_eq_nil_iff.mpr
    intro file member
    rw [files_start replicaCount totalNodes requiredAcks file member]
    rfl
  have modeKept : (start replicaCount totalNodes requiredAcks).sink.mode =
      .synchronousQuorum totalNodes requiredAcks := by
    rw [start, ReplicatedJournalSink.foldl_addReplica]
    rfl
  refine ⟨modeKept, ?_, ?_, ?_⟩
  · rw [nothing]
    exact fun first member => absurd member not_mem_nil
  · rw [nothing]
    exact fun first member => absurd member not_mem_nil
  intro record confirmed impossible
  cases impossible

private theorem Grown.mem_of_before {before after : List (Option (List UInt8))}
    (grown : Grown record before after) (member : read ∈ before.flatMap recoverFromJournal) :
    read ∈ after.flatMap recoverFromJournal := by
  induction grown with
  | nil => exact member
  | cons one rest ih =>
    rcases mem_append.mp member with here | later
    · apply mem_append_left
      rcases one with same | longer
      · rw [same]
        exact here
      rw [longer]
      exact mem_append_left _ here
    exact mem_append_right _ (ih later)

section

variable (ordered : Ordered totalNodes requiredAcks history)
include ordered

private theorem Ordered.eq_of_lsn (consecutive : Consecutive history call)
    (member : read ∈ (files history.sink).flatMap recoverFromJournal) :
    read.lsn.toNat ≤ call.record.lsn.toNat ∧ (read.lsn = call.record.lsn → read = call.record) := by
  obtain ⟨record, confirmed, lastIs, le, same⟩ := ordered.reached read member
  rw [Consecutive, lastIs] at consecutive
  rcases consecutive with next | retried
  · refine ⟨by omega, ?_⟩
    intro sameLsn
    rw [sameLsn] at le
    omega
  rw [retried.2]
  exact ⟨le, same⟩

private theorem ordered_step (consecutive : Consecutive history call)
    (behind : AppendsBehindWholeFrames history call) :
    Ordered totalNodes requiredAcks (history.step call) := by
  have grown := grown_step ordered.mode behind
  obtain ⟨modeKept, -, -, outcome⟩ := step_quorum ordered.mode call
  have lastIs : ∃ confirmed, (history.step call).last = some (call.record, confirmed) := by
    rcases outcome with confirms | fails
    · exact ⟨true, confirms.2.1⟩
    exact ⟨false, fails.2.1⟩
  obtain ⟨confirmed, lastIs⟩ := lastIs
  refine ⟨modeKept.trans ordered.mode, ?_, ?_, ?_⟩
  · intro first firstMember second secondMember sameLsn
    rcases grown.mem firstMember with firstOld | firstNew
    · rcases grown.mem secondMember with secondOld | secondNew
      · exact ordered.same first firstOld second secondOld sameLsn
      rw [secondNew] at sameLsn ⊢
      exact (ordered.eq_of_lsn consecutive firstOld).2 sameLsn
    rcases grown.mem secondMember with secondOld | secondNew
    · rw [firstNew] at sameLsn ⊢
      exact ((ordered.eq_of_lsn consecutive secondOld).2 sameLsn.symm).symm
    rw [firstNew, secondNew]
  · intro read member
    refine ⟨call.record, confirmed, lastIs, ?_⟩
    rcases grown.mem member with old | new
    · exact ordered.eq_of_lsn consecutive old
    rw [new]
    exact ⟨Nat.le_refl _, fun _ => rfl⟩
  intro record flag lastAgain
  cases lastAgain
  rw [Consecutive] at consecutive
  rcases before : history.last with _ | ⟨record, flag⟩
  · rw [before] at consecutive
    exact Nat.le_of_eq consecutive.symm
  rw [before] at consecutive
  have positive := ordered.positive record flag before
  rcases consecutive with next | retried
  · omega
  rw [retried.2]
  exact positive

private theorem mem_recoverQuorum_of_ordered (positive : 0 < requiredAcks)
    (member : record ∈ (files history.sink).flatMap recoverFromJournal)
    (positiveLsn : 1 ≤ record.lsn.toNat)
    (counted : Counted (files history.sink) requiredAcks record.lsn) :
    record ∈ recoverQuorum (files history.sink) requiredAcks := by
  refine (mem_recoverQuorum_iff positive).mpr ⟨positiveLsn, counted, ?_⟩
  have listed : record ∈ copies (files history.sink) record.lsn :=
    Tally.mem_withKey.mpr ⟨member, rfl⟩
  obtain ⟨first, more, split⟩ := exists_cons_of_ne_nil (ne_nil_of_mem listed)
  have firstListed : first ∈ copies (files history.sink) record.lsn := by
    rw [split]
    exact mem_cons_self
  obtain ⟨firstMember, sameLsn⟩ := Tally.mem_withKey.mp firstListed
  rw [split, head?_cons, ordered.same first firstMember record member sameLsn]

/-- A call from a state in which every confirmed record is recovered keeps it so exactly
if it confirms in order. -/
private theorem recoversConfirmed_step_iff (consecutive : Consecutive history call)
    (behind : AppendsBehindWholeFrames history call)
    (recovers : RecoversConfirmed requiredAcks history) :
    RecoversConfirmed requiredAcks (history.step call) ↔
      ConfirmsInOrder requiredAcks history call := by
  have grown := grown_step ordered.mode behind
  have nextOrdered := ordered_step ordered consecutive behind
  obtain ⟨-, -, -, outcome⟩ := step_quorum ordered.mode call
  -- what was recovered still is
  have kept : ∀ record ∈ history.confirmed,
      record ∈ recoverQuorum (files (history.step call).sink) requiredAcks := by
    intro record member
    have recovered := recovers record member
    by_cases positive : 0 < requiredAcks
    · obtain ⟨positiveLsn, counted, firstIs⟩ := (mem_recoverQuorum_iff positive).mp recovered
      have read := (Tally.mem_withKey.mp (mem_of_mem_head? firstIs)).1
      apply mem_recoverQuorum_of_ordered nextOrdered positive (grown.mem_of_before read) positiveLsn
      intro earlier positiveEarlier before
      exact Nat.le_trans (counted earlier positiveEarlier before) (grown.length_copies_le earlier)
    have zero : requiredAcks = 0 := by omega
    rw [zero, recoverQuorum] at recovered
    simp at recovered
  rcases outcome with confirmed | failed
  · obtain ⟨confirms, lastIs, confirmedIs⟩ := confirmed
    have ownLsn := nextOrdered.positive call.record true lastIs
    constructor
    · intro always _
      have own := always call.record (by rw [confirmedIs]; exact mem_cons_self)
      have positive : 0 < requiredAcks := by
        by_contra none
        have zero : requiredAcks = 0 := by omega
        rw [zero, recoverQuorum] at own
        simp at own
      refine ⟨positive, ?_⟩
      intro earlier positiveEarlier before
      have counted := ((mem_recoverQuorum_iff positive).mp own).2.1 earlier positiveEarlier
        (Nat.le_of_lt before)
      have other : earlier ≠ call.record.lsn := by
        intro same
        rw [same] at before
        exact Nat.lt_irrefl _ before
      rw [grown.copies_eq other] at counted
      exact counted
    intro inOrder record member
    obtain ⟨positive, earlierCounted⟩ := inOrder confirms
    rw [confirmedIs] at member
    rcases mem_cons.mp member with this | old
    · rw [this]
      have enough := copies_of_confirms ordered.mode behind confirms
      have read : call.record ∈ (files (history.step call).sink).flatMap recoverFromJournal := by
        obtain ⟨first, more, split⟩ := exists_cons_of_length_pos
          (Nat.lt_of_lt_of_le positive enough)
        have firstListed : first ∈ copies (files (history.step call).sink) call.record.lsn := by
          rw [split]
          exact mem_cons_self
        obtain ⟨firstMember, sameLsn⟩ := Tally.mem_withKey.mp firstListed
        rcases grown.mem firstMember with before | new
        · have firstIs := (ordered.eq_of_lsn consecutive before).2 sameLsn
          rw [← firstIs]
          exact firstMember
        rw [← new]
        exact firstMember
      apply mem_recoverQuorum_of_ordered nextOrdered positive read ownLsn
      intro earlier positiveEarlier before
      by_cases own : earlier = call.record.lsn
      · rw [own]
        exact enough
      have different : earlier.toNat ≠ call.record.lsn.toNat :=
        fun same => own (UInt64.toNat_inj.mp same)
      exact Nat.le_trans (earlierCounted earlier positiveEarlier (by omega))
        (grown.length_copies_le earlier)
    exact kept record old
  obtain ⟨fails, -, confirmedIs⟩ := failed
  refine iff_of_true ?_ (fun confirms => absurd confirms fails)
  intro record member
  rw [confirmedIs] at member
  exact kept record member

end

/-- In every run in which no journal is appended to behind what is left of a frame,
recovery returns every confirmed record at every moment, if and only if every record is
confirmed after the numbers before it have their acknowledgments. -/
theorem recoversConfirmed_throughout_iff {replicaCount totalNodes requiredAcks : Nat}
    {calls : List ReplicationCall}
    (consecutive : EachStep step Consecutive (start replicaCount totalNodes requiredAcks) calls)
    (behind : EachStep step AppendsBehindWholeFrames
      (start replicaCount totalNodes requiredAcks) calls) :
    Throughout step (RecoversConfirmed requiredAcks)
        (start replicaCount totalNodes requiredAcks) calls ↔
      EachStep step (ConfirmsInOrder requiredAcks)
        (start replicaCount totalNodes requiredAcks) calls := by
  apply @throughout_iff_eachStep_of_assumed _ _ step
    (fun history call => Consecutive history call ∧ AppendsBehindWholeFrames history call)
    (ConfirmsInOrder requiredAcks) (Ordered totalNodes requiredAcks)
  · exact fun history call ordered assumed => ordered_step ordered assumed.1 assumed.2
  · exact fun history call ordered assumed recovers =>
      recoversConfirmed_step_iff ordered assumed.1 assumed.2 recovers
  · exact ordered_start replicaCount totalNodes requiredAcks
  · exact fun record member => absurd member not_mem_nil
  exact consecutive.and behind

/-- A call with a record as the source builds it; each disk writes all or nothing. -/
def sampleCall (lsn : UInt64) (primary : Bool) (replicas : Nat → Bool) : ReplicationCall where
  record := JournalSession.sampleRecord lsn
  primaryDisk := if primary then .synced else .failed 0
  replicaDisks := fun index => if replicas index then .synced else .failed 0

/-- A record that misses its quorum and is retried. -/
theorem recoversConfirmed_retried : Throughout step (RecoversConfirmed 2) (start 2 3 2)
      [sampleCall 1 true (fun _ => false), sampleCall 1 true (fun _ => true)] := by
  refine (recoversConfirmed_throughout_iff ?_ ?_).mpr ?_
  · simp only [eachStep_cons, eachStep_nil, and_true]
    refine ⟨rfl, .inr ⟨by decide +kernel, rfl⟩⟩
  · simp only [eachStep_cons, eachStep_nil, and_true, AppendsBehindWholeFrames]
    refine ⟨⟨JournalSession.sampleRecord_wellFormed 1, by decide +kernel, ?_⟩,
      ⟨JournalSession.sampleRecord_wellFormed 1, by decide +kernel, ?_⟩⟩
    · decide +kernel
    decide +kernel
  simp only [eachStep_cons, eachStep_nil, and_true]
  refine ⟨?_, ?_⟩
  · intro _
    refine ⟨by decide, ?_⟩
    have one : (sampleCall 1 true fun _ => false).record.lsn.toNat = 1 := rfl
    omega
  intro _
  refine ⟨by decide, ?_⟩
  have one : (sampleCall 1 true fun _ => true).record.lsn.toNat = 1 := rfl
  omega

/-- The first record misses its quorum, the caller moves on, the second record is
confirmed by all three journals, and recovery returns nothing.  With a torn frame in the
second replica, a record that the primary and this replica confirm is lost as well. -/
theorem not_recoversConfirmed_of_gap :
    let moved := run step (start 2 3 2)
      [sampleCall 1 true (fun _ => false), sampleCall 2 true (fun _ => true)]
    let torn := run step (start 2 3 2)
      [{ record := JournalSession.sampleRecord 1
         primaryDisk := .synced
         replicaDisks := fun index => if index = 0 then .synced else .failed 18 },
        sampleCall 2 true (fun index => decide (index = 1))]
    (moved.confirmed = [JournalSession.sampleRecord 2] ∧ recoverQuorum (files moved.sink) 2 = []) ∧
      (torn.confirmed = [JournalSession.sampleRecord 2, JournalSession.sampleRecord 1] ∧
        recoverQuorum (files torn.sink) 2 = [JournalSession.sampleRecord 1]) := by
  decide +kernel

end ReplicationHistory

end Eidolon.World
