import Mathlib.Data.List.GetD
import Eidolon.Library.ByteOrder
import Eidolon.Library.MachineInt
import Eidolon.Library.RingBuffer
import Eidolon.World.Error

/-!
# The write-ahead journal

Journal records with their checksum and binary encoding, and the journal that queues
records in a ring buffer and flushes them in batches to a durable sink.  The sink is
outside: it is known by what it has accepted and synchronised, and each of its answers
is an input.
-/

namespace Eidolon.World

open Library List

def maxWalPayloadLen : Nat := 128

def walHeaderLen : Nat := 30

def opEntitySpawn : UInt8 := 0x01
def opEntityDespawn : UInt8 := 0x02
def opEntityTransform : UInt8 := 0x03
def opCurrencyDelta : UInt8 := 0x04
def opInventoryMutation : UInt8 := 0x05

def computeAdler32 (data : List UInt8) : UInt32 :=
  let (a, b) := data.foldl (fun (a, b) byte =>
      let a : UInt32 := (a + byte.toUInt32) % 65521
      (a, (b + a) % 65521))
    ((1 : UInt32), (0 : UInt32))
  (b <<< 16) ||| a

/-- A journal record; the payload array has 128 bytes of which `payloadLen` count. -/
structure WalRecord where
  lsn : UInt64
  tick : UInt64
  accountId : UInt64
  entityId : UInt32
  opcode : UInt8
  payloadLen : UInt8
  payload : List UInt8
  checksum : UInt32
  payload_length : payload.length = maxWalPayloadLen
  deriving DecidableEq

namespace WalRecord

def default : WalRecord where
  lsn := 0
  tick := 0
  accountId := 0
  entityId := 0
  opcode := 0
  payloadLen := 0
  payload := List.replicate maxWalPayloadLen 0
  checksum := 0
  payload_length := length_replicate

variable (record : WalRecord)

def headerBytes : List UInt8 :=
  bigEndian 8 record.lsn.toNat ++ bigEndian 8 record.tick.toNat ++
    bigEndian 8 record.accountId.toNat ++ bigEndian 4 record.entityId.toNat ++
      [record.opcode, record.payloadLen]

def payloadBytes : List UInt8 :=
  record.payload.take (min record.payloadLen.toNat maxWalPayloadLen)

def computeChecksum : UInt32 :=
  computeAdler32 record.headerBytes ^^^ computeAdler32 record.payloadBytes

def new (lsn tick accountId : UInt64) (entityId : UInt32) (opcode : UInt8)
    (payloadData : List UInt8) : Except WorldError WalRecord :=
  if short : payloadData.length ≤ maxWalPayloadLen then
    let record : WalRecord :=
      { lsn := lsn
        tick := tick
        accountId := accountId
        entityId := entityId
        opcode := opcode
        payloadLen := UInt8.ofNat payloadData.length
        payload := payloadData ++ List.replicate (maxWalPayloadLen - payloadData.length) 0
        checksum := 0
        payload_length := by
          rw [length_append, length_replicate]
          omega }
    .ok { record with checksum := record.computeChecksum }
  else
    .error (.walCorruptedRecord "Payload exceeds maximum 128 bytes limit")

/-- Encodes the record into a buffer of the given length; returns the bytes written. -/
def encode (outLen : Nat) : Except WorldError (List UInt8) :=
  let pLen := min record.payloadLen.toNat maxWalPayloadLen
  let totalLen := walHeaderLen + pLen + 4
  if outLen < totalLen then
    .error (.walCorruptedRecord "Destination buffer too small")
  else
    .ok (record.headerBytes ++ record.payloadBytes ++ bigEndian 4 record.checksum.toNat)

def field (buf : List UInt8) (start width : Nat) : Nat :=
  ofBigEndian ((buf.drop start).take width)

/-- Decodes a record from the front of a buffer; returns it with the bytes consumed. -/
def decode (buf : List UInt8) : Except WorldError (WalRecord × Nat) :=
  if buf.length < walHeaderLen + 4 then
    .error (.walCorruptedRecord "Buffer truncated before header")
  else
    let payloadLen := buf.getD 29 0
    if tooLong : maxWalPayloadLen < payloadLen.toNat then
      .error (.walCorruptedRecord "Payload length header invalid")
    else
      let pLen := payloadLen.toNat
      let totalLen := walHeaderLen + pLen + 4
      if truncated : buf.length < totalLen then
        .error (.walCorruptedRecord "Buffer truncated before trailer")
      else
        let record : WalRecord :=
          { lsn := UInt64.ofNat (field buf 0 8)
            tick := UInt64.ofNat (field buf 8 8)
            accountId := UInt64.ofNat (field buf 16 8)
            entityId := UInt32.ofNat (field buf 24 4)
            opcode := buf.getD 28 0
            payloadLen := payloadLen
            payload := (buf.drop walHeaderLen).take pLen ++
              List.replicate (maxWalPayloadLen - pLen) 0
            checksum := UInt32.ofNat (field buf (walHeaderLen + pLen) 4)
            payload_length := by
              simp only [length_append, length_take, length_drop, length_replicate]
              omega }
        if record.computeChecksum ≠ record.checksum then
          .error (.walChecksumMismatch record.checksum record.computeChecksum)
        else
          .ok (record, totalLen)

end WalRecord

/-- What a durable sink has accepted from `write_batch`, and how much of it had been
accepted when `flush` last returned `Ok`. -/
structure DurableWalSink where
  accepted : List WalRecord
  syncedCount : Nat
  deriving DecidableEq

namespace DurableWalSink

def new : DurableWalSink where
  accepted := []
  syncedCount := 0

variable (sink : DurableWalSink)

def writeBatch (records : List WalRecord) : DurableWalSink :=
  { sink with accepted := sink.accepted ++ records }

def flush : DurableWalSink :=
  { sink with syncedCount := sink.accepted.length }

def synced : List WalRecord :=
  sink.accepted.take sink.syncedCount

end DurableWalSink

structure SinkAnswers where
  writeBatch : Nat → Except WorldError Unit
  flush : Except WorldError Unit

def drainScratchLen : Nat := 128

structure WriteAheadJournal (cap : Nat) where
  currentLsn : UInt64
  durableLsn : UInt64
  ringBuffer : RingBuffer cap WalRecord
  sink : DurableWalSink
  deriving DecidableEq

namespace WriteAheadJournal

variable {cap : Nat}

def new (cap : Nat) : WriteAheadJournal cap where
  currentLsn := 0
  durableLsn := 0
  ringBuffer := RingBuffer.new cap WalRecord.default
  sink := DurableWalSink.new

variable (journal : WriteAheadJournal cap)

def isFlushed (lsn : UInt64) : Bool :=
  decide (lsn ≤ journal.durableLsn)

def append (tick accountId : UInt64) (entityId : UInt32) (opcode : UInt8)
    (payloadData : List UInt8) :
    Except WorldError UInt64 × WriteAheadJournal cap :=
  let nextLsn := saturatingAdd64 journal.currentLsn 1
  match WalRecord.new nextLsn tick accountId entityId opcode payloadData with
  | .error error => (.error error, journal)
  | .ok record =>
    match journal.ringBuffer.tryPush record with
    | none => (.error .walBufferFull, journal)
    | some ringBuffer =>
      (.ok nextLsn, { journal with ringBuffer := ringBuffer, currentLsn := nextLsn })

/-- Hands a batch to the sink, gives it up in the ring buffer and advances
`durable_lsn` to its last record. -/
def acceptBatch (batch : List WalRecord) : WriteAheadJournal cap :=
  { journal with
    sink := journal.sink.writeBatch batch
    ringBuffer := journal.ringBuffer.advanceHead batch.length
    durableLsn :=
      match batch.getLast? with
      | some lastRec => if journal.durableLsn < lastRec.lsn then lastRec.lsn else journal.durableLsn
      | none => journal.durableLsn }

/-- The loop of `flush_pending`.  Every turn empties the ring buffer further, so as many
turns as there are records, and one more, end it. -/
def flushBatches (answers : SinkAnswers) : Nat → Nat → Nat → WriteAheadJournal cap →
    Except WorldError Nat × WriteAheadJournal cap
  | 0, _, totalFlushed, journal => (.ok totalFlushed, journal)
  | turns + 1, index, totalFlushed, journal =>
    let batch := journal.ringBuffer.peekBatch drainScratchLen
    if batch.length = 0 then
      (.ok totalFlushed, journal)
    else
      match answers.writeBatch index with
      | .error error => (.error error, journal)
      | .ok () =>
        flushBatches answers turns (index + 1) (totalFlushed + batch.length)
          (journal.acceptBatch batch)

def flushPending (answers : SinkAnswers) : Except WorldError Nat × WriteAheadJournal cap :=
  match flushBatches answers (journal.ringBuffer.len + 1) 0 0 journal with
  | (.error error, journal) => (.error error, journal)
  | (.ok totalFlushed, journal) =>
    if 0 < totalFlushed then
      match answers.flush with
      | .error error => (.error error, journal)
      | .ok () => (.ok totalFlushed, { journal with sink := journal.sink.flush })
    else
      (.ok totalFlushed, journal)

theorem append_of_full {journal : WriteAheadJournal cap} {tick accountId : UInt64}
    {entityId : UInt32} {opcode : UInt8} {payloadData : List UInt8}
    (full : cap ≤ journal.ringBuffer.len) (short : payloadData.length ≤ maxWalPayloadLen) :
    journal.append tick accountId entityId opcode payloadData =
      (.error .walBufferFull, journal) := by
  simp only [append, WalRecord.new, dif_pos short, RingBuffer.tryPush_eq_none_iff.mpr full]

theorem append_cases (tick accountId : UInt64) (entityId : UInt32) (opcode : UInt8)
    (payloadData : List UInt8) :
    (∃ error, journal.append tick accountId entityId opcode payloadData = (.error error, journal)) ∨
    ∃ record appended, journal.append tick accountId entityId opcode payloadData =
        (.ok (saturatingAdd64 journal.currentLsn 1), appended) ∧
      WalRecord.new (saturatingAdd64 journal.currentLsn 1) tick accountId entityId opcode
        payloadData = .ok record ∧
      appended.currentLsn = saturatingAdd64 journal.currentLsn 1 ∧
      appended.durableLsn = journal.durableLsn ∧ appended.sink = journal.sink ∧
      appended.ringBuffer.queued = journal.ringBuffer.queued ++ [record] := by
  cases made : WalRecord.new (saturatingAdd64 journal.currentLsn 1) tick accountId entityId
      opcode payloadData with
  | error error => exact Or.inl ⟨error, by simp only [append, made]⟩
  | ok record =>
    rcases pushed : journal.ringBuffer.tryPush record with _ | ringBuffer
    · exact Or.inl ⟨.walBufferFull, by simp only [append, made, pushed]⟩
    have result : journal.append tick accountId entityId opcode payloadData =
        (.ok (saturatingAdd64 journal.currentLsn 1),
          { journal with
            ringBuffer := ringBuffer
            currentLsn := saturatingAdd64 journal.currentLsn 1 }) := by
      simp only [append, made, pushed]
    exact Or.inr ⟨record, _, result, rfl, rfl, rfl, rfl, RingBuffer.queued_tryPush pushed⟩

theorem append_error {journal after : WriteAheadJournal cap} {tick accountId : UInt64}
    {entityId : UInt32} {opcode : UInt8} {payloadData : List UInt8} {error : WorldError}
    (result : journal.append tick accountId entityId opcode payloadData = (.error error, after)) :
    after = journal := by
  rcases journal.append_cases tick accountId entityId opcode payloadData with
    ⟨other, failed⟩ | ⟨record, appended, succeeded, _⟩
  · rw [result] at failed
    exact congrArg Prod.snd failed
  rw [result] at succeeded
  cases succeeded

theorem sink_append (tick accountId : UInt64) (entityId : UInt32) (opcode : UInt8)
    (payloadData : List UInt8) :
    (journal.append tick accountId entityId opcode payloadData).2.sink = journal.sink := by
  rcases journal.append_cases tick accountId entityId opcode payloadData with
    ⟨other, failed⟩ | ⟨record, appended, succeeded, _, _, _, sink, _⟩
  · rw [failed]
  rw [succeeded, sink]

theorem append_of_room {journal : WriteAheadJournal cap} {tick accountId : UInt64}
    {entityId : UInt32} {opcode : UInt8} {payloadData : List UInt8}
    (room : ¬ cap ≤ journal.ringBuffer.len) (short : payloadData.length ≤ maxWalPayloadLen) :
    ∃ lsn appended, journal.append tick accountId entityId opcode payloadData =
      (.ok lsn, appended) := by
  simp only [append, WalRecord.new, dif_pos short]
  split
  · rename_i full
    exact absurd (RingBuffer.tryPush_eq_none_iff.mp full) room
  exact ⟨_, _, rfl⟩

end WriteAheadJournal

end Eidolon.World

/-!
## The encoding of journal records

A well-formed record, such as `WalRecord::new` builds, is read back from the front of
any buffer that starts with its encoding.
-/

namespace Eidolon.World

open Library List

namespace WalRecord

/-- The payload length is within the array, the rest of the array is zero and the
checksum is right. -/
structure WellFormed (record : WalRecord) : Prop where
  payloadLen_le : record.payloadLen.toNat ≤ maxWalPayloadLen
  padding : record.payload.drop record.payloadLen.toNat =
    List.replicate (maxWalPayloadLen - record.payloadLen.toNat) 0
  checksum_eq : record.checksum = record.computeChecksum

variable {record : WalRecord}

theorem wellFormed_of_new {lsn tick accountId : UInt64} {entityId : UInt32} {opcode : UInt8}
    {payloadData : List UInt8}
    (made : new lsn tick accountId entityId opcode payloadData = .ok record) :
    record.WellFormed := by
  unfold new at made
  split at made
  · rename_i short
    have limit : maxWalPayloadLen = 128 := rfl
    have lengthKept : (UInt8.ofNat payloadData.length).toNat = payloadData.length := by
      rw [UInt8.toNat_ofNat']
      omega
    cases made
    refine ⟨?_, ?_, rfl⟩
    · simp only [lengthKept]
      exact short
    simp only [lengthKept, drop_left]
  cases made

def encoded (record : WalRecord) : List UInt8 :=
  record.headerBytes ++ record.payloadBytes ++ bigEndian 4 record.checksum.toNat

theorem length_headerBytes (record : WalRecord) : record.headerBytes.length = walHeaderLen := by
  simp [headerBytes, walHeaderLen]

theorem length_payloadBytes (record : WalRecord) :
    record.payloadBytes.length = min record.payloadLen.toNat maxWalPayloadLen := by
  rw [payloadBytes, length_take, record.payload_length]
  omega

theorem length_encoded (record : WalRecord) :
    record.encoded.length = walHeaderLen + min record.payloadLen.toNat maxWalPayloadLen + 4 := by
  rw [encoded, length_append, length_append, length_headerBytes,
    length_payloadBytes, length_bigEndian]

theorem encode_eq_ok (record : WalRecord) :
    record.encode (walHeaderLen + maxWalPayloadLen + 4) = .ok record.encoded := by
  have fits : ¬ walHeaderLen + maxWalPayloadLen + 4 <
      walHeaderLen + min record.payloadLen.toNat maxWalPayloadLen + 4 := by
    omega
  exact if_neg fits

theorem field_append_right {front rest : List UInt8} {start width : Nat}
    (behind : front.length ≤ start) :
    field (front ++ rest) start width = field rest (start - front.length) width := by
  rw [field, field, drop_append, drop_of_length_le behind, nil_append]

theorem field_bigEndian {width value : Nat} (rest : List UInt8)
    (small : value < 256 ^ width) : field (bigEndian width value ++ rest) 0 width = value := by
  rw [field, drop_zero, take_left' (length_bigEndian width value), ofBigEndian_bigEndian small]

theorem WellFormed.payload_eq (wellFormed : record.WellFormed) :
    record.payloadBytes ++ List.replicate (maxWalPayloadLen - record.payloadLen.toNat) 0 =
      record.payload := by
  rw [payloadBytes, Nat.min_eq_left wellFormed.payloadLen_le, ← wellFormed.padding,
    take_append_drop]

theorem decode_encoded_append (wellFormed : record.WellFormed) (rest : List UInt8) :
    decode (record.encoded ++ rest) = .ok (record, record.encoded.length) := by
  have within := wellFormed.payloadLen_le
  have payloadLength := record.length_payloadBytes
  have totalLength := record.length_encoded
  rw [Nat.min_eq_left within] at payloadLength totalLength
  have parts : record.encoded ++ rest =
      bigEndian 8 record.lsn.toNat ++ (bigEndian 8 record.tick.toNat ++
        (bigEndian 8 record.accountId.toNat ++ (bigEndian 4 record.entityId.toNat ++
          ([record.opcode, record.payloadLen] ++ (record.payloadBytes ++
            (bigEndian 4 record.checksum.toNat ++ rest)))))) := by
    simp only [encoded, headerBytes, append_assoc]
  have small64 : ∀ value : UInt64, value.toNat < 18446744073709551616 := UInt64.toNat_lt
  have small32 : ∀ value : UInt32, value.toNat < 4294967296 := UInt32.toNat_lt
  have lsnRead : field (record.encoded ++ rest) 0 8 = record.lsn.toNat := by
    simp [parts, field_bigEndian, small64]
  have tickRead : field (record.encoded ++ rest) 8 8 = record.tick.toNat := by
    simp [parts, field_append_right, field_bigEndian, small64]
  have accountRead : field (record.encoded ++ rest) 16 8 = record.accountId.toNat := by
    simp [parts, field_append_right, field_bigEndian, small64]
  have entityRead : field (record.encoded ++ rest) 24 4 = record.entityId.toNat := by
    simp [parts, field_append_right, field_bigEndian, small32]
  have opcodeRead : (record.encoded ++ rest).getD 28 0 = record.opcode := by
    simp [parts, getElem?_append_right]
  have payloadLenRead : (record.encoded ++ rest).getD 29 0 = record.payloadLen := by
    simp [parts, getElem?_append_right]
  have payloadRead : ((record.encoded ++ rest).drop walHeaderLen).take
      record.payloadLen.toNat = record.payloadBytes := by
    rw [encoded, append_assoc, append_assoc, drop_left' record.length_headerBytes,
      take_left' payloadLength]
  have checksumRead : field (record.encoded ++ rest)
      (walHeaderLen + record.payloadLen.toNat) 4 = record.checksum.toNat := by
    have place : (record.headerBytes ++ record.payloadBytes).length =
        walHeaderLen + record.payloadLen.toNat := by
      rw [length_append, record.length_headerBytes, payloadLength]
    rw [encoded, append_assoc, field_append_right (Nat.le_of_eq place), place,
      Nat.sub_self, field_bigEndian _ (small32 record.checksum)]
  have bufferLength : (record.encoded ++ rest).length =
      walHeaderLen + record.payloadLen.toNat + 4 + rest.length := by
    rw [length_append, totalLength]
  rw [decode, if_neg (by omega)]
  simp only [payloadLenRead]
  rw [dif_neg (by omega), dif_neg (by omega)]
  simp only [lsnRead, tickRead, accountRead, entityRead, opcodeRead, payloadRead,
    checksumRead, UInt64.ofNat_toNat, UInt32.ofNat_toNat, wellFormed.payload_eq]
  rw [if_neg (not_not.mpr wellFormed.checksum_eq.symm), totalLength]

theorem wellFormed_of_decode {buffer : List UInt8} {consumed : Nat}
    (decoded : decode buffer = .ok (record, consumed)) : record.WellFormed := by
  unfold decode at decoded
  split at decoded
  · cases decoded
  simp only at decoded
  split at decoded
  · cases decoded
  rename_i within
  split at decoded
  · cases decoded
  split at decoded
  · cases decoded
  rename_i matching
  cases decoded
  refine ⟨Nat.le_of_not_lt within, ?_, (not_not.mp matching).symm⟩
  have payloadLength : ((buffer.drop walHeaderLen).take (buffer.getD 29 0).toNat).length =
      (buffer.getD 29 0).toNat := by
    rw [length_take, length_drop]
    omega
  exact drop_left' payloadLength

end WalRecord

end Eidolon.World
