import Eidolon.World.Wal

/-!
# Integrity of encoded records

What decoding accepts is the encoding of the record it returns.  The checksum tells any two
headers and any two payloads apart that differ in one byte, so a changed byte is noticed
wherever it stands, except for the payload length: a smaller length moves the place where
the checksum is read.
-/

namespace Eidolon.World

open Library List UInt64

variable (data : List UInt8)

def weightedSum : List UInt8 → Nat
  | [] => 0
  | byte :: bytes => byte.toNat * (bytes.length + 1) + weightedSum bytes

theorem weightedSum_append (first second : List UInt8) : weightedSum (first ++ second) =
      weightedSum first + (first.map UInt8.toNat).sum * second.length + weightedSum second := by
  induction first with
  | nil =>
    rw [nil_append, weightedSum, map_nil, sum_nil]
    omega
  | cons byte bytes ih =>
    rw [cons_append, weightedSum, weightedSum, ih, length_append, map_cons, sum_cons]
    ring

private theorem adlerSums_eq : ∀ sums : UInt32 × UInt32,
      sums.1.toNat < 65521 → sums.2.toNat < 65521 →
      let final := data.foldl (fun (a, b) byte =>
        let a : UInt32 := (a + byte.toUInt32) % 65521
        (a, (b + a) % 65521)) sums
      final.1.toNat = (sums.1.toNat + (data.map UInt8.toNat).sum) % 65521 ∧
        final.2.toNat =
          (sums.2.toNat + data.length * sums.1.toNat + weightedSum data) % 65521 := by
  induction data with
  | nil =>
    intro sums firstSmall secondSmall
    simp [weightedSum, Nat.mod_eq_of_lt, firstSmall, secondSmall]
  | cons byte data ih =>
    intro sums firstSmall secondSmall
    have byteSmall := byte.toNat_lt
    have first : ((sums.1 + byte.toUInt32) % 65521).toNat =
        (sums.1.toNat + byte.toNat) % 65521 := by
      simp
      omega
    have second : ((sums.2 + (sums.1 + byte.toUInt32) % 65521) % 65521).toNat =
        (sums.2.toNat + (sums.1.toNat + byte.toNat) % 65521) % 65521 := by
      rw [UInt32.toNat_mod, UInt32.toNat_add, first, Nat.mod_eq_of_lt (b := 2 ^ 32) (by omega)]
      rfl
    obtain ⟨total, weighted⟩ := ih (_, _) (first.trans_lt (Nat.mod_lt _ (by decide)))
      (second.trans_lt (Nat.mod_lt _ (by decide)))
    have once : (sums.1.toNat + byte.toNat) % 65521 ≡ sums.1.toNat + byte.toNat [MOD 65521] :=
      Nat.mod_modEq _ _
    have twice := ((Nat.mod_modEq _ _).trans (once.add_left sums.2.toNat)).add
      (once.mul_left data.length)
    refine ⟨total.trans ?_, weighted.trans ?_⟩
    · rw [first, map_cons, sum_cons, ← Nat.add_assoc]
      exact once.add_right _
    rw [first, second, weightedSum, length_cons]
    refine (twice.add_right (weightedSum data)).trans (congrArg (· % 65521) ?_)
    ring

theorem computeAdler32_toNat : (computeAdler32 data).toNat =
    (data.length + weightedSum data) % 65521 * 65536 + (1 + (data.map UInt8.toNat).sum) % 65521 := by
  obtain ⟨low, high⟩ := adlerSums_eq data (1, 0) (by decide) (by decide)
  have joined : ∀ sums : UInt32 × UInt32, sums.1.toNat < 65521 → sums.2.toNat < 65521 →
      ((sums.2 <<< 16) ||| sums.1).toNat = sums.2.toNat * 65536 + sums.1.toNat := by
    intro sums firstSmall secondSmall
    have shift : (16 : UInt32).toNat % 32 = 16 := by decide
    rw [UInt32.toNat_or, UInt32.toNat_shiftLeft, shift, Nat.mod_eq_of_lt (by omega),
      ← Nat.shiftLeft_add_eq_or_of_lt (by omega), Nat.shiftLeft_eq]
  unfold computeAdler32
  rw [joined _ (low.trans_lt (Nat.mod_lt _ (by decide))) (high.trans_lt (Nat.mod_lt _ (by decide))),
    low, high]
  simp

theorem computeAdler32_low :
    (computeAdler32 data).toNat % 65536 = (1 + (data.map UInt8.toNat).sum) % 65521 := by
  rw [computeAdler32_toNat]
  omega

theorem computeAdler32_high :
    (computeAdler32 data).toNat / 65536 = (data.length + weightedSum data) % 65521 := by
  rw [computeAdler32_toNat]
  omega

/-- The two sums that make up a checksum. -/
def adlerSums : Nat × Nat :=
  ((1 + (data.map UInt8.toNat).sum) % 65521, (data.length + weightedSum data) % 65521)

theorem computeAdler32_eq_iff {data other : List UInt8} :
    computeAdler32 data = computeAdler32 other ↔ adlerSums data = adlerSums other := by
  rw [← UInt32.toNat_inj, computeAdler32_toNat, computeAdler32_toNat, Prod.ext_iff]
  simp only [adlerSums]
  omega

theorem computeAdler32_ne (before after : List UInt8) {byte other : UInt8}
    (different : byte ≠ other) :
    computeAdler32 (before ++ byte :: after) ≠ computeAdler32 (before ++ other :: after) := by
  intro same
  have sums := congrArg (fun checksum => UInt32.toNat checksum % 65536) same
  simp only [computeAdler32_low, map_append, map_cons, sum_append, sum_cons] at sums
  have byteSmall := byte.toNat_lt
  have otherSmall := other.toNat_lt
  exact different (UInt8.toNat_inj.mp (by omega))

namespace WalRecord

variable {buf : List UInt8}

theorem bigEndian_field {start width : Nat} (inside : start + width ≤ buf.length) :
    bigEndian width (field buf start width) = (buf.drop start).take width := by
  apply bigEndian_ofBigEndian
  rw [length_take, length_drop]
  omega

theorem field_lt {start width : Nat} (inside : start + width ≤ buf.length) :
    field buf start width < 256 ^ width := by
  apply ofBigEndian_lt
  rw [length_take, length_drop]
  omega

theorem slice_append (buf : List UInt8) (start first second : Nat) :
    (buf.drop start).take first ++ (buf.drop (start + first)).take second =
      (buf.drop start).take (first + second) := by
  rw [take_add, drop_drop]

theorem getD_eq_slice {index : Nat} (inside : index < buf.length) :
    [buf.getD index 0] = (buf.drop index).take 1 := by
  rw [getD_eq_getElem _ _ inside, drop_eq_getElem_cons inside]
  rfl

structure ReadFrom (record : WalRecord) (buf : List UInt8) : Prop where
  payloadLen_eq : record.payloadLen = buf.getD 29 0
  headerBytes_eq : record.headerBytes = buf.take walHeaderLen
  payloadBytes_eq : record.payloadBytes =
    (buf.drop walHeaderLen).take record.payloadLen.toNat
  checksum_eq : record.checksum =
    UInt32.ofNat (field buf (walHeaderLen + record.payloadLen.toNat) 4)

structure Holds (buf : List UInt8) : Prop where
  header : walHeaderLen + 4 ≤ buf.length
  within : (buf.getD 29 0).toNat ≤ maxWalPayloadLen
  complete : walHeaderLen + (buf.getD 29 0).toNat + 4 ≤ buf.length

theorem decode_cases (buf : List UInt8) : (¬ Holds buf ∧ ∃ failure, decode buf = .error failure) ∨
      ∃ record, Holds buf ∧ ReadFrom record buf ∧ decode buf =
          if record.computeChecksum ≠ record.checksum then
            .error (.walChecksumMismatch record.checksum record.computeChecksum)
          else
            .ok (record, walHeaderLen + record.payloadLen.toNat + 4) := by
  by_cases short : buf.length < walHeaderLen + 4
  · refine .inl ⟨fun holds => Nat.not_lt.mpr holds.header short,
      .walCorruptedRecord "Buffer truncated before header", ?_⟩
    rw [decode, if_pos short]
  by_cases tooLong : maxWalPayloadLen < (buf.getD 29 0).toNat
  · refine .inl ⟨fun holds => Nat.not_lt.mpr holds.within tooLong,
      .walCorruptedRecord "Payload length header invalid", ?_⟩
    rw [decode, if_neg short]
    exact dif_pos tooLong
  by_cases truncated : buf.length < walHeaderLen + (buf.getD 29 0).toNat + 4
  · refine .inl ⟨fun holds => Nat.not_lt.mpr holds.complete truncated,
      .walCorruptedRecord "Buffer truncated before trailer", ?_⟩
    rw [decode, if_neg short]
    simp only [dif_neg tooLong]
    exact dif_pos truncated
  have header : walHeaderLen = 30 := rfl
  have payloadLength : ((buf.drop walHeaderLen).take (buf.getD 29 0).toNat).length =
      (buf.getD 29 0).toNat := by
    rw [length_take, length_drop]
    omega
  refine .inr ⟨
    { lsn := UInt64.ofNat (field buf 0 8)
      tick := UInt64.ofNat (field buf 8 8)
      accountId := UInt64.ofNat (field buf 16 8)
      entityId := UInt32.ofNat (field buf 24 4)
      opcode := buf.getD 28 0
      payloadLen := buf.getD 29 0
      payload := (buf.drop walHeaderLen).take (buf.getD 29 0).toNat ++
        List.replicate (maxWalPayloadLen - (buf.getD 29 0).toNat) 0
      checksum := UInt32.ofNat (field buf (walHeaderLen + (buf.getD 29 0).toNat) 4)
      payload_length := by
        rw [length_append, length_replicate]
        omega },
    ⟨Nat.le_of_not_lt short, Nat.le_of_not_lt tooLong, Nat.le_of_not_lt truncated⟩,
    ⟨rfl, ?_, ?_, rfl⟩, ?_⟩
  · have first : (UInt64.ofNat (field buf 0 8)).toNat = field buf 0 8 :=
      toNat_ofNat_of_lt' (field_lt (by omega))
    have second : (UInt64.ofNat (field buf 8 8)).toNat = field buf 8 8 :=
      toNat_ofNat_of_lt' (field_lt (by omega))
    have third : (UInt64.ofNat (field buf 16 8)).toNat = field buf 16 8 :=
      toNat_ofNat_of_lt' (field_lt (by omega))
    have fourth : (UInt32.ofNat (field buf 24 4)).toNat = field buf 24 4 :=
      UInt32.toNat_ofNat_of_lt' (field_lt (by omega))
    have bytes : [buf.getD 28 0, buf.getD 29 0] =
        (buf.drop 28).take 1 ++ (buf.drop (28 + 1)).take 1 := by
      rw [← getD_eq_slice (by omega), ← getD_eq_slice (by omega)]
      rfl
    rw [headerBytes, first, second, third, fourth, bigEndian_field (by omega),
      bigEndian_field (by omega), bigEndian_field (by omega), bigEndian_field (by omega), bytes,
      slice_append buf 28 1 1, slice_append buf 0 8 8, slice_append buf 0 (8 + 8) 8,
      slice_append buf 0 (8 + 8 + 8) 4, slice_append buf 0 (8 + 8 + 8 + 4) (1 + 1)]
    rfl
  · rw [payloadBytes, Nat.min_eq_left (Nat.le_of_not_lt tooLong), take_left' payloadLength]
  rw [decode, if_neg short]
  simp only [dif_neg tooLong, dif_neg truncated]

theorem take_of_decode {record : WalRecord} {consumed : Nat}
    (decoded : decode buf = .ok (record, consumed)) :
    record.encoded = buf.take consumed ∧
      consumed = walHeaderLen + min record.payloadLen.toNat maxWalPayloadLen + 4 := by
  rcases decode_cases buf with ⟨_, failure, failed⟩ | ⟨held, holds, readFrom, result⟩
  · rw [failed] at decoded
    cases decoded
  rw [result] at decoded
  split at decoded
  · cases decoded
  cases decoded
  have complete := holds.complete
  have within := holds.within
  rw [← readFrom.payloadLen_eq] at complete within
  have checksum : bigEndian 4 record.checksum.toNat =
      (buf.drop (walHeaderLen + record.payloadLen.toNat)).take 4 := by
    rw [readFrom.checksum_eq, UInt32.toNat_ofNat_of_lt' (field_lt (by omega)),
      bigEndian_field (by omega)]
  have whole := slice_append buf 0 walHeaderLen record.payloadLen.toNat
  have rest := slice_append buf 0 (walHeaderLen + record.payloadLen.toNat) 4
  rw [Nat.zero_add, drop_zero] at whole rest
  refine ⟨?_, by rw [Nat.min_eq_left within]⟩
  rw [encoded, readFrom.headerBytes_eq, readFrom.payloadBytes_eq, checksum, whole, rest]

/-- A record that was built decodes from its encoding, and what decodes is the encoding of
what is returned. -/
theorem encode_decode_roundTrip :
    (∀ (lsn tick accountId : UInt64) (entityId : UInt32) (opcode : UInt8)
      (payloadData : List UInt8) (record : WalRecord) (outLen : Nat),
      new lsn tick accountId entityId opcode payloadData = .ok record →
      walHeaderLen + payloadData.length + 4 ≤ outLen →
      ∃ bytes, record.encode outLen = .ok bytes ∧ decode bytes = .ok (record, bytes.length)) ∧
    (∀ (buf : List UInt8) (record : WalRecord) (consumed outLen : Nat),
      decode buf = .ok (record, consumed) → consumed ≤ outLen →
      record.encode outLen = .ok (buf.take consumed)) := by
  constructor
  · intro lsn tick accountId entityId opcode payloadData record outLen made room
    have wellFormed := wellFormed_of_new made
    have payloadLength : record.payloadLen.toNat ≤ payloadData.length := by
      unfold new at made
      split at made
      · cases made
        exact (UInt8.toNat_ofNat' ..).trans_le (Nat.mod_le _ _)
      cases made
    refine ⟨record.encoded, ?_, ?_⟩
    · exact if_neg (by omega)
    have whole := decode_encoded_append wellFormed []
    rwa [append_nil] at whole
  intro buf record consumed outLen decoded room
  obtain ⟨same, length⟩ := take_of_decode decoded
  rw [← same]
  exact if_neg (by omega)

/-- A record with two payload bytes as it is built, encoded and read back. -/
theorem encode_decode_roundTrip_pair :
    ∃ record, new 1 100 2001 20 opCurrencyDelta [116, 49] = .ok record ∧
      ∃ bytes, record.encode 36 = .ok bytes ∧ decode bytes = .ok (record, bytes.length) :=
  ⟨_, rfl, encode_decode_roundTrip.1 1 100 2001 20 opCurrencyDelta [116, 49] _ 36 rfl (by decide)⟩

theorem computeAdler32_set_ne {data : List UInt8} {index : Nat} (inside : index < data.length)
    {byte : UInt8} (changed : byte ≠ data.getD index 0) :
    computeAdler32 (data.set index byte) ≠ computeAdler32 data := by
  rw [getD_eq_getElem _ _ inside] at changed
  have whole : data = data.take index ++ data[index] :: data.drop (index + 1) := by
    rw [getElem_cons_drop, take_append_drop]
  have written : data.set index byte = data.take index ++ byte :: data.drop (index + 1) :=
    List.set_eq_take_append_cons_drop.trans (if_pos inside)
  rw [written]
  exact fun same => computeAdler32_ne _ _ changed (same.trans (congrArg computeAdler32 whole))

/-- The payload length is made smaller, and where the checksum is then looked for stands the
checksum of the shorter record. -/
def LooksShorter (record : WalRecord) (index : Nat) (byte : UInt8) : Prop :=
  index = 29 ∧ byte < record.payloadLen ∧
    ({ record with payloadLen := byte } : WalRecord).computeChecksum =
      UInt32.ofNat (field record.encoded (walHeaderLen + byte.toNat) 4)

section Changed

variable {record : WalRecord} {index : Nat} {byte : UInt8}

private theorem encoded_parts (record : WalRecord) : record.encoded =
      record.headerBytes ++ (record.payloadBytes ++ bigEndian 4 record.checksum.toNat) :=
  append_assoc _ _ _

private theorem set_encoded (within : record.payloadLen.toNat ≤ maxWalPayloadLen)
    (index : Nat) (byte : UInt8) :
    (record.encoded.set index byte).take walHeaderLen = record.headerBytes.set index byte ∧
      ((record.encoded.set index byte).drop walHeaderLen).take record.payloadLen.toNat =
        (if walHeaderLen ≤ index then record.payloadBytes.set (index - walHeaderLen) byte
          else record.payloadBytes) ∧
      ((record.encoded.set index byte).drop (walHeaderLen + record.payloadLen.toNat)).take 4 =
        (if walHeaderLen + record.payloadLen.toNat ≤ index then
            (bigEndian 4 record.checksum.toNat).set
              (index - (walHeaderLen + record.payloadLen.toNat)) byte
          else bigEndian 4 record.checksum.toNat) := by
  have headerLength := record.length_headerBytes
  have payloadLength := record.length_payloadBytes
  rw [Nat.min_eq_left within] at payloadLength
  have checksumLength := length_bigEndian 4 record.checksum.toNat
  refine ⟨?_, ?_, ?_⟩
  · rw [take_set, encoded_parts, take_left' headerLength]
  · rw [drop_set, encoded_parts, drop_left' headerLength]
    by_cases inHeader : index < walHeaderLen
    · rw [if_pos inHeader, if_neg (by omega), take_left' payloadLength]
    rw [if_neg inHeader, if_pos (by omega), take_set, take_left' payloadLength]
  have drops : (record.encoded.drop (walHeaderLen + record.payloadLen.toNat)) =
      bigEndian 4 record.checksum.toNat :=
    drop_left' (by rw [length_append, headerLength, payloadLength])
  rw [drop_set]
  by_cases before : index < walHeaderLen + record.payloadLen.toNat
  · rw [if_pos before, if_neg (by omega), drops, take_of_length_le (by omega)]
  rw [if_neg before, if_pos (by omega), drops, take_set, take_of_length_le (by omega)]

private theorem getD_encoded (record : WalRecord) :
    record.encoded.getD 29 0 = record.payloadLen := by
  simp [encoded, headerBytes, List.getElem?_append_right]

private theorem getD_set_encoded (inside : index < record.encoded.length) :
    (record.encoded.set index byte).getD 29 0 = if index = 29 then byte else record.payloadLen := by
  rw [← getD_encoded record, getD_eq_getElem?_getD, List.getElem?_set]
  split <;> rfl

private theorem decode_set_of_ne (within : record.payloadLen.toNat ≤ maxWalPayloadLen)
    (valid : record.checksum = record.computeChecksum) (inside : index < record.encoded.length)
    (changed : byte ≠ record.encoded.getD index 0) (notLength : index ≠ 29) :
    ∃ failure, decode (record.encoded.set index byte) = .error failure := by
  have headerLength := record.length_headerBytes
  have payloadLength := record.length_payloadBytes
  have checksumLength := length_bigEndian 4 record.checksum.toNat
  rw [Nat.min_eq_left within] at payloadLength
  have checksumSmall : record.checksum.toNat < 256 ^ 4 := record.checksum.toNat_lt
  rcases decode_cases (record.encoded.set index byte) with ⟨_, failed⟩ | ⟨read, _, readFrom, result⟩
  · exact failed
  have sameLength : read.payloadLen = record.payloadLen := by
    rw [readFrom.payloadLen_eq, getD_set_encoded inside, if_neg notLength]
  obtain ⟨headerRead, payloadRead, checksumRead⟩ := set_encoded within index byte
  have readHeader := readFrom.headerBytes_eq.trans headerRead
  have readPayload := readFrom.payloadBytes_eq
  have readChecksum := readFrom.checksum_eq
  rw [sameLength, payloadRead] at readPayload
  rw [sameLength, field, checksumRead] at readChecksum
  suffices mismatch : read.computeChecksum ≠ read.checksum by
    rw [result, if_pos mismatch]
    exact ⟨_, rfl⟩
  intro same
  rw [computeChecksum, readHeader, readPayload, readChecksum] at same
  have original : UInt32.ofNat (ofBigEndian (bigEndian 4 record.checksum.toNat)) =
      computeAdler32 record.headerBytes ^^^ computeAdler32 record.payloadBytes := by
    rw [ofBigEndian_bigEndian checksumSmall, UInt32.ofNat_toNat, valid]
    rfl
  rw [encoded_parts] at inside changed
  by_cases inHeader : index < walHeaderLen
  · rw [if_neg (by omega), if_neg (by omega), original, UInt32.xor_left_inj] at same
    rw [getD_append _ _ _ _ (headerLength ▸ inHeader)] at changed
    exact computeAdler32_set_ne (headerLength ▸ inHeader) changed same
  have headerSame : record.headerBytes.set index byte = record.headerBytes :=
    set_eq_of_length_le (by omega)
  rw [headerSame] at same
  rw [getD_append_right _ _ _ _ (by omega), headerLength] at changed
  by_cases inPayload : index < walHeaderLen + record.payloadLen.toNat
  · rw [if_pos (by omega), if_neg (by omega), original, UInt32.xor_right_inj] at same
    rw [getD_append _ _ _ _ (by omega)] at changed
    exact computeAdler32_set_ne (by omega) changed same
  have payloadSame : record.payloadBytes.set (index - walHeaderLen) byte =
      record.payloadBytes := set_eq_of_length_le (by omega)
  rw [if_pos (by omega), if_pos (by omega), payloadSame, ← original] at same
  have inChecksum : index - (walHeaderLen + record.payloadLen.toNat) <
      (bigEndian 4 record.checksum.toNat).length := by
    simp only [length_append] at inside
    omega
  rw [getD_append_right _ _ _ _ (by omega), payloadLength, Nat.sub_sub,
    getD_eq_getElem _ _ inChecksum] at changed
  have small : ofBigEndian ((bigEndian 4 record.checksum.toNat).set
      (index - (walHeaderLen + record.payloadLen.toNat)) byte) < 256 ^ 4 :=
    ofBigEndian_lt (by rw [length_set, checksumLength])
  have sameNat := congrArg UInt32.toNat same
  rw [UInt32.toNat_ofNat_of_lt' (ofBigEndian_lt checksumLength),
    UInt32.toNat_ofNat_of_lt' small] at sameNat
  have sameBytes := congrArg (bigEndian 4) sameNat
  rw [bigEndian_ofBigEndian checksumLength,
    bigEndian_ofBigEndian (by rw [length_set, checksumLength])] at sameBytes
  have sameByte := congrArg
    (fun bytes => bytes[index - (walHeaderLen + record.payloadLen.toNat)]?) sameBytes
  simp only [List.getElem?_set_self inChecksum, List.getElem?_eq_getElem inChecksum] at sameByte
  exact changed (Option.some.inj sameByte).symm

private theorem decode_set_length_iff (within : record.payloadLen.toNat ≤ maxWalPayloadLen)
    (inside : 29 < record.encoded.length) (changed : byte ≠ record.payloadLen) :
    (∃ failure, decode (record.encoded.set 29 byte) = .error failure) ↔
      ¬ (byte < record.payloadLen ∧
        ({ record with payloadLen := byte } : WalRecord).computeChecksum =
          UInt32.ofNat (field record.encoded (walHeaderLen + byte.toNat) 4)) := by
  have header : walHeaderLen = 30 := rfl
  have totalLength := record.length_encoded
  have payloadLength := record.length_payloadBytes
  have different : byte.toNat ≠ record.payloadLen.toNat :=
    fun same => changed (UInt8.toNat_inj.mp same)
  have lengthRead : (record.encoded.set 29 byte).getD 29 0 = byte := by
    rw [getD_set_encoded inside, if_pos rfl]
  rw [UInt8.lt_iff_toNat_lt]
  rcases decode_cases (record.encoded.set 29 byte) with
    ⟨notHeld, failed⟩ | ⟨read, holds, readFrom, result⟩
  · refine iff_of_true failed ?_
    rintro ⟨smaller, _⟩
    refine notHeld ⟨?_, ?_, ?_⟩
    · rw [length_set]
      omega
    · rw [lengthRead]
      omega
    rw [lengthRead, length_set]
    omega
  have complete := holds.complete
  rw [lengthRead, length_set] at complete
  have smaller : byte.toNat < record.payloadLen.toNat := by
    omega
  have readLength : read.payloadLen = byte := readFrom.payloadLen_eq.trans lengthRead
  have readHeader : read.headerBytes =
      ({ record with payloadLen := byte } : WalRecord).headerBytes := by
    rw [readFrom.headerBytes_eq, (set_encoded within 29 byte).1]
    simp [headerBytes, set_append_right]
  have readPayload : read.payloadBytes =
      ({ record with payloadLen := byte } : WalRecord).payloadBytes := by
    rw [readFrom.payloadBytes_eq, readLength, drop_set_of_lt (by omega), encoded_parts,
      drop_left' record.length_headerBytes, take_append_of_le_length (by omega),
      payloadBytes, take_take]
    have sameCount : min byte.toNat (min record.payloadLen.toNat maxWalPayloadLen) =
        min byte.toNat maxWalPayloadLen := by
      omega
    exact congrArg (fun count => record.payload.take count) sameCount
  have checksumRead : read.checksum =
      UInt32.ofNat (field record.encoded (walHeaderLen + byte.toNat) 4) := by
    rw [readFrom.checksum_eq, readLength, field, field, drop_set_of_lt (by omega)]
  have calculated : read.computeChecksum =
      ({ record with payloadLen := byte } : WalRecord).computeChecksum := by
    rw [computeChecksum, computeChecksum, readHeader, readPayload]
  rw [result, calculated, checksumRead]
  by_cases coincides : ({ record with payloadLen := byte } : WalRecord).computeChecksum =
      UInt32.ofNat (field record.encoded (walHeaderLen + byte.toNat) 4)
  · rw [if_neg (not_not.mpr coincides)]
    refine iff_of_false ?_ (not_not.mpr ⟨smaller, coincides⟩)
    rintro ⟨failure, failed⟩
    cases failed
  rw [if_pos coincides]
  exact iff_of_true ⟨_, rfl⟩ fun shorter => coincides shorter.2

/-- One changed byte in the encoding of a valid record is noticed, unless the record looks
shorter than it is. -/
theorem decode_changed_isError_iff (within : record.payloadLen.toNat ≤ maxWalPayloadLen)
    (valid : record.checksum = record.computeChecksum) (inside : index < record.encoded.length)
    (changed : byte ≠ record.encoded.getD index 0) :
    (∃ failure, decode (record.encoded.set index byte) = .error failure) ↔
      ¬ record.LooksShorter index byte := by
  by_cases isLength : index = 29
  · subst isLength
    rw [getD_encoded] at changed
    rw [decode_set_length_iff within inside changed, LooksShorter, and_iff_right rfl]
  exact iff_of_true (decode_set_of_ne within valid inside changed isLength)
    fun shorter => isLength shorter.1

end Changed

private def pairRecord : WalRecord :=
  match new 1 10 100 5 opEntitySpawn [116, 49] with
  | .ok record => record
  | .error _ => default

private def decoyRecord : WalRecord :=
  match new 1 10 100 5 opEntitySpawn [3, 152, 0, 119] with
  | .ok record => record
  | .error _ => default

theorem decode_changed_isError_payload :
    ∃ failure, decode (pairRecord.encoded.set 30 0) = .error failure := by
  have within : pairRecord.payloadLen.toNat ≤ maxWalPayloadLen := by
    decide
  have valid : pairRecord.checksum = pairRecord.computeChecksum := by
    decide
  have inside : 30 < pairRecord.encoded.length := by
    decide
  have changed : (0 : UInt8) ≠ pairRecord.encoded.getD 30 0 := by
    decide
  apply (decode_changed_isError_iff within valid inside changed).mpr
  intro shorter
  exact absurd shorter.1 (by decide)

/-- With its payload length set to zero this record decodes without its payload. -/
theorem not_decode_changed_isError_decoy :
    ¬ ∀ (record : WalRecord) (index : Nat) (byte : UInt8), index < record.encoded.length →
      byte ≠ record.encoded.getD index 0 →
      ∃ failure, decode (record.encoded.set index byte) = .error failure := by
  intro noticed
  obtain ⟨failure, failed⟩ := noticed decoyRecord 29 0 (by decide) (by decide)
  have accepted : (decode (decoyRecord.encoded.set 29 0)).toOption.isSome = true := by
    decide +kernel
  rw [failed] at accepted
  cases accepted

end WalRecord

end Eidolon.World
