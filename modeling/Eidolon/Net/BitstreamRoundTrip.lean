import Eidolon.Library.BitString
import Eidolon.Net.Bitstream

/-!
# Bitstream round trip

Whatever is written to a bitstream is read back by the matching reads.  Both sides are
described by the bits of the buffer: a write leaves a number in the bits that it covers
and keeps the bits before them, a read returns the number that the bits stand for.  The
byte-aligned paths and the bit loops meet in this description.
-/

namespace Eidolon.Net

open Library List

theorem toNat_lowMask {take : Nat} (small : take ≤ 8) : (lowMask take).toNat = 2 ^ take - 1 := by
  have table : ∀ take ≤ 8, (lowMask take).toNat = 2 ^ take - 1 := by
    decide
  exact table take small

private theorem testBit_lowMask {take : Nat} (small : take ≤ 8) (place : Nat) :
    (lowMask take).toNat.testBit place = decide (place < take) := by
  rw [toNat_lowMask small, Nat.testBit_two_pow_sub_one]

private theorem testBit_shiftLeft {byte : UInt8} {shift place : Nat} (small : shift < 8)
    (inside : place < 8) :
    (byte <<< UInt8.ofNat shift).toNat.testBit place =
      (decide (shift ≤ place) && byte.toNat.testBit (place - shift)) := by
  have shiftMod : shift % 2 ^ 8 % 8 = shift := by omega
  rw [UInt8.toNat_shiftLeft, UInt8.toNat_ofNat', shiftMod, Nat.testBit_mod_two_pow]
  simp [inside]

private theorem testBit_not {byte : UInt8} {place : Nat} (inside : place < 8) :
    (~~~byte).toNat.testBit place = !byte.toNat.testBit place := by
  rw [← UInt8.toNat_toBitVec, UInt8.toBitVec_not, BitVec.testBit_toNat, BitVec.getLsbD_not,
    ← BitVec.testBit_toNat]
  simp [inside]

private theorem testBit_putChunk {byte chunk : UInt8} {take shift place : Nat}
    (fits : shift + take ≤ 8) (nonempty : 0 < take) (small : chunk.toNat < 2 ^ take)
    (inside : place < 8) :
    ((byte &&& ~~~(lowMask take <<< UInt8.ofNat shift)) |||
      (chunk <<< UInt8.ofNat shift)).toNat.testBit place =
      if shift ≤ place ∧ place < shift + take then chunk.toNat.testBit (place - shift)
      else byte.toNat.testBit place := by
  rw [UInt8.toNat_or, UInt8.toNat_and, Nat.testBit_or, Nat.testBit_and, testBit_not inside,
    testBit_shiftLeft (by omega) inside, testBit_shiftLeft (by omega) inside,
    testBit_lowMask (by omega)]
  by_cases low : shift ≤ place
  · by_cases high : place < shift + take
    · have : place - shift < take := by omega
      simp [low, high, this]
    have : ¬ place - shift < take := by omega
    have : chunk.toNat.testBit (place - shift) = false := by
      apply Nat.testBit_lt_two_pow
      apply Nat.lt_of_lt_of_le small
      exact Nat.pow_le_pow_right (by decide) (by omega)
    simp [*]
  simp [low]


private theorem testBit_getChunk {byte : UInt8} {take shift : Nat} (place : Nat)
    (fits : shift + take ≤ 8) (nonempty : 0 < take) :
    ((byte &&& (lowMask take <<< UInt8.ofNat shift)) >>> UInt8.ofNat shift).toNat.testBit place =
      (decide (place < take) && byte.toNat.testBit (shift + place)) := by
  have shiftMod : shift % 2 ^ 8 % 8 = shift := by omega
  rw [UInt8.toNat_shiftRight, UInt8.toNat_ofNat', shiftMod, Nat.testBit_shiftRight,
    UInt8.toNat_and, Nat.testBit_and]
  by_cases inside : place < take
  · rw [testBit_shiftLeft (by omega) (by omega), testBit_lowMask (by omega)]
    simp [inside]
  by_cases high : shift + place < 8
  · rw [testBit_shiftLeft (by omega) high, testBit_lowMask (by omega)]
    simp [inside]
  have none : byte.toNat.testBit (shift + place) = false := by
    apply Nat.testBit_lt_two_pow
    apply Nat.lt_of_lt_of_le byte.toNat_lt
    exact Nat.pow_le_pow_right (by decide) (by omega)
  simp [none]

private theorem bitsValue_putChunk {buffer : List UInt8} {offset take : Nat}
    {byte chunk : UInt8} (found : buffer[offset / 8]? = some byte)
    (fits : offset % 8 + take ≤ 8) (nonempty : 0 < take) (small : chunk.toNat < 2 ^ take) :
    bitsValue (buffer.set (offset / 8)
          ((byte &&& ~~~(lowMask take <<< UInt8.ofNat (8 - offset % 8 - take))) |||
            (chunk <<< UInt8.ofNat (8 - offset % 8 - take))))
        offset take =
      chunk.toNat := by
  have here := (List.getElem?_eq_some_iff.mp found).1
  apply bitsValue_eq_of_testBit small
  intro place inside
  have quotient : (offset + place) / 8 = offset / 8 := by omega
  have fromTop : 7 - (offset + place) % 8 - (8 - offset % 8 - take) = take - 1 - place := by
    omega
  rw [streamBit_set, if_pos ⟨quotient, here⟩,
    testBit_putChunk (by omega) nonempty small (by omega), if_pos (by omega), fromTop]

theorem streamBit_putChunk {buffer : List UInt8} {offset take : Nat}
    {byte chunk : UInt8} (found : buffer[offset / 8]? = some byte)
    (fits : offset % 8 + take ≤ 8) (nonempty : 0 < take) (small : chunk.toNat < 2 ^ take)
    {index : Nat} (outside : index < offset ∨ offset + take ≤ index) :
    streamBit (buffer.set (offset / 8)
        ((byte &&& ~~~(lowMask take <<< UInt8.ofNat (8 - offset % 8 - take))) |||
          (chunk <<< UInt8.ofNat (8 - offset % 8 - take)))) index =
      streamBit buffer index := by
  rw [streamBit_set]
  by_cases same : index / 8 = offset / 8
  · have here := (List.getElem?_eq_some_iff.mp found).1
    rw [if_pos ⟨same, here⟩, testBit_putChunk (by omega) nonempty small (by omega),
      if_neg (by omega), streamBit, same, getD_eq_getElem?_getD, found]
    rfl
  rw [if_neg (fun both => same both.1)]

private theorem toNat_getChunk {buffer : List UInt8} {offset take : Nat} {byte : UInt8}
    (found : buffer[offset / 8]? = some byte) (fits : offset % 8 + take ≤ 8) (nonempty : 0 < take) :
    ((byte &&& (lowMask take <<< UInt8.ofNat (8 - offset % 8 - take))) >>>
        UInt8.ofNat (8 - offset % 8 - take)).toNat =
      bitsValue buffer offset take := by
  symm
  apply bitsValue_eq_of_testBit
  · apply Nat.lt_pow_two_of_testBit
    intro place outside
    rw [testBit_getChunk place (by omega) nonempty]
    simp [Nat.not_lt.mpr outside]
  intro place inside
  have quotient : (offset + place) / 8 = offset / 8 := by omega
  have fromTop : 8 - offset % 8 - take + (take - 1 - place) = 7 - (offset + place) % 8 := by
    omega
  rw [testBit_getChunk _ (by omega) nonempty, fromTop, streamBit, quotient,
    getD_eq_getElem?_getD, found]
  simp
  omega

structure Wrote (before after : BitWriter) (width : Nat) : Prop where
  length : after.buffer.length = before.buffer.length
  offset : after.bitOffset = before.bitOffset + width
  inside : before.bitOffset ≤ 8 * before.buffer.length →
    after.bitOffset ≤ 8 * after.buffer.length
  kept : AgreeBelow after.buffer before.buffer before.bitOffset

theorem Wrote.refl (writer : BitWriter) : Wrote writer writer 0 where
  length := rfl
  offset := rfl
  inside := id
  kept := AgreeBelow.refl _ _

theorem Wrote.trans {first second third : BitWriter} {width wider : Nat}
    (before : Wrote first second width) (behind : Wrote second third wider) :
    Wrote first third (width + wider) where
  length := behind.length.trans before.length
  offset := by
    rw [behind.offset, before.offset, Nat.add_assoc]
  inside := fun start => behind.inside (before.inside start)
  kept := (behind.kept.mono (by rw [before.offset]; omega)).trans before.kept

theorem Wrote.bitsValue_eq {first second third : BitWriter} {width wider : Nat}
    (before : Wrote first second width) (behind : Wrote second third wider) :
    bitsValue third.buffer first.bitOffset width = bitsValue second.buffer first.bitOffset width :=
  behind.kept.bitsValue_eq (Nat.le_of_eq before.offset.symm)

theorem writeChunks_spec {turns : Nat} {curVal : UInt64} {remBits : Nat}
    {writer : BitWriter} (enough : remBits ≤ turns) (width : remBits ≤ 64)
    (inside : writer.bitOffset + remBits ≤ 8 * writer.buffer.length) :
    Wrote writer (BitWriter.writeChunks turns curVal remBits writer) remBits ∧
      bitsValue (BitWriter.writeChunks turns curVal remBits writer).buffer writer.bitOffset
        remBits = curVal.toNat % 2 ^ remBits := by
  induction turns generalizing remBits writer with
  | zero =>
    have done : remBits = 0 := by omega
    subst done
    exact ⟨Wrote.refl writer, by rw [bitsValue, Nat.pow_zero, Nat.mod_one]⟩
  | succ turns ih =>
    rw [BitWriter.writeChunks]
    by_cases done : remBits = 0
    · subst done
      exact ⟨Wrote.refl writer, by rw [bitsValue, Nat.pow_zero, Nat.mod_one]⟩
    rw [if_neg done]
    have here : writer.bitOffset / 8 < writer.buffer.length := by omega
    have found := getElem?_eq_getElem here
    simp only [found]
    generalize takeIs : min remBits (8 - writer.bitOffset % 8) = take
    have nonempty : 0 < take := by omega
    have fits : writer.bitOffset % 8 + take ≤ 8 := by omega
    have within : take ≤ remBits := by omega
    have chunkIs : ((curVal >>> UInt64.ofNat (remBits - take)).toUInt8 &&& lowMask take).toNat =
          curVal.toNat / 2 ^ (remBits - take) % 2 ^ take := by
      have shiftMod : (remBits - take) % 2 ^ 64 % 64 = remBits - take := by omega
      rw [UInt8.toNat_and, toNat_lowMask (by omega), Nat.and_two_pow_sub_one_eq_mod,
        UInt64.toNat_toUInt8, UInt64.toNat_shiftRight, UInt64.toNat_ofNat', shiftMod,
        Nat.shiftRight_eq_div_pow,
        Nat.mod_mod_of_dvd _ (Nat.pow_dvd_pow 2 (by omega : take ≤ 8))]
    have small : ((curVal >>> UInt64.ofNat (remBits - take)).toUInt8 &&& lowMask take).toNat <
          2 ^ take := by
      rw [chunkIs]
      exact Nat.mod_lt _ (Nat.two_pow_pos take)
    have put := bitsValue_putChunk found fits nonempty small
    have keep := fun index before =>
      @streamBit_putChunk _ _ _ _ _ found fits nonempty small index (Or.inl before)
    rw [chunkIs] at put
    generalize chunkedIs : writer.buffer.set (writer.bitOffset / 8) _ = chunked at put keep ⊢
    have chunkedLength : chunked.length = writer.buffer.length := by
      rw [← chunkedIs, length_set]
    have turn : Wrote writer { buffer := chunked, bitOffset := writer.bitOffset + take } take :=
      { length := chunkedLength
        offset := rfl
        inside := fun _ => by
          simp only [chunkedLength]
          omega
        kept := keep }
    obtain ⟨rest, restValue⟩ :=
      @ih (remBits - take)
        { buffer := chunked, bitOffset := writer.bitOffset + take } (by omega) (by omega)
        (by simp only [chunkedLength]; omega)
    have whole := turn.trans rest
    rw [Nat.add_sub_cancel' within] at whole
    refine ⟨whole, ?_⟩
    have front := turn.bitsValue_eq rest
    have split : 2 ^ remBits = 2 ^ (remBits - take) * 2 ^ take := by
      rw [← Nat.pow_add, Nat.sub_add_cancel within]
    rw [bitsValue_split within, front, restValue, put, split, Nat.mod_mul]
    ring

private theorem readChunks_spec {turns : Nat} {value : UInt64} {remBits : Nat} {reader : BitReader}
    (enough : remBits ≤ turns) (room : (value.toNat + 1) * 2 ^ remBits ≤ 2 ^ 64)
    (inside : reader.bitOffset + remBits ≤ 8 * reader.buffer.length) :
    (BitReader.readChunks turns value remBits reader).1.toNat =
        value.toNat * 2 ^ remBits + bitsValue reader.buffer reader.bitOffset remBits ∧
      (BitReader.readChunks turns value remBits reader).2 =
        { reader with bitOffset := reader.bitOffset + remBits } := by
  induction turns generalizing value remBits reader with
  | zero =>
    have done : remBits = 0 := by omega
    subst done
    rw [BitReader.readChunks, bitsValue]
    exact ⟨by simp, rfl⟩
  | succ turns ih =>
    rw [BitReader.readChunks]
    by_cases done : remBits = 0
    · subst done
      rw [bitsValue]
      exact ⟨by simp, rfl⟩
    rw [if_neg done]
    have here : reader.bitOffset / 8 < reader.buffer.length := by omega
    have found := getElem?_eq_getElem here
    simp only [found]
    generalize takeIs : min remBits (8 - reader.bitOffset % 8) = take
    have nonempty : 0 < take := by omega
    have fits : reader.bitOffset % 8 + take ≤ 8 := by omega
    have within : take ≤ remBits := by omega
    have got := toNat_getChunk found fits nonempty
    have small := bitsValue_lt reader.buffer reader.bitOffset take
    generalize (_ : UInt8) >>> UInt8.ofNat (8 - reader.bitOffset % 8 - take) = chunk at got ⊢
    have powers : 2 ^ remBits = 2 ^ take * 2 ^ (remBits - take) := by
      rw [← Nat.pow_add, Nat.add_sub_cancel' within]
    have shifted : value.toNat * 2 ^ take < 2 ^ 64 := by
      have le : 2 ^ take ≤ 2 ^ remBits := Nat.pow_le_pow_right (by decide) within
      have positive := Nat.two_pow_pos remBits
      calc
        value.toNat * 2 ^ take ≤ value.toNat * 2 ^ remBits := Nat.mul_le_mul_left _ le
        _ < value.toNat * 2 ^ remBits + 2 ^ remBits := Nat.lt_add_of_pos_right positive
        _ = (value.toNat + 1) * 2 ^ remBits := by ring
        _ ≤ 2 ^ 64 := room
    have nextIs : (value <<< UInt64.ofNat take ||| chunk.toUInt64).toNat =
          value.toNat * 2 ^ take + bitsValue reader.buffer reader.bitOffset take := by
      have takeMod : take % 2 ^ 64 % 64 = take := by omega
      rw [UInt64.toNat_or, UInt64.toNat_shiftLeft, UInt64.toNat_ofNat', takeMod,
        Nat.shiftLeft_eq, Nat.mod_eq_of_lt shifted, UInt8.toNat_toUInt64, got,
        ← Nat.shiftLeft_eq, Nat.shiftLeft_add_eq_or_of_lt small]
    have nextRoom :
        ((value <<< UInt64.ofNat take ||| chunk.toUInt64).toNat + 1) * 2 ^ (remBits - take) ≤
          2 ^ 64 := by
      calc
        _ ≤ (value.toNat * 2 ^ take + 2 ^ take) * 2 ^ (remBits - take) :=
          Nat.mul_le_mul_right _ (by omega)
        _ = (value.toNat + 1) * 2 ^ remBits := by
          rw [powers]
          ring
        _ ≤ 2 ^ 64 := room
    obtain ⟨restValue, restReader⟩ :=
      @ih _ (remBits - take)
        { reader with bitOffset := reader.bitOffset + take } (by omega) nextRoom
        (by simp only; omega)
    refine ⟨?_, ?_⟩
    · rw [restValue, nextIs, bitsValue_split within, powers]
      ring
    rw [restReader, Nat.add_assoc, Nat.add_sub_cancel' within]

theorem putAligned_spec {writer after : BitWriter} {bytes : List UInt8}
    (put : writer.putAligned bytes = some after) :
    Wrote writer after (8 * bytes.length) ∧ writer.bitOffset % 8 = 0 ∧
      streamBytes after.buffer writer.bitOffset bytes.length = bytes := by
  rw [BitWriter.putAligned] at put
  split at put
  · rename_i fits
    obtain ⟨aligned, room⟩ := fits
    cases put
    have boundary : writer.bitOffset = 8 * (writer.bitOffset / 8) := by omega
    generalize writer.bitOffset / 8 = start at boundary room ⊢
    have frontLength : (writer.buffer.take start).length = start := by
      rw [length_take]
      omega
    have whole :
        (writer.buffer.take start ++ bytes ++ writer.buffer.drop (start + bytes.length)).length =
          writer.buffer.length := by
      simp only [length_append, length_take, length_drop]
      omega
    refine ⟨⟨whole, rfl, fun _ => ?_, ?_⟩, aligned, ?_⟩
    · simp only [whole]
      omega
    · intro index before
      have inFront : index < 8 * start := by omega
      rw [append_assoc, streamBit_append (by rw [frontLength]; exact inFront),
        streamBit_take inFront]
    rw [boundary, streamBytes_aligned (by rw [whole]; exact room), append_assoc,
      drop_left' frontLength, take_left' rfl]
  cases put

theorem getAligned_of_aligned {reader : BitReader} {count : Nat}
    (aligned : reader.bitOffset % 8 = 0)
    (room : reader.bitOffset + 8 * count ≤ 8 * reader.buffer.length) :
    reader.getAligned count = some (streamBytes reader.buffer reader.bitOffset count,
        { reader with bitOffset := reader.bitOffset + 8 * count }) := by
  have boundary : reader.bitOffset = 8 * (reader.bitOffset / 8) := by omega
  have fits : reader.bitOffset / 8 + count ≤ reader.buffer.length := by omega
  rw [BitReader.getAligned, if_pos ⟨aligned, fits⟩, ← streamBytes_aligned fits, ← boundary]

theorem getAligned_of_not_aligned {reader : BitReader} {count : Nat}
    (between : reader.bitOffset % 8 ≠ 0) : reader.getAligned count = none := by
  rw [BitReader.getAligned, if_neg (fun both => between both.1)]

theorem alignedBytes_spec {value : UInt64} {numBits : Nat} {bytes : List UInt8}
    (path : BitWriter.alignedBytes value numBits = some bytes) :
    numBits = 8 * bytes.length ∧ ofBigEndian bytes = value.toNat % 2 ^ numBits := by
  rw [BitWriter.alignedBytes] at path
  by_cases byte : numBits = 8
  · rw [if_pos byte] at path
    cases path
    subst byte
    exact ⟨rfl, by simp [ofBigEndian, ofLittleEndian]⟩
  by_cases half : numBits = 16
  · rw [if_neg byte, if_pos half] at path
    cases path
    subst half
    refine ⟨by rw [length_bigEndian], ?_⟩
    rw [ofBigEndian_bigEndian (by exact value.toUInt16.toNat_lt), UInt64.toNat_toUInt16]
  by_cases word : numBits = 32
  · rw [if_neg byte, if_neg half, if_pos word] at path
    cases path
    subst word
    refine ⟨by rw [length_bigEndian], ?_⟩
    rw [ofBigEndian_bigEndian (by exact value.toUInt32.toNat_lt), UInt64.toNat_toUInt32]
  by_cases long : numBits = 64
  · rw [if_neg byte, if_neg half, if_neg word, if_pos long] at path
    cases path
    subst long
    refine ⟨by rw [length_bigEndian], ?_⟩
    rw [ofBigEndian_bigEndian (by exact value.toNat_lt), Nat.mod_eq_of_lt value.toNat_lt]
  rw [if_neg byte, if_neg half, if_neg word, if_neg long] at path
  cases path

private theorem alignedCount_spec {numBits count : Nat}
    (path : BitReader.alignedCount numBits = some count) : numBits = 8 * count := by
  rw [BitReader.alignedCount] at path
  split at path
  · cases path
    assumption
  split at path
  · cases path
    assumption
  split at path
  · cases path
    assumption
  split at path
  · cases path
    assumption
  cases path

theorem writeBits_spec {writer after : BitWriter} {value : UInt64} {numBits : Nat}
    (written : writer.writeBits value numBits = (.ok (), after)) :
    Wrote writer after numBits ∧
      bitsValue after.buffer writer.bitOffset numBits = value.toNat % 2 ^ numBits ∧
      numBits ≤ 64 ∧ (0 < numBits → writer.bitOffset + numBits ≤ usizeMax) := by
  rw [BitWriter.writeBits] at written
  by_cases empty : numBits = 0
  · rw [if_pos empty] at written
    cases written
    subst empty
    exact ⟨Wrote.refl writer, by rw [bitsValue, Nat.pow_zero, Nat.mod_one], by omega,
      by omega⟩
  by_cases wide : 64 < numBits
  · rw [if_neg empty, if_pos wide] at written
    cases written
  by_cases full : writer.remainingBits < numBits
  · rw [if_neg empty, if_neg wide, if_pos full] at written
    cases written
  rw [if_neg empty, if_neg wide, if_neg full] at written
  rw [BitWriter.remainingBits, BitWriter.totalBits] at full
  have most : writer.bitOffset + numBits ≤ usizeMax := by omega
  refine and_assoc.mp ⟨?_, by omega, fun _ => most⟩
  cases fast : (BitWriter.alignedBytes value numBits).bind writer.putAligned with
  | some fastAfter =>
    rw [fast] at written
    cases written
    obtain ⟨bytes, path, put⟩ := Option.bind_eq_some_iff.mp fast
    obtain ⟨widthIs, valueIs⟩ := alignedBytes_spec path
    obtain ⟨wrote, -, readable⟩ := putAligned_spec put
    rw [← valueIs, widthIs]
    exact ⟨wrote, by rw [bitsValue_bytes, readable]⟩
  | none =>
    rw [fast] at written
    cases written
    obtain ⟨wrote, readable⟩ :=
      @writeChunks_spec numBits (if numBits = 64 then value
          else value &&& (((1 : UInt64) <<< UInt64.ofNat numBits) - 1))
        numBits writer (Nat.le_refl numBits) (by omega) (by omega)
    refine ⟨wrote, readable.trans ?_⟩
    by_cases long : numBits = 64
    · rw [if_pos long]
    have shiftMod : numBits % 2 ^ 64 % 64 = numBits := by omega
    have powerSmall : 2 ^ numBits < 2 ^ 64 := Nat.pow_lt_pow_right (by decide) (by omega)
    have maskIs : (((1 : UInt64) <<< UInt64.ofNat numBits) - 1).toNat = 2 ^ numBits - 1 := by
      have shifted : ((1 : UInt64) <<< UInt64.ofNat numBits).toNat = 2 ^ numBits := by
        rw [UInt64.toNat_shiftLeft, UInt64.toNat_ofNat', shiftMod, UInt64.toNat_one,
          Nat.one_shiftLeft, Nat.mod_eq_of_lt powerSmall]
      have positive := Nat.two_pow_pos numBits
      rw [UInt64.toNat_sub_of_le _ _ (by rw [UInt64.le_iff_toNat_le, shifted]; exact positive),
        shifted, UInt64.toNat_one]
    rw [if_neg long, UInt64.toNat_and, maskIs, Nat.and_two_pow_sub_one_eq_mod, Nat.mod_mod]

theorem readBits_spec {reader : BitReader} {numBits : Nat} (narrow : numBits ≤ 64)
    (room : reader.bitOffset + numBits ≤ 8 * reader.buffer.length)
    (most : 0 < numBits → reader.bitOffset + numBits ≤ usizeMax) :
    reader.readBits numBits =
      (.ok (UInt64.ofNat (bitsValue reader.buffer reader.bitOffset numBits)),
        { reader with bitOffset := reader.bitOffset + numBits }) := by
  rw [BitReader.readBits]
  by_cases empty : numBits = 0
  · subst empty
    rfl
  have enough : ¬ reader.remainingBits < numBits := by
    rw [BitReader.remainingBits, BitReader.totalBits]
    omega
  rw [if_neg empty, if_neg (by omega), if_neg enough]
  cases fast : (BitReader.alignedCount numBits).bind reader.getAligned with
  | some result =>
    obtain ⟨count, path, got⟩ := Option.bind_eq_some_iff.mp fast
    have widthIs := alignedCount_spec path
    have aligned : reader.bitOffset % 8 = 0 := by
      by_contra between
      rw [getAligned_of_not_aligned between] at got
      cases got
    rw [getAligned_of_aligned aligned (by omega)] at got
    cases got
    rw [widthIs, bitsValue_bytes]
  | none =>
    obtain ⟨valueIs, afterIs⟩ :=
      @readChunks_spec numBits 0 numBits reader (Nat.le_refl numBits) (by
          have := Nat.pow_le_pow_right (by decide : 0 < 2) narrow
          rw [UInt64.toNat_zero]
          omega)
        room
    rw [UInt64.toNat_zero, Nat.zero_mul, Nat.zero_add] at valueIs
    simp only
    rw [afterIs, ← valueIs, UInt64.ofNat_toNat]

theorem writeWord_spec {writer after : BitWriter} {width : Nat} {value : UInt64}
    (small : value.toNat < 256 ^ width) (nonempty : 0 < width)
    (written : writer.writeWord width value = (.ok (), after)) :
    Wrote writer after (8 * width) ∧
      bitsValue after.buffer writer.bitOffset (8 * width) = value.toNat ∧
      (writer.bitOffset % 8 = 0 ∨ writer.bitOffset + 8 * width ≤ usizeMax) := by
  rw [BitWriter.writeWord] at written
  cases fast : writer.putAligned (bigEndian width value.toNat) with
  | some fastAfter =>
    rw [fast] at written
    cases written
    obtain ⟨wrote, aligned, readable⟩ := putAligned_spec fast
    rw [length_bigEndian] at wrote readable
    exact ⟨wrote, by rw [bitsValue_bytes, readable, ofBigEndian_bigEndian small], Or.inl aligned⟩
  | none =>
    rw [fast] at written
    obtain ⟨wrote, readable, -, most⟩ := writeBits_spec written
    have fits : value.toNat < 2 ^ (8 * width) := by
      rw [Nat.pow_mul]
      exact small
    exact ⟨wrote, by rw [readable, Nat.mod_eq_of_lt fits], Or.inr (most (by omega))⟩

theorem readWord_spec {reader : BitReader} {width : Nat} (narrow : width ≤ 8)
    (room : reader.bitOffset + 8 * width ≤ 8 * reader.buffer.length)
    (most : reader.bitOffset % 8 = 0 ∨ reader.bitOffset + 8 * width ≤ usizeMax) :
    reader.readWord width =
      (.ok (UInt64.ofNat (bitsValue reader.buffer reader.bitOffset (8 * width))),
        { reader with bitOffset := reader.bitOffset + 8 * width }) := by
  rw [BitReader.readWord]
  by_cases aligned : reader.bitOffset % 8 = 0
  · rw [getAligned_of_aligned aligned room]
    rw [bitsValue_bytes]
  rw [getAligned_of_not_aligned aligned]
  exact readBits_spec (by omega) room (fun _ => most.resolve_left aligned)

private theorem testBit_one_shiftLeft {shift place : Nat} (small : shift < 8) (inside : place < 8) :
    ((1 : UInt8) <<< UInt8.ofNat shift).toNat.testBit place = decide (shift = place) := by
  rw [testBit_shiftLeft small inside]
  by_cases same : shift = place
  · simp [same]
  by_cases below : shift ≤ place
  · have apart : place - shift ≠ 0 := by omega
    have none : Nat.testBit 1 (place - shift) = false :=
      Nat.testBit_lt_two_pow (Nat.one_lt_two_pow apart)
    simp [same, none]
  simp [same, below]

theorem streamBit_writeBit {writer after : BitWriter} {value : Bool}
    (written : writer.writeBit value = (.ok (), after)) (index : Nat) :
    streamBit after.buffer index =
      if index = writer.bitOffset then value else streamBit writer.buffer index := by
  rw [BitWriter.writeBit] at written
  rcases found : writer.buffer[writer.bitOffset / 8]? with _ | byte
  · simp only [found] at written
    cases written
  simp only [found] at written
  cases written
  have here := (List.getElem?_eq_some_iff.mp found).1
  have bits : ∀ place, place < 8 →
      (if value then byte ||| (1 : UInt8) <<< UInt8.ofNat (7 - writer.bitOffset % 8)
        else byte &&& ~~~((1 : UInt8) <<< UInt8.ofNat (7 - writer.bitOffset % 8))
        ).toNat.testBit place =
        if 7 - writer.bitOffset % 8 = place then value else byte.toNat.testBit place := by
    intro place inside
    have mask :=
      @testBit_one_shiftLeft (7 - writer.bitOffset % 8) place (by omega) inside
    cases value with
    | true =>
      rw [if_pos rfl, UInt8.toNat_or, Nat.testBit_or, mask]
      by_cases same : 7 - writer.bitOffset % 8 = place
      · simp [same]
      simp [same]
    | false =>
      rw [if_neg (by decide), UInt8.toNat_and, Nat.testBit_and, testBit_not inside, mask]
      by_cases same : 7 - writer.bitOffset % 8 = place
      · simp [same]
      simp [same]
  rw [streamBit_set]
  by_cases same : index / 8 = writer.bitOffset / 8
  · rw [if_pos ⟨same, here⟩, bits _ (by omega)]
    by_cases exact : index = writer.bitOffset
    · rw [if_pos (by omega), if_pos exact]
    rw [if_neg (by omega), if_neg exact, streamBit, same, getD_eq_getElem?_getD, found]
    rfl
  rw [if_neg (fun both => same both.1), if_neg (fun exact => same (by rw [exact]))]

theorem writeBit_eq_ok {writer after : BitWriter} {value : Bool}
    (written : writer.writeBit value = (.ok (), after)) :
    after.buffer.length = writer.buffer.length ∧ after.bitOffset = writer.bitOffset + 1 ∧
      writer.bitOffset < 8 * writer.buffer.length := by
  rw [BitWriter.writeBit] at written
  rcases found : writer.buffer[writer.bitOffset / 8]? with _ | byte
  · simp only [found] at written
    cases written
  simp only [found] at written
  cases written
  have here := (List.getElem?_eq_some_iff.mp found).1
  exact ⟨length_set, rfl, by omega⟩

theorem writeBit_spec {writer after : BitWriter} {value : Bool}
    (written : writer.writeBit value = (.ok (), after)) :
    Wrote writer after 1 ∧ streamBit after.buffer writer.bitOffset = value := by
  obtain ⟨length, offset, room⟩ := writeBit_eq_ok written
  have bits := streamBit_writeBit written
  refine ⟨⟨length, offset, fun _ => by omega, fun index before => ?_⟩, ?_⟩
  · rw [bits, if_neg (by omega)]
  rw [bits, if_pos rfl]

theorem readBit_spec {reader : BitReader} (room : reader.bitOffset + 1 ≤ 8 * reader.buffer.length) :
    reader.readBit = (.ok (streamBit reader.buffer reader.bitOffset),
        { reader with bitOffset := reader.bitOffset + 1 }) := by
  have here : reader.bitOffset / 8 < reader.buffer.length := by omega
  have found := getElem?_eq_getElem here
  have mask : ((1 : UInt8) <<< UInt8.ofNat (7 - reader.bitOffset % 8)).toNat =
      2 ^ (7 - reader.bitOffset % 8) := by
    apply Nat.eq_of_testBit_eq
    intro place
    by_cases inside : place < 8
    · rw [testBit_one_shiftLeft (by omega) inside, Nat.testBit_two_pow]
    have high : (2 : Nat) ^ 8 ≤ 2 ^ place := Nat.pow_le_pow_right (by decide) (by omega)
    rw [Nat.testBit_two_pow_of_ne (by omega),
      Nat.testBit_lt_two_pow (Nat.lt_of_lt_of_le (UInt8.toNat_lt _) high)]
  have bit : decide (reader.buffer[reader.bitOffset / 8] &&&
        (1 : UInt8) <<< UInt8.ofNat (7 - reader.bitOffset % 8) ≠ 0) =
      reader.buffer[reader.bitOffset / 8].toNat.testBit (7 - reader.bitOffset % 8) := by
    simp only [ne_eq, ← UInt8.toNat_inj, UInt8.toNat_and, mask, Nat.and_two_pow, UInt8.toNat_zero]
    cases reader.buffer[reader.bitOffset / 8].toNat.testBit (7 - reader.bitOffset % 8) with
    | _ => simp
  rw [BitReader.readBit]
  simp only [found]
  rw [bit, streamBit_of_lt here]

theorem writeU8_spec {writer after : BitWriter} {byte : UInt8}
    (written : writer.writeU8 byte = (.ok (), after)) :
    Wrote writer after 8 ∧ bitsValue after.buffer writer.bitOffset 8 = byte.toNat ∧
      (writer.bitOffset % 8 = 0 ∨ writer.bitOffset + 8 ≤ usizeMax) := by
  have small : byte.toUInt64.toNat < 256 ^ 1 :=
    byte.toNat_lt
  have spec := writeWord_spec small Nat.one_pos written
  exact spec

theorem readU8_spec {reader : BitReader} (room : reader.bitOffset + 8 ≤ 8 * reader.buffer.length)
    (most : reader.bitOffset % 8 = 0 ∨ reader.bitOffset + 8 ≤ usizeMax) :
    reader.readU8 = (.ok (UInt8.ofNat (bitsValue reader.buffer reader.bitOffset 8)),
        { reader with bitOffset := reader.bitOffset + 8 }) := by
  rw [BitReader.readU8, readWord_spec (by decide) room most]
  simp only [Except.map]
  rw [UInt64.toUInt8_ofNat']

theorem writeEachByte_spec {bytes : List UInt8} {writer after : BitWriter}
    (written : BitWriter.writeEachByte bytes writer = (.ok (), after)) :
    Wrote writer after (8 * bytes.length) ∧
      streamBytes after.buffer writer.bitOffset bytes.length = bytes := by
  induction bytes generalizing writer with
  | nil =>
    cases written
    exact ⟨Wrote.refl _, rfl⟩
  | cons byte bytes ih =>
    rw [BitWriter.writeEachByte] at written
    rcases first : BitWriter.writeU8 writer byte with ⟨result, middle⟩
    rw [first] at written
    rcases result with error | _
    · cases written
    obtain ⟨wrote, here, -⟩ := writeU8_spec first
    obtain ⟨rest, readable⟩ := ih written
    have width : 8 * (byte :: bytes).length = 8 + 8 * bytes.length := by
      rw [length_cons]
      ring
    refine ⟨by rw [width]; exact wrote.trans rest, ?_⟩
    rw [length_cons, streamBytes, wrote.bitsValue_eq rest, here, ← wrote.offset,
      readable, UInt8.ofNat_toNat]

theorem readEachByte_spec {count : Nat} {reader : BitReader}
    (room : reader.bitOffset + 8 * count ≤ 8 * reader.buffer.length)
    (most : 0 < count → reader.bitOffset + 8 * count ≤ usizeMax) :
    BitReader.readEachByte count reader = (.ok (streamBytes reader.buffer reader.bitOffset count),
        { reader with bitOffset := reader.bitOffset + 8 * count }) := by
  induction count generalizing reader with
  | zero => rfl
  | succ count ih =>
    have next := @ih { reader with bitOffset := reader.bitOffset + 8 }
      (by simp only; omega) (fun _ => by simp only; omega)
    have width : reader.bitOffset + 8 + 8 * count = reader.bitOffset + 8 * (count + 1) := by
      ring
    rw [BitReader.readEachByte, readU8_spec (by omega) (Or.inr (by omega))]
    simp only
    rw [next]
    simp only [Except.map, width]
    rw [streamBytes]

theorem writeBytes_spec {writer after : BitWriter} {bytes : List UInt8}
    (written : writer.writeBytes bytes = (.ok (), after)) :
    Wrote writer after (8 * bytes.length) ∧
      streamBytes after.buffer writer.bitOffset bytes.length = bytes ∧
      min (bytes.length * 8) usizeMax ≤ usizeMax - writer.bitOffset := by
  rw [BitWriter.writeBytes] at written
  by_cases full : writer.remainingBits < min (bytes.length * 8) usizeMax
  · simp only [full, if_true] at written
    cases written
  simp only [full, if_false] at written
  rw [BitWriter.remainingBits, BitWriter.totalBits] at full
  refine and_assoc.mp ⟨?_, by omega⟩
  cases fast : writer.putAligned bytes with
  | some fastAfter =>
    simp only [fast] at written
    cases written
    obtain ⟨wrote, -, readable⟩ := putAligned_spec fast
    exact ⟨wrote, readable⟩
  | none =>
    simp only [fast] at written
    exact writeEachByte_spec written

theorem readBytes_spec {reader : BitReader} {count : Nat}
    (room : reader.bitOffset + 8 * count ≤ 8 * reader.buffer.length)
    (most : min (count * 8) usizeMax ≤ usizeMax - reader.bitOffset) :
    reader.readBytes count = (.ok (streamBytes reader.buffer reader.bitOffset count),
        { reader with bitOffset := reader.bitOffset + 8 * count }) := by
  have enough : ¬ reader.remainingBits < min (count * 8) usizeMax := by
    rw [BitReader.remainingBits, BitReader.totalBits]
    omega
  rw [BitReader.readBytes]
  simp only [enough, if_false]
  by_cases aligned : reader.bitOffset % 8 = 0
  · rw [getAligned_of_aligned aligned room]
  rw [getAligned_of_not_aligned aligned]
  have positive : 0 < usizeMax := by decide
  exact readEachByte_spec room (fun nonempty => by omega)

private theorem toNat_varintLow (value : UInt64) :
    (value &&& 0x7F).toUInt8.toNat = value.toNat % 128 := by
  have mask : (0x7F : UInt64).toNat = 2 ^ 7 - 1 := by decide
  rw [UInt64.toNat_toUInt8, UInt64.toNat_and, mask, Nat.and_two_pow_sub_one_eq_mod]
  omega

private theorem toNat_varintByte {low : UInt8} (small : low.toNat < 128) :
    (low ||| 0x80).toNat = 128 + low.toNat := by
  have mask : (0x80 : UInt8).toNat = 2 ^ 7 * 1 := by decide
  rw [UInt8.toNat_or, mask, Nat.or_comm, ← Nat.two_pow_add_eq_or_of_lt small]

private theorem toNat_varintVal (byte : UInt8) :
    (byte &&& 0x7F).toUInt64.toNat = byte.toNat % 128 := by
  have mask : (0x7F : UInt8).toNat = 2 ^ 7 - 1 := by decide
  rw [UInt8.toNat_toUInt64, UInt8.toNat_and, mask, Nat.and_two_pow_sub_one_eq_mod]

private theorem varint_last_iff (byte : UInt8) : byte &&& 0x80 = 0 ↔ byte.toNat < 128 := by
  have mask : (0x80 : UInt8).toNat = 2 ^ 7 := by decide
  rw [← UInt8.toNat_inj, UInt8.toNat_and, mask, Nat.and_two_pow, Nat.testBit_eq_decide_div_mod_eq]
  have small := byte.toNat_lt
  by_cases low : byte.toNat < 128
  · have none : byte.toNat / 128 % 2 = 0 := by omega
    simp [low, none]
  have one : byte.toNat / 128 % 2 = 1 := by omega
  simp [low, one]

/-- What a successful write does to the buffer, and that the matching read then returns
what was written, from every buffer that has kept the bits. -/
structure ReadBack {α : Type} (before after : BitWriter)
    (read : BitReader → Except BitstreamError α × BitReader) (value : α) : Prop where
  wrote : Wrote before after (after.bitOffset - before.bitOffset)
  reads : ∀ reader : BitReader, reader.bitOffset = before.bitOffset →
    after.bitOffset ≤ 8 * reader.buffer.length →
    AgreeBelow reader.buffer after.buffer after.bitOffset →
      read reader = (.ok value, { reader with bitOffset := after.bitOffset })

theorem Wrote.toDifference {before after : BitWriter} {width : Nat}
    (wrote : Wrote before after width) :
    Wrote before after (after.bitOffset - before.bitOffset) := by
  have same : after.bitOffset - before.bitOffset = width := by
    rw [wrote.offset, Nat.add_sub_cancel_left]
  rw [same]
  exact wrote

theorem readBack_u8 {writer after : BitWriter} {byte : UInt8}
    (written : writer.writeU8 byte = (.ok (), after)) :
    ReadBack writer after BitReader.readU8 byte := by
  obtain ⟨wrote, valueIs, most⟩ := writeU8_spec written
  refine ⟨wrote.toDifference, ?_⟩
  intro reader start room agree
  rw [wrote.offset] at room agree ⊢
  rw [readU8_spec (by rw [start]; exact room) (by rw [start]; exact most), start,
    agree.bitsValue_eq (Nat.le_refl _), valueIs, UInt8.ofNat_toNat]

private theorem varintRest_spec (value : UInt64) :
    (value >>> 7).toNat = value.toNat / 128 ∧ (value >>> 7 = 0 ↔ value.toNat < 128) := by
  have restIs : (value >>> 7).toNat = value.toNat / 128 := by
    rw [UInt64.toNat_shiftRight, Nat.shiftRight_eq_div_pow]
    rfl
  rw [← UInt64.toNat_inj, UInt64.toNat_zero]
  omega

private theorem varintByte_spec {value : UInt64} {byte : UInt8}
    (byteIs : (if value >>> 7 ≠ 0 then (value &&& 0x7F).toUInt8 ||| 0x80
      else (value &&& 0x7F).toUInt8) = byte) :
    (byte &&& 0x7F).toUInt64.toNat = value.toNat % 128 ∧
      (byte &&& 0x80 = 0 ↔ value.toNat < 128) := by
  have lastIff := (varintRest_spec value).2
  have lowIs := toNat_varintLow value
  have lowSmall : (value &&& 0x7F).toUInt8.toNat < 128 := by
    omega
  have byteValue :
      byte.toNat = if value.toNat < 128 then value.toNat else 128 + value.toNat % 128 := by
    rw [← byteIs, ite_not]
    by_cases last : value.toNat < 128
    · rw [if_pos (lastIff.mpr last), if_pos last, lowIs, Nat.mod_eq_of_lt last]
    rw [if_neg (fun none => last (lastIff.mp none)), if_neg last, toNat_varintByte lowSmall, lowIs]
  constructor
  · rw [toNat_varintVal, byteValue]
    split <;> omega
  rw [varint_last_iff, byteValue]
  split <;> omega

private theorem tenth_fits {i : Nat} {digit : UInt64} (small : digit.toNat < 2 ^ (64 - 7 * i)) :
    ¬ (i = 9 ∧ digit &&& 0x7E ≠ 0) := by
  rintro ⟨rfl, more⟩
  have bit : digit.toNat < 2 := small
  apply more
  rw [← UInt64.toNat_inj, UInt64.toNat_and]
  rcases Nat.lt_succ_iff_lt_or_eq.mp bit with zero | one
  · rw [Nat.lt_one_iff.mp zero]
    rfl
  rw [one]
  rfl

private theorem toNat_varintPlaced {i : Nat} {result digit : UInt64} (inside : i ≤ 9)
    (resultSmall : result.toNat < 2 ^ (7 * i)) (small : digit.toNat < 2 ^ (64 - 7 * i)) :
    (result ||| (digit <<< UInt64.ofNat (7 * i))).toNat =
      result.toNat + 2 ^ (7 * i) * digit.toNat := by
  have shiftMod : 7 * i % 2 ^ 64 % 64 = 7 * i := by
    omega
  have placed : digit.toNat * 2 ^ (7 * i) < 2 ^ 64 := by
    calc
      digit.toNat * 2 ^ (7 * i) < 2 ^ (64 - 7 * i) * 2 ^ (7 * i) :=
        Nat.mul_lt_mul_of_pos_right small (Nat.two_pow_pos _)
      _ = 2 ^ 64 := by
        rw [← Nat.pow_add, Nat.sub_add_cancel (by omega)]
  rw [UInt64.toNat_or, UInt64.toNat_shiftLeft, UInt64.toNat_ofNat', shiftMod,
    Nat.shiftLeft_eq, Nat.mod_eq_of_lt placed, Nat.or_comm, Nat.mul_comm digit.toNat,
    ← Nat.two_pow_add_eq_or_of_lt resultSmall, Nat.add_comm]

private theorem varintRest_small {i : Nat} {value : UInt64} (inside : i ≤ 9)
    (valueSmall : value.toNat < 2 ^ (64 - 7 * i)) (more : ¬ value.toNat < 128) :
    i ≤ 8 ∧ (value >>> 7).toNat < 2 ^ (64 - 7 * (i + 1)) := by
  have notNine : i ≤ 8 := by
    by_contra nine
    have isNine : i = 9 := by
      omega
    subst isNine
    omega
  have split : 64 - 7 * i = 7 + (64 - 7 * (i + 1)) := by
    omega
  refine ⟨notNine, ?_⟩
  rw [(varintRest_spec value).1]
  apply Nat.div_lt_of_lt_mul
  rw [split, Nat.pow_add] at valueSmall
  exact valueSmall

private theorem readBack_varintFrom {turns i : Nat} {value result : UInt64} {count sofar : Nat}
    {writer after : BitWriter} (turn : i + turns = 10) (more : i ≤ 9)
    (resultSmall : result.toNat < 2 ^ (7 * i)) (valueSmall : value.toNat < 2 ^ (64 - 7 * i))
    (written : BitWriter.writeVarintFrom turns value sofar writer = (.ok count, after)) :
    ReadBack writer after (BitReader.readVarintFrom turns i result)
      (UInt64.ofNat (result.toNat + 2 ^ (7 * i) * value.toNat)) := by
  induction turns generalizing i value result sofar writer with
  | zero => omega
  | succ turns ih =>
    rw [BitWriter.writeVarintFrom] at written
    obtain ⟨restIs, lastIff⟩ := varintRest_spec value
    generalize byteIs : (if value >>> 7 ≠ 0 then (value &&& 0x7F).toUInt8 ||| 0x80
        else (value &&& 0x7F).toUInt8) = byte at written
    obtain ⟨digitIs, lastByte⟩ := varintByte_spec byteIs
    have digitSmall : (byte &&& 0x7F).toUInt64.toNat < 2 ^ (64 - 7 * i) := by
      rw [digitIs]
      exact Nat.lt_of_le_of_lt (Nat.mod_le _ _) valueSmall
    have narrow := tenth_fits digitSmall
    have nextIs := toNat_varintPlaced more resultSmall digitSmall
    rw [digitIs] at nextIs
    rcases first : BitWriter.writeU8 writer byte with ⟨written', middle⟩
    rw [first] at written
    rcases written' with error | _
    · cases written
    have here := readBack_u8 first
    simp only at written
    by_cases last : value.toNat < 128
    · rw [if_pos (lastIff.mpr last)] at written
      cases written
      refine ⟨here.wrote, ?_⟩
      intro reader start room agree
      rw [BitReader.readVarintFrom, here.reads reader start room agree]
      simp only
      rw [if_neg narrow, if_pos (lastByte.mpr last), ← UInt64.ofNat_toNat
        (x := result ||| ((byte &&& 0x7F).toUInt64 <<< UInt64.ofNat (7 * i))), nextIs,
        Nat.mod_eq_of_lt last]
    rw [if_neg (fun none => last (lastIff.mp none))] at written
    obtain ⟨notNine, restSmall⟩ := varintRest_small more valueSmall last
    have powers : 2 ^ (7 * (i + 1)) = 2 ^ (7 * i) * 128 := by
      rw [Nat.mul_add, Nat.pow_add]
    have nextSmall : (result ||| ((byte &&& 0x7F).toUInt64 <<< UInt64.ofNat (7 * i))).toNat <
          2 ^ (7 * (i + 1)) := by
      have digit : 2 ^ (7 * i) * (value.toNat % 128) ≤ 2 ^ (7 * i) * 127 :=
        Nat.mul_le_mul_left _ (by omega)
      omega
    have rest :=
      ih (by omega) (by omega) nextSmall restSmall written
    have whole : (result ||| ((byte &&& 0x7F).toUInt64 <<< UInt64.ofNat (7 * i))).toNat +
            2 ^ (7 * (i + 1)) * (value >>> 7).toNat =
          result.toNat + 2 ^ (7 * i) * value.toNat := by
      have parts := Nat.mod_add_div value.toNat 128
      rw [nextIs, restIs]
      conv_rhs => rw [← parts]
      ring
    refine ⟨(here.wrote.trans rest.wrote).toDifference, ?_⟩
    intro reader start room agree
    have middleLe : middle.bitOffset ≤ after.bitOffset := by
      rw [rest.wrote.offset]
      exact Nat.le_add_right _ _
    have stepped := here.reads reader start (Nat.le_trans middleLe room)
      ((agree.mono middleLe).trans rest.wrote.kept)
    rw [BitReader.readVarintFrom, stepped]
    simp only
    rw [if_neg narrow, if_neg (fun done => last (lastByte.mp done)),
      rest.reads { reader with bitOffset := middle.bitOffset } rfl room agree, whole]

theorem readBack_varint {writer after : BitWriter} {value : UInt64} {count : Nat}
    (written : writer.writeVarint value = (.ok count, after)) :
    ReadBack writer after BitReader.readVarint value := by
  have spec := @readBack_varintFrom 10 0 value 0 count 0 writer after rfl (by decide)
    (by decide) value.toNat_lt written
  rw [UInt64.toNat_zero, Nat.pow_zero, Nat.one_mul, Nat.zero_add, UInt64.ofNat_toNat] at spec
  exact spec

/-- One write to a bitstream. -/
inductive BitWrite where
  | bit (value : Bool)
  | bits (value : UInt64) (numBits : Nat)
  | u8 (value : UInt8)
  | u16 (value : UInt16)
  | u32 (value : UInt32)
  | u64 (value : UInt64)
  | varint (value : UInt64)
  | bytes (content : List UInt8)
  deriving DecidableEq

inductive BitValue where
  | bit (value : Bool)
  | bits (value : UInt64)
  | u8 (value : UInt8)
  | u16 (value : UInt16)
  | u32 (value : UInt32)
  | u64 (value : UInt64)
  | varint (value : UInt64)
  | bytes (content : List UInt8)
  deriving DecidableEq

namespace BitWrite

def write (writer : BitWriter) : BitWrite → Except BitstreamError Unit × BitWriter
  | bit value => writer.writeBit value
  | bits value numBits => writer.writeBits value numBits
  | u8 value => writer.writeU8 value
  | u16 value => writer.writeU16 value
  | u32 value => writer.writeU32 value
  | u64 value => writer.writeU64 value
  | varint value =>
    let (result, after) := writer.writeVarint value
    (result.map fun _ => (), after)
  | bytes content => writer.writeBytes content

def read (reader : BitReader) : BitWrite → Except BitstreamError BitValue × BitReader
  | bit _ =>
    let (result, after) := reader.readBit
    (result.map BitValue.bit, after)
  | bits _ numBits =>
    let (result, after) := reader.readBits numBits
    (result.map BitValue.bits, after)
  | u8 _ =>
    let (result, after) := reader.readU8
    (result.map BitValue.u8, after)
  | u16 _ =>
    let (result, after) := reader.readU16
    (result.map BitValue.u16, after)
  | u32 _ =>
    let (result, after) := reader.readU32
    (result.map BitValue.u32, after)
  | u64 _ =>
    let (result, after) := reader.readU64
    (result.map BitValue.u64, after)
  | varint _ =>
    let (result, after) := reader.readVarint
    (result.map BitValue.varint, after)
  | bytes content =>
    let (result, after) := reader.readBytes content.length
    (result.map BitValue.bytes, after)

def value : BitWrite → BitValue
  | bit value => .bit value
  | bits value numBits => .bits (UInt64.ofNat (value.toNat % 2 ^ numBits))
  | u8 value => .u8 value
  | u16 value => .u16 value
  | u32 value => .u32 value
  | u64 value => .u64 value
  | varint value => .varint value
  | bytes content => .bytes content

end BitWrite

/-- Writes one after another, with the bit offset after each, until one fails. -/
def writeAll : List BitWrite → BitWriter → Except BitstreamError (List Nat × BitWriter)
  | [], writer => .ok ([], writer)
  | write :: writes, writer =>
    match write.write writer with
    | (.error error, _) => .error error
    | (.ok (), after) =>
      (writeAll writes after).map fun (offsets, final) => (after.bitOffset :: offsets, final)

/-- The matching reads one after another, with the bit offset after each, until one
fails. -/
def readAll : List BitWrite → BitReader → Except BitstreamError (List BitValue × List Nat)
  | [], _ => .ok ([], [])
  | write :: writes, reader =>
    match write.read reader with
    | (.error error, _) => .error error
    | (.ok value, after) =>
      (readAll writes after).map fun (values, offsets) =>
        (value :: values, after.bitOffset :: offsets)

theorem ReadBack.map {α β : Type} {before after : BitWriter}
    {read : BitReader → Except BitstreamError α × BitReader} {value : α}
    (back : ReadBack before after read value) (wrap : α → β) :
    ReadBack before after
      (fun reader => ((read reader).1.map wrap, (read reader).2)) (wrap value) := by
  refine ⟨back.wrote, ?_⟩
  intro reader start room agree
  rw [back.reads reader start room agree]
  rfl

theorem readBack_bit {writer after : BitWriter} {value : Bool}
    (written : writer.writeBit value = (.ok (), after)) :
    ReadBack writer after BitReader.readBit value := by
  obtain ⟨wrote, valueIs⟩ := writeBit_spec written
  refine ⟨wrote.toDifference, ?_⟩
  intro reader start room agree
  rw [wrote.offset] at room agree ⊢
  rw [readBit_spec (by rw [start]; exact room), start, agree _ (Nat.lt_succ_self _), valueIs]

theorem readBack_bits {writer after : BitWriter} {value : UInt64} {numBits : Nat}
    (written : writer.writeBits value numBits = (.ok (), after)) :
    ReadBack writer after (fun reader => reader.readBits numBits)
      (UInt64.ofNat (value.toNat % 2 ^ numBits)) := by
  obtain ⟨wrote, valueIs, narrow, most⟩ := writeBits_spec written
  refine ⟨wrote.toDifference, ?_⟩
  intro reader start room agree
  rw [wrote.offset] at room agree ⊢
  rw [readBits_spec narrow (by rw [start]; exact room) (by rw [start]; exact most), start,
    agree.bitsValue_eq (Nat.le_refl _), valueIs]

theorem readBack_word {writer after : BitWriter} {width : Nat} {value : UInt64}
    (small : value.toNat < 256 ^ width) (nonempty : 0 < width) (narrow : width ≤ 8)
    (written : writer.writeWord width value = (.ok (), after)) :
    ReadBack writer after (fun reader => reader.readWord width) value := by
  obtain ⟨wrote, valueIs, most⟩ := writeWord_spec small nonempty written
  refine ⟨wrote.toDifference, ?_⟩
  intro reader start room agree
  rw [wrote.offset] at room agree ⊢
  rw [readWord_spec narrow (by rw [start]; exact room) (by rw [start]; exact most), start,
    agree.bitsValue_eq (Nat.le_refl _), valueIs, UInt64.ofNat_toNat]

theorem readBack_bytes {writer after : BitWriter} {bytes : List UInt8}
    (written : writer.writeBytes bytes = (.ok (), after)) :
    ReadBack writer after (fun reader => reader.readBytes bytes.length) bytes := by
  obtain ⟨wrote, valueIs, most⟩ := writeBytes_spec written
  refine ⟨wrote.toDifference, ?_⟩
  intro reader start room agree
  rw [wrote.offset] at room agree ⊢
  rw [readBytes_spec (by rw [start]; exact room) (by rw [start]; exact most), start,
    agree.streamBytes_eq (Nat.le_refl _), valueIs]

theorem BitWrite.readBack {write : BitWrite} {writer after : BitWriter}
    (written : write.write writer = (.ok (), after)) :
    ReadBack writer after (fun reader => write.read reader) write.value := by
  cases write with
  | bit value => exact (readBack_bit written).map BitValue.bit
  | bits value numBits => exact (readBack_bits written).map BitValue.bits
  | u8 value => exact (readBack_u8 written).map BitValue.u8
  | u16 value =>
    have back := readBack_word (by exact value.toNat_lt) (by decide) (by decide) written
    have narrowed := (back.map UInt64.toUInt16).map BitValue.u16
    rw [UInt16.toUInt16_toUInt64] at narrowed
    exact narrowed
  | u32 value =>
    have back := readBack_word (by exact value.toNat_lt) (by decide) (by decide) written
    have narrowed := (back.map UInt64.toUInt32).map BitValue.u32
    rw [UInt32.toUInt32_toUInt64] at narrowed
    exact narrowed
  | u64 value =>
    exact (readBack_word (by exact value.toNat_lt) (by decide) (by decide) written).map BitValue.u64
  | varint value =>
    rcases result : writer.writeVarint value with ⟨outcome, final⟩
    simp only [BitWrite.write, result] at written
    rcases outcome with error | count
    · cases written
    cases written
    exact (readBack_varint result).map BitValue.varint
  | bytes content => exact (readBack_bytes written).map BitValue.bytes

private theorem readAll_of_writeAll {writes : List BitWrite} {writer final : BitWriter}
    {offsets : List Nat} (written : writeAll writes writer = .ok (offsets, final)) :
    ∃ width, Wrote writer final width ∧ ∀ reader : BitReader, reader.bitOffset = writer.bitOffset →
        final.bitOffset ≤ 8 * reader.buffer.length →
        AgreeBelow reader.buffer final.buffer final.bitOffset →
          readAll writes reader = .ok (writes.map BitWrite.value, offsets) := by
  induction writes generalizing writer offsets with
  | nil =>
    cases written
    exact ⟨0, Wrote.refl _, fun _ _ _ _ => rfl⟩
  | cons write writes ih =>
    rw [writeAll] at written
    rcases first : write.write writer with ⟨result, after⟩
    rw [first] at written
    rcases result with error | _
    · cases written
    have back := BitWrite.readBack first
    simp only at written
    rcases remaining : writeAll writes after with error | outcome
    · rw [remaining] at written
      cases written
    rw [remaining] at written
    obtain ⟨rest, last⟩ := outcome
    cases written
    obtain ⟨width, wrote, reads⟩ := ih remaining
    refine ⟨_, back.wrote.trans wrote, ?_⟩
    intro reader start room agree
    have le : after.bitOffset ≤ last.bitOffset := by
      rw [wrote.offset]
      exact Nat.le_add_right _ _
    have stepped := back.reads reader start (Nat.le_trans le room)
      ((agree.mono le).trans wrote.kept)
    rw [readAll, stepped]
    simp only
    rw [reads { reader with bitOffset := after.bitOffset } rfl room agree]
    rfl

theorem Wrote.asBytes {before after : BitWriter} {width : Nat} (wrote : Wrote before after width)
    (inside : before.bitOffset ≤ 8 * before.buffer.length) :
    after.bitOffset ≤ 8 * after.asBytes.length ∧
      AgreeBelow after.asBytes after.buffer after.bitOffset := by
  have stillInside := wrote.inside inside
  have fits : after.byteLen ≤ after.buffer.length := by
    rw [BitWriter.byteLen]
    omega
  have bytesAre : after.asBytes = after.buffer.take after.byteLen := by
    rw [BitWriter.asBytes, if_pos fits]
  rw [bytesAre]
  constructor
  · rw [length_take, BitWriter.byteLen]
    omega
  intro index below
  apply streamBit_take
  rw [BitWriter.byteLen]
  omega

/-- Reads over the written bytes return what was written, at the same bit offsets. -/
theorem readAll_asBytes_of_writeAll {writes : List BitWrite} {writer final : BitWriter}
    {offsets : List Nat} (start : writer.bitOffset = 0)
    (written : writeAll writes writer = .ok (offsets, final)) :
    readAll writes (BitReader.new final.asBytes) = .ok (writes.map BitWrite.value, offsets) := by
  obtain ⟨width, wrote, reads⟩ := readAll_of_writeAll written
  obtain ⟨room, agree⟩ := wrote.asBytes (by rw [start]; exact Nat.zero_le _)
  exact reads _ start.symm room agree

/-- A flag, a field that straddles two bytes, a variable-length integer, a byte string
and a word over a buffer that is not cleared. -/
theorem readAll_over_ones :
    readAll [.bit true, .bits 0x1FFF 9, .varint 300, .bytes [7, 8], .u16 65535]
        (BitReader.new [255, 235, 0, 129, 194, 63, 255, 255]) =
      .ok ([.bit true, .bits 0x1FF, .varint 300, .bytes [7, 8], .u16 65535], [1, 10, 26, 42, 58]) :=
  @readAll_asBytes_of_writeAll [.bit true, .bits 0x1FFF 9, .varint 300, .bytes [7, 8], .u16 65535]
    (BitWriter.fromExisting (List.replicate 9 255) 0)
    (BitWriter.mk [255, 235, 0, 129, 194, 63, 255, 255, 255] 58) [1, 10, 26, 42, 58] rfl
    (by decide)

end Eidolon.Net
