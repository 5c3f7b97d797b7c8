import Eidolon.Net.BitstreamRoundTrip
import Eidolon.Net.MultiRes

/-!
# Reading back transforms

Whatever was written of a transform, at whatever bit offset, is read back with the bits that
its tier has room for; so is a batch.
-/

namespace Eidolon.Net

open Core Library List UInt64

variable {α : Type}

theorem andThen_eq_ok {β σ : Type} {result : Except BitstreamError α × σ}
    {next : α → σ → Except BitstreamError β × σ} {value : β} {state : σ}
    (done : andThen result next = (.ok value, state)) :
    ∃ first between, result = (.ok first, between) ∧ next first between = (.ok value, state) := by
  obtain ⟨outcome, between⟩ := result
  cases outcome with
  | error error => cases done
  | ok first => exact ⟨first, between, rfl, done⟩

variable {after : BitWriter} {read : BitReader → Except BitstreamError α × BitReader}

theorem ReadBack.le {before : BitWriter} {value : α} (back : ReadBack before after read value) :
    before.bitOffset ≤ after.bitOffset := by
  rw [back.wrote.offset]
  exact Nat.le_add_right _ _

theorem ReadBack.done (writer : BitWriter) (value : α) :
    ReadBack writer writer (fun reader => (.ok value, reader)) value := by
  refine ⟨(Wrote.refl writer).toDifference, ?_⟩
  intro reader start _ _
  rw [← start]

theorem ReadBack.andThen {β : Type} {before between : BitWriter}
    {next : α → BitReader → Except BitstreamError β × BitReader} {first : α} {value : β}
    (back : ReadBack before between read first)
    (later : ReadBack between after (next first) value) :
    ReadBack before after (fun reader => Net.andThen (read reader) next) value := by
  refine ⟨(back.wrote.trans later.wrote).toDifference, ?_⟩
  intro reader start room agree
  have stepped := back.reads reader start (Nat.le_trans later.le room)
    ((agree.mono later.le).trans later.wrote.kept)
  rw [stepped]
  exact later.reads { reader with bitOffset := between.bitOffset } rfl room agree

theorem ReadBack.asBytes {before : BitWriter} {value : α} (back : ReadBack before after read value)
    (inside : before.bitOffset ≤ 8 * before.buffer.length) :
    read { buffer := after.asBytes, bitOffset := before.bitOffset } =
      (.ok value, { buffer := after.asBytes, bitOffset := after.bitOffset }) := by
  obtain ⟨room, agree⟩ := back.wrote.asBytes inside
  exact back.reads { buffer := after.asBytes, bitOffset := before.bitOffset } rfl room agree

variable {step : Int8}

theorem readStep4 (low : -8 ≤ step.toInt) (high : step.toInt ≤ 7) :
    (UInt64.ofNat (((step + 8).toInt64.toUInt64 &&& 0x0F).toNat % 2 ^ 4)).toUInt8.toInt8 - 8 =
      step := by
  obtain ⟨index, isStep⟩ := @DeltaTransform.exists_biased step 8 low (by omega)
  rw [isStep]
  clear isStep
  revert index
  decide

theorem readStep3 (low : -4 ≤ step.toInt) (high : step.toInt ≤ 3) :
    (UInt64.ofNat (((step + 4).toInt64.toUInt64 &&& 0x07).toNat % 2 ^ 3)).toUInt8.toInt8 - 4 =
      step := by
  obtain ⟨index, isStep⟩ := @DeltaTransform.exists_biased step 4 low (by omega)
  rw [isStep]
  clear isStep
  revert index
  decide

theorem readStep6 (low : -32 ≤ step.toInt) (high : step.toInt ≤ 31) :
    (UInt64.ofNat (((step + 32).toInt64.toUInt64 &&& 0x3F).toNat % 2 ^ 6)).toUInt8.toInt8 -
      32 = step := by
  obtain ⟨index, isStep⟩ := @DeltaTransform.exists_biased step 32 low (by omega)
  rw [isStep]
  clear isStep
  revert index
  decide

theorem readByte (byte : UInt8) : (UInt64.ofNat (byte.toUInt64.toNat % 2 ^ 8)).toUInt8 = byte := by
  have bound := byte.toNat_lt
  rw [UInt8.toNat_toUInt64, ← UInt8.toNat_inj, toNat_toUInt8, toNat_ofNat']
  omega

variable {writer : BitWriter}

theorem readBack_deltaTransform {delta : DeltaTransform} (fits : delta.Fits)
    (written : writer.writeDeltaTransform delta = (.ok (), after)) :
    ReadBack writer after BitReader.readDeltaTransform delta.onWire := by
  cases delta with
  | stationary =>
    refine ReadBack.andThen (readBack_bits written) ?_
    exact ReadBack.done after _
  | small dx dz dy dyaw =>
    obtain ⟨⟨dxLow, dxHigh⟩, ⟨dzLow, dzHigh⟩, ⟨dyLow, dyHigh⟩, dyawLow, dyawHigh⟩ := fits
    obtain ⟨_, _, tag, written⟩ := andThen_eq_ok written
    obtain ⟨_, _, first, written⟩ := andThen_eq_ok written
    obtain ⟨_, _, second, written⟩ := andThen_eq_ok written
    obtain ⟨_, _, third, fourth⟩ := andThen_eq_ok written
    refine ReadBack.andThen (readBack_bits tag) ?_
    refine ReadBack.andThen (readBack_bits first) ?_
    refine ReadBack.andThen (readBack_bits second) ?_
    refine ReadBack.andThen (readBack_bits third) ?_
    refine ReadBack.andThen (readBack_bits fourth) ?_
    rw [readStep4 dxLow dxHigh, readStep4 dzLow dzHigh, readStep3 dyLow dyHigh,
      readStep3 dyawLow dyawHigh]
    exact ReadBack.done after _
  | medium dx dz dy yaw =>
    obtain ⟨_, _, tag, written⟩ := andThen_eq_ok written
    obtain ⟨_, _, first, written⟩ := andThen_eq_ok written
    obtain ⟨_, _, second, written⟩ := andThen_eq_ok written
    obtain ⟨_, _, third, fourth⟩ := andThen_eq_ok written
    refine ReadBack.andThen (readBack_bits tag) ?_
    refine ReadBack.andThen (readBack_bits first) ?_
    refine ReadBack.andThen (readBack_bits second) ?_
    refine ReadBack.andThen (readBack_bits third) ?_
    refine ReadBack.andThen (readBack_bits fourth) ?_
    rw [readStep6 fits.1 fits.2, readByte, readByte, readByte]
    exact ReadBack.done after _
  | full coord yaw flags =>
    obtain ⟨_, _, tag, bytes⟩ := andThen_eq_ok written
    refine ReadBack.andThen (readBack_bits tag) ?_
    refine ReadBack.andThen (readBack_bytes bytes) ?_
    rw [QuantizedCellCoord.unpack_pack]
    exact ReadBack.done after _

theorem readBack_multiresTransform {transform : MultiResTransform} (inRange : transform.InRange)
    (written : writer.writeMultiresTransform transform = (.ok (), after)) :
    ReadBack writer after BitReader.readMultiresTransform transform := by
  cases transform with
  | stationary =>
    refine ReadBack.andThen (readBack_bits written) ?_
    exact ReadBack.done after _
  | tactical coord yaw flags =>
    obtain ⟨_, _, tag, bytes⟩ := andThen_eq_ok written
    obtain ⟨isValid, fewFlags⟩ := inRange
    refine ReadBack.andThen (readBack_bits tag) ?_
    refine ReadBack.andThen (readBack_bytes bytes) ?_
    rw [QuantizedCellCoord.unpack_pack, and_eq_maxQuantizedVertical isValid,
      @and_eq_self8 flags 0x0F 4 fewFlags (by decide)]
    exact ReadBack.done after _
  | midfield coord yaw flags =>
    obtain ⟨_, _, tag, bytes⟩ := andThen_eq_ok written
    obtain ⟨smallX, smallZ, smallYaw, fewFlags⟩ := inRange
    refine ReadBack.andThen (readBack_bits tag) ?_
    refine ReadBack.andThen (readBack_bytes bytes) ?_
    rw [MidfieldQuantizedCoord.unpack_pack, @and_eq_self16 coord.x 0x03FF 10 smallX (by decide),
      @and_eq_self16 coord.z 0x03FF 10 smallZ (by decide),
      @and_eq_self8 yaw.byte 0x3F 6 smallYaw (by decide),
      @and_eq_self8 flags 0x0F 4 fewFlags (by decide)]
    exact ReadBack.done after _
  | horizon coord heading flags =>
    obtain ⟨_, _, tag, bytes⟩ := andThen_eq_ok written
    obtain ⟨smallX, smallY, smallZ, smallHeading, fewFlags⟩ := inRange
    refine ReadBack.andThen (readBack_bits tag) ?_
    refine ReadBack.andThen (readBack_bytes bytes) ?_
    rw [HorizonQuantizedCoord.unpack_pack, @and_eq_self8 coord.x 0x3F 6 smallX (by decide),
      @and_eq_self8 coord.y 0x1F 5 smallY (by decide),
      @and_eq_self8 coord.z 0x3F 6 smallZ (by decide),
      @and_eq_self8 heading.byte 0x0F 4 smallHeading (by decide),
      @and_eq_self8 flags 0x07 3 fewFlags (by decide)]
    exact ReadBack.done after _

theorem writeMultiresTransform_bound {transform : MultiResTransform}
    (written : writer.writeMultiresTransform transform = (.ok (), after)) :
    writer.bitOffset + 2 ≤ usizeMax ∧ writer.bitOffset + 2 ≤ after.bitOffset := by
  have tagBound : ∀ {value : UInt64} {between : BitWriter},
      writer.writeBits value 2 = (.ok (), between) →
        writer.bitOffset + 2 ≤ usizeMax ∧ between.bitOffset = writer.bitOffset + 2 := by
    intro value between tag
    obtain ⟨wrote, _, _, most⟩ := writeBits_spec tag
    exact ⟨most (by decide), wrote.offset⟩
  have bytesBound : ∀ {between : BitWriter} {bytes : List UInt8},
      between.writeBytes bytes = (.ok (), after) → between.bitOffset ≤ after.bitOffset :=
    fun bytes => (readBack_bytes bytes).le
  cases transform with
  | stationary =>
    obtain ⟨bound, offset⟩ := tagBound written
    exact ⟨bound, Nat.le_of_eq offset.symm⟩
  | _ =>
    obtain ⟨_, _, tag, bytes⟩ := andThen_eq_ok written
    obtain ⟨bound, offset⟩ := tagBound tag
    exact ⟨bound, offset ▸ bytesBound bytes⟩

theorem readBack_entry {entry : MultiResBatchEntry} (inRange : entry.transform.InRange)
    {between : BitWriter} {count : Nat}
    (identifier : writer.writeVarint entry.entityId.toUInt64 = (.ok count, between))
    (transform : between.writeMultiresTransform entry.transform = (.ok (), after)) :
    ReadBack writer after BitReader.readEntry entry := by
  refine ReadBack.andThen (readBack_varint identifier) ?_
  refine ReadBack.andThen (readBack_multiresTransform inRange transform) ?_
  rw [UInt32.toUInt32_toUInt64]
  exact ReadBack.done after _

variable {entries : List MultiResBatchEntry}

theorem readBack_entries (inRange : ∀ entry, entry ∈ entries → entry.transform.InRange)
    (written : BitWriter.writeEntries entries writer = (.ok (), after))
    (out : List MultiResBatchEntry) :
    ReadBack writer after (fun reader =>
        let (result, all, reader) := BitReader.readEntries entries.length reader out
        (result.map fun _ => all, reader)) (out ++ entries) := by
  induction entries generalizing writer out with
  | nil =>
    cases written
    rw [append_nil]
    exact ReadBack.done _ out
  | cons entry entries ih =>
    obtain ⟨_, between, identifier, written⟩ := andThen_eq_ok written
    obtain ⟨_, next, transform, written⟩ := andThen_eq_ok written
    have first := readBack_entry (inRange entry mem_cons_self) identifier transform
    have later := ih (fun other member => inRange other (mem_cons_of_mem entry member)) written
      (out ++ [entry])
    rw [append_assoc] at later
    refine ⟨(first.wrote.trans later.wrote).toDifference, ?_⟩
    intro reader start room agree
    have stepped := first.reads reader start (Nat.le_trans later.le room)
      ((agree.mono later.le).trans later.wrote.kept)
    rw [length_cons, BitReader.readEntries, stepped]
    exact later.reads { reader with bitOffset := next.bitOffset } rfl room agree

theorem writeEntries_bound (written : BitWriter.writeEntries entries writer = (.ok (), after)) :
    entries.length = 0 ∨ writer.bitOffset + 2 * entries.length ≤ usizeMax := by
  induction entries generalizing writer with
  | nil => exact Or.inl rfl
  | cons entry entries ih =>
    obtain ⟨_, between, identifier, written⟩ := andThen_eq_ok written
    obtain ⟨_, next, transform, written⟩ := andThen_eq_ok written
    have first := (readBack_varint identifier).le
    obtain ⟨bound, second⟩ := writeMultiresTransform_bound transform
    rw [length_cons]
    rcases ih written with empty | rest
    · omega
    omega

theorem readMultiresBatch_of_writeMultiresBatch
    (inRange : ∀ entry, entry ∈ entries → entry.transform.InRange)
    (inside : writer.bitOffset ≤ 8 * writer.buffer.length)
    (written : writer.writeMultiresBatch entries = (.ok (), after)) (out : List MultiResBatchEntry) :
    BitReader.readMultiresBatch { buffer := after.asBytes, bitOffset := writer.bitOffset } out =
      (.ok entries.length, entries, { buffer := after.asBytes, bitOffset := after.bitOffset }) := by
  obtain ⟨_, between, counter, written⟩ := andThen_eq_ok written
  have short : (UInt64.ofNat entries.length).toNat = entries.length := by
    rw [toNat_ofNat']
    have limit : usizeMax = 2 ^ 64 - 1 := rfl
    rcases writeEntries_bound written with empty | bound
    · omega
    omega
  have back : ReadBack writer after (fun reader =>
      Net.andThen reader.readVarint fun count reader =>
        let (result, all, reader) := BitReader.readEntries count.toNat reader []
        (result.map fun _ => (count.toNat, all), reader)) (entries.length, entries) := by
    refine ReadBack.andThen (readBack_varint counter) ?_
    have rest := (readBack_entries inRange written []).map fun all => (entries.length, all)
    rw [short]
    refine ⟨rest.wrote, ?_⟩
    intro reader start room agree
    have stepped := rest.reads reader start room agree
    generalize BitReader.readEntries entries.length reader [] = outcome at stepped ⊢
    obtain ⟨result, all, reader⟩ := outcome
    cases result with
    | error error => cases stepped
    | ok _ => exact stepped
  have read := back.asBytes inside
  rw [BitReader.readMultiresBatch]
  generalize BitReader.readVarint { buffer := after.asBytes, bitOffset := writer.bitOffset } =
    counted at read ⊢
  obtain ⟨result, reader⟩ := counted
  rcases result with error | count
  · cases read
  rw [Net.andThen] at read
  simp only at read ⊢
  generalize BitReader.readEntries count.toNat reader [] = outcome at read ⊢
  obtain ⟨result, all, reader⟩ := outcome
  rcases result with error | _
  · cases read
  simp only [Except.map, Prod.mk.injEq, Except.ok.injEq] at read ⊢
  obtain ⟨⟨counted, same⟩, sameReader⟩ := read
  exact ⟨counted, same, sameReader⟩

/-- Batches of transforms in range are read back from the written bytes, and so are updates
against a baseline by both packers: unchanged if the target is valid and has no flags but
the four that are sent. -/
theorem transforms_readBack : (∀ (entries : List MultiResBatchEntry) (writer after : BitWriter)
      (out : List MultiResBatchEntry),
      (∀ entry, entry ∈ entries → entry.transform.InRange) →
        writer.bitOffset ≤ 8 * writer.buffer.length →
          writer.writeMultiresBatch entries = (.ok (), after) → BitReader.readMultiresBatch
                { buffer := after.asBytes, bitOffset := writer.bitOffset } out =
              (.ok entries.length, entries,
                { buffer := after.asBytes, bitOffset := after.bitOffset })) ∧
    (∀ (baseCoord : QuantizedCellCoord) (baseYaw : QuantizedYaw)
      (targetCoord : QuantizedCellCoord) (targetYaw : QuantizedYaw) (targetFlags : UInt8),
      let delta :=
        DeltaTransform.compute baseCoord baseYaw targetCoord targetYaw targetFlags
      (∀ writer after : BitWriter, writer.bitOffset ≤ 8 * writer.buffer.length →
        writer.writeDeltaTransform delta = (.ok (), after) → BitReader.readDeltaTransform
              { buffer := after.asBytes, bitOffset := writer.bitOffset } =
            (.ok delta.onWire, { buffer := after.asBytes, bitOffset := after.bitOffset })) ∧
      (∀ (out after : List UInt8) (count : Nat), delta.packToSlice out = (some count, after) →
          DeltaTransform.unpackFromSlice after = some (delta.onWire, count)) ∧
      (targetCoord.isValid = true → targetFlags.toNat < 16 → delta.onWire = delta)) := by
  constructor
  · intro entries writer after out inRange inside written
    exact readMultiresBatch_of_writeMultiresBatch inRange inside written out
  intro baseCoord baseYaw targetCoord targetYaw targetFlags delta
  have fits : delta.Fits :=
    DeltaTransform.fits_compute baseCoord baseYaw targetCoord targetYaw targetFlags
  refine ⟨?_, ?_, ?_⟩
  · intro writer after inside written
    exact (readBack_deltaTransform fits written).asBytes inside
  · intro out after count written
    exact DeltaTransform.unpackFromSlice_packToSlice fits written
  intro isValid fewFlags
  apply DeltaTransform.onWire_of_valid
  intro coord yaw flags isFull
  obtain ⟨sameCoord, sameFlags⟩ := DeltaTransform.full_of_compute isFull
  rw [sameCoord, sameFlags]
  exact ⟨isValid, fewFlags⟩

/-- A batch of three entries behind one bit, and a small update in both forms. -/
theorem transforms_readBack_three : BitReader.readMultiresBatch
        { buffer := [129, 214, 1, 29, 0, 127, 255, 255, 241, 255, 128, 243, 255, 133, 152, 71],
          bitOffset := 1 } [] =
      (.ok 3, [⟨300, .tactical ⟨1000, 4095, 65535⟩ ⟨200⟩ 15⟩, ⟨7, .horizon ⟨63, 31, 1⟩ ⟨9⟩ 5⟩,
          ⟨8, .stationary⟩],
        { buffer := [129, 214, 1, 29, 0, 127, 255, 255, 241, 255, 128, 243, 255, 133, 152, 71],
          bitOffset := 127 }) ∧
    BitReader.readDeltaTransform { buffer := [109, 174], bitOffset := 0 } =
      (.ok (.small 3 (-2) 1 2), { buffer := [109, 174], bitOffset := 16 }) ∧
    DeltaTransform.unpackFromSlice [173, 213, 9] = some (.small 3 (-2) 1 2, 2) := by
  have update := transforms_readBack.2 ⟨1000, 500, 2000⟩ ⟨100⟩ ⟨1048, 502, 1968⟩ ⟨108⟩ 0
  refine ⟨?_, ?_, ?_⟩
  · refine transforms_readBack.1
      [⟨300, .tactical ⟨1000, 4095, 65535⟩ ⟨200⟩ 15⟩, ⟨7, .horizon ⟨63, 31, 1⟩ ⟨9⟩ 5⟩,
        ⟨8, .stationary⟩]
      { buffer := List.replicate 16 255, bitOffset := 1 }
      { buffer := [129, 214, 1, 29, 0, 127, 255, 255, 241, 255, 128, 243, 255, 133, 152, 71],
        bitOffset := 127 } [] ?_ (by decide) (by decide +kernel)
    intro entry member
    simp only [mem_cons, not_mem_nil, or_false] at member
    rcases member with first | second | third
    · rw [first]
      exact ⟨by decide, by decide⟩
    · rw [second]
      exact ⟨by decide, by decide, by decide, by decide, by decide⟩
    rw [third]
    trivial
  · exact update.1 { buffer := [0, 0], bitOffset := 0 }
      { buffer := [109, 174], bitOffset := 16 } (by decide) (by decide +kernel)
  exact update.2.1 [9, 9, 9] [173, 213, 9] 2 (by decide)

/-- A flag that is not among the four that are sent. -/
theorem not_unchanged_flags24 : ¬ ∀ (baseCoord : QuantizedCellCoord) (baseYaw : QuantizedYaw)
      (targetCoord : QuantizedCellCoord) (targetYaw : QuantizedYaw) (targetFlags : UInt8),
      let delta :=
        DeltaTransform.compute baseCoord baseYaw targetCoord targetYaw targetFlags
      (∀ writer after : BitWriter, writer.bitOffset = 0 →
        writer.writeDeltaTransform delta = (.ok (), after) →
          (BitReader.new after.asBytes).readDeltaTransform.1 = .ok delta) ∧
      (∀ (out after : List UInt8) (count : Nat), delta.packToSlice out = (some count, after) →
          DeltaTransform.unpackFromSlice after = some (delta, count)) := by
  intro unchanged
  have both := unchanged ⟨0, 0, 0⟩ ⟨0⟩ ⟨0, 0, 0⟩ ⟨0⟩ 24
  have packed := both.2 (List.replicate 8 0) _ _ rfl
  exact absurd packed (by decide)

end Eidolon.Net
