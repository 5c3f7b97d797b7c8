import Eidolon.Net.Schema

/-!
# Field deltas

An update names the fields that have changed in a mask and sends, for each of them, the
exclusive or of its value with a baseline that both sides have.  A side that knows the same
baseline gets the values back, and two sides that adopt what was decoded stay in step.
-/

namespace Eidolon.Net

open Function Library List

/-- One 64-bit value for each field. -/
abbrev FieldArray : Type := Fin maxSchemaFields → UInt64

namespace DeltaXorCompressor

def changeMask (baseline current : FieldArray) (activeMask : UInt32) : UInt32 :=
  (List.finRange maxSchemaFields).foldl (fun mask field =>
    if activeMask &&& ((1 : UInt32) <<< UInt32.ofNat field.val) ≠ 0 ∧
        current field ≠ baseline field then
      mask ||| ((1 : UInt32) <<< UInt32.ofNat field.val)
    else
      mask) 0

def writeDeltas (baseline current : FieldArray) (mask : UInt32) :
    List (Fin maxSchemaFields) → BitWriter → Except SchemaError Unit × BitWriter
  | [], writer => (.ok (), writer)
  | field :: fields, writer =>
    if mask &&& ((1 : UInt32) <<< UInt32.ofNat field.val) ≠ 0 then
      match writer.writeVarint (current field ^^^ baseline field) with
      | (.error error, writer) => (.error (.bitstream error), writer)
      | (.ok _, writer) => writeDeltas baseline current mask fields writer
    else
      writeDeltas baseline current mask fields writer

def compress (baseline current : FieldArray) (activeMask : UInt32) (writer : BitWriter) :
    Except SchemaError UInt32 × BitWriter :=
  let mask := changeMask baseline current activeMask
  match writer.writeBits mask.toUInt64 32 with
  | (.error error, writer) => (.error (.bitstream error), writer)
  | (.ok _, writer) =>
    let (result, writer) :=
      writeDeltas baseline current mask (List.finRange maxSchemaFields) writer
    (result.map fun _ => mask, writer)

def readDeltas (baseline : FieldArray) (mask : UInt32) :
    List (Fin maxSchemaFields) → BitReader → FieldArray →
      Except SchemaError Unit × FieldArray × BitReader
  | [], reader, outCurrent => (.ok (), outCurrent, reader)
  | field :: fields, reader, outCurrent =>
    if mask &&& ((1 : UInt32) <<< UInt32.ofNat field.val) ≠ 0 then
      match reader.readVarint with
      | (.error error, reader) => (.error (.bitstream error), outCurrent, reader)
      | (.ok delta, reader) =>
        readDeltas baseline mask fields reader
          (Function.update outCurrent field (baseline field ^^^ delta))
    else
      readDeltas baseline mask fields reader outCurrent

/-- Reads changes against a baseline; the second component is what is left in the array that
the values are decoded into. -/
def decompress (baseline : FieldArray) (reader : BitReader) :
    Except SchemaError UInt32 × FieldArray × BitReader :=
  match reader.readBits 32 with
  | (.error error, reader) => (.error (.bitstream error), baseline, reader)
  | (.ok bits, reader) =>
    let mask := bits.toUInt32
    let (result, outCurrent, reader) :=
      readDeltas baseline mask (List.finRange maxSchemaFields) reader baseline
    (result.map fun _ => mask, outCurrent, reader)

theorem bitAt_foldl_changed {changed : Fin maxSchemaFields → Prop} [DecidablePred changed]
    (fields : List (Fin maxSchemaFields)) (mask : UInt32) (field : Fin maxSchemaFields) :
    bitAt (fields.foldl (fun mask other =>
      if changed other then mask ||| ((1 : UInt32) <<< UInt32.ofNat other.val) else mask) mask)
        field.val = true ↔
      bitAt mask field.val = true ∨ (field ∈ fields ∧ changed field) := by
  induction fields generalizing mask with
  | nil => simp
  | cons other fields ih =>
    rw [foldl_cons, ih]
    by_cases isChanged : changed other
    · rw [if_pos isChanged, bitAt_or, bitAt_one_shiftLeft other.isLt field.isLt,
        Bool.or_eq_true, decide_eq_true_iff]
      constructor
      · rintro ((before | same) | ⟨member, isLater⟩)
        · exact .inl before
        · obtain rfl := Fin.ext same
          exact .inr ⟨mem_cons_self, isChanged⟩
        exact .inr ⟨mem_cons_of_mem _ member, isLater⟩
      rintro (before | ⟨member, isLater⟩)
      · exact .inl (.inl before)
      rcases mem_cons.mp member with rfl | member
      · exact .inl (.inr rfl)
      exact .inr ⟨member, isLater⟩
    rw [if_neg isChanged]
    constructor
    · rintro (before | ⟨member, isLater⟩)
      · exact .inl before
      exact .inr ⟨mem_cons_of_mem _ member, isLater⟩
    rintro (before | ⟨member, isLater⟩)
    · exact .inl before
    rcases mem_cons.mp member with rfl | member
    · exact absurd isLater isChanged
    exact .inr ⟨member, isLater⟩

theorem bitAt_changeMask_iff (baseline current : FieldArray) (activeMask : UInt32)
    (field : Fin maxSchemaFields) :
    bitAt (changeMask baseline current activeMask) field.val = true ↔
      bitAt activeMask field.val = true ∧ current field ≠ baseline field := by
  rw [changeMask, bitAt_foldl_changed, and_one_shiftLeft_ne_zero_iff _ field.isLt]
  simp

def decoded (known baseline current : FieldArray) (mask : UInt32)
    (fields : List (Fin maxSchemaFields)) (outCurrent : FieldArray) : FieldArray :=
  fun field =>
    if field ∈ fields ∧ bitAt mask field.val = true then
      known field ^^^ (current field ^^^ baseline field)
    else
      outCurrent field

variable {baseline : FieldArray} {mask : UInt32} {field : Fin maxSchemaFields}

theorem decoded_cons_of_sent {known current : FieldArray} (sent : bitAt mask field.val = true)
    (fields : List (Fin maxSchemaFields)) (outCurrent : FieldArray) :
    decoded known baseline current mask fields
        (Function.update outCurrent field (known field ^^^ (current field ^^^ baseline field))) =
      decoded known baseline current mask (field :: fields) outCurrent := by
  funext other
  rw [decoded, decoded]
  by_cases later : other ∈ fields ∧ bitAt mask other.val = true
  · rw [if_pos later, if_pos ⟨mem_cons_of_mem _ later.1, later.2⟩]
  rw [if_neg later]
  by_cases same : other = field
  · subst same
    rw [update_self, if_pos ⟨mem_cons_self, sent⟩]
  have notHere : ¬ (other ∈ field :: fields ∧ bitAt mask other.val = true) := by
    rintro ⟨member, isSent⟩
    rcases mem_cons.mp member with isField | member
    · exact same isField
    exact later ⟨member, isSent⟩
  rw [update_of_ne same, if_neg notHere]

theorem decoded_cons_of_not_sent {known current : FieldArray}
    (notSent : ¬ bitAt mask field.val = true) (fields : List (Fin maxSchemaFields))
    (outCurrent : FieldArray) :
    decoded known baseline current mask fields outCurrent =
      decoded known baseline current mask (field :: fields) outCurrent := by
  funext other
  rw [decoded, decoded]
  by_cases later : other ∈ fields ∧ bitAt mask other.val = true
  · rw [if_pos later, if_pos ⟨mem_cons_of_mem _ later.1, later.2⟩]
  have notHere : ¬ (other ∈ field :: fields ∧ bitAt mask other.val = true) := by
    rintro ⟨member, isSent⟩
    rcases mem_cons.mp member with rfl | member
    · exact notSent isSent
    exact later ⟨member, isSent⟩
  rw [if_neg later, if_neg notHere]

theorem wrote_and_reads_deltas {known baseline current : FieldArray} {mask : UInt32}
    {fields : List (Fin maxSchemaFields)} {writer after : BitWriter}
    (written : writeDeltas baseline current mask fields writer = (.ok (), after)) :
    Wrote writer after (after.bitOffset - writer.bitOffset) ∧
      ∀ (reader : BitReader) (outCurrent : FieldArray),
        reader.bitOffset = writer.bitOffset → after.bitOffset ≤ 8 * reader.buffer.length →
          AgreeBelow reader.buffer after.buffer after.bitOffset →
            readDeltas known mask fields reader outCurrent =
              (.ok (), decoded known baseline current mask fields outCurrent,
                { reader with bitOffset := after.bitOffset }) := by
  induction fields generalizing writer with
  | nil =>
    cases written
    refine ⟨(Wrote.refl _).toDifference, fun reader outCurrent start _ _ => ?_⟩
    have nothing : decoded known baseline current mask [] outCurrent = outCurrent := by
      funext field
      rw [decoded, if_neg fun sent => not_mem_nil sent.1]
    rw [readDeltas, nothing, ← start]
  | cons field fields ih =>
    rw [writeDeltas] at written
    by_cases sent : mask &&& ((1 : UInt32) <<< UInt32.ofNat field.val) ≠ 0
    · rw [if_pos sent] at written
      rcases first : writer.writeVarint (current field ^^^ baseline field) with
        ⟨result, between⟩
      rw [first] at written
      rcases result with error | count
      · cases written
      have back := readBack_varint first
      obtain ⟨wrote, reads⟩ := ih written
      have le : between.bitOffset ≤ after.bitOffset := by
        rw [wrote.offset]
        exact Nat.le_add_right _ _
      refine ⟨(back.wrote.trans wrote).toDifference, ?_⟩
      intro reader outCurrent start room agree
      have stepped := back.reads reader start (Nat.le_trans le room)
        ((agree.mono le).trans wrote.kept)
      rw [readDeltas, if_pos sent, stepped]
      simp only
      rw [reads { reader with bitOffset := between.bitOffset } _ rfl room agree,
        decoded_cons_of_sent ((and_one_shiftLeft_ne_zero_iff _ field.isLt).mp sent)]
    rw [if_neg sent] at written
    obtain ⟨wrote, reads⟩ := ih written
    refine ⟨wrote, fun reader outCurrent start room agree => ?_⟩
    rw [readDeltas, if_neg sent, reads reader outCurrent start room agree, decoded_cons_of_not_sent
        (fun isSent => sent ((and_one_shiftLeft_ne_zero_iff _ field.isLt).mpr isSent))]

theorem toUInt32_mask (mask : UInt32) :
    (UInt64.ofNat (mask.toUInt64.toNat % 2 ^ 32)).toUInt32 = mask := by
  have bound := mask.toNat_lt
  apply UInt32.toNat_inj.mp
  rw [UInt32.toNat_toUInt64, UInt64.toNat_toUInt32, UInt64.toNat_ofNat']
  omega

/-- What is read against `known`, where `current` has been written against `baseline`. -/
def received (known baseline current : FieldArray) (activeMask : UInt32) : FieldArray :=
  decoded known baseline current (changeMask baseline current activeMask)
    (List.finRange maxSchemaFields) known

theorem wrote_and_reads {known baseline current : FieldArray} {activeMask mask : UInt32}
    {writer after : BitWriter}
    (written : compress baseline current activeMask writer = (.ok mask, after)) :
    mask = changeMask baseline current activeMask ∧
    Wrote writer after (after.bitOffset - writer.bitOffset) ∧ ∀ reader : BitReader,
        reader.bitOffset = writer.bitOffset → after.bitOffset ≤ 8 * reader.buffer.length →
          AgreeBelow reader.buffer after.buffer after.bitOffset → decompress known reader =
              (.ok mask, received known baseline current activeMask,
                { reader with bitOffset := after.bitOffset }) := by
  rw [compress] at written
  rcases first : writer.writeBits (changeMask baseline current activeMask).toUInt64 32 with
    ⟨result, between⟩
  rw [first] at written
  rcases result with error | _
  · cases written
  dsimp only at written
  rcases second : writeDeltas baseline current (changeMask baseline current activeMask)
    (List.finRange maxSchemaFields) between with ⟨result, last⟩
  rw [second] at written
  rcases result with error | _
  · cases written
  obtain ⟨sameMask, rfl⟩ := Prod.mk.inj written
  obtain rfl := Except.ok.inj sameMask
  have back := readBack_bits first
  obtain ⟨wrote, reads⟩ := @wrote_and_reads_deltas known _ _ _ _ _ _ second
  have le : between.bitOffset ≤ last.bitOffset := by
    rw [wrote.offset]
    exact Nat.le_add_right _ _
  refine ⟨rfl, (back.wrote.trans wrote).toDifference, ?_⟩
  intro reader start room agree
  have stepped := back.reads reader start (Nat.le_trans le room) ((agree.mono le).trans wrote.kept)
  rw [decompress, stepped]
  simp only [toUInt32_mask]
  rw [reads { reader with bitOffset := between.bitOffset } _ rfl room agree]
  rfl

variable {activeMask : UInt32}

theorem inside_of_compress {current : FieldArray} {writer after : BitWriter}
    (written : compress baseline current activeMask writer = (.ok mask, after)) :
    writer.bitOffset ≤ 8 * writer.buffer.length := by
  by_contra outside
  have full : writer.remainingBits < 32 := by
    rw [BitWriter.remainingBits, BitWriter.totalBits]
    omega
  rw [compress, BitWriter.writeBits, if_pos full] at written
  cases written

theorem decompress_of_compress (known : FieldArray) {current : FieldArray}
    {writer after : BitWriter}
    (written : compress baseline current activeMask writer = (.ok mask, after)) :
    decompress known { buffer := after.asBytes, bitOffset := writer.bitOffset } =
      (.ok mask, received known baseline current activeMask,
        { buffer := after.asBytes, bitOffset := after.bitOffset }) := by
  obtain ⟨-, wrote, reads⟩ := @wrote_and_reads known _ _ _ _ _ _ written
  obtain ⟨room, agree⟩ := wrote.asBytes (inside_of_compress written)
  exact reads _ rfl room agree

theorem received_of_active {known current : FieldArray}
    (active : bitAt activeMask field.val = true) (same : known field = baseline field) :
    received known baseline current activeMask field = current field := by
  rw [received, decoded]
  by_cases changed : current field = baseline field
  · have notSent : ¬ (field ∈ List.finRange maxSchemaFields ∧
        bitAt (changeMask baseline current activeMask) field.val = true) := by
      rw [bitAt_changeMask_iff]
      exact fun sent => sent.2.2 changed
    rw [if_neg notSent, same, changed]
  have sent : field ∈ List.finRange maxSchemaFields ∧
      bitAt (changeMask baseline current activeMask) field.val = true :=
    ⟨mem_finRange field, (bitAt_changeMask_iff _ _ _ _).mpr ⟨active, changed⟩⟩
  rw [if_pos sent, same, UInt64.xor_comm (current field), ← UInt64.xor_assoc,
    UInt64.xor_self, UInt64.zero_xor]

theorem received_of_not_active {known current : FieldArray}
    (notActive : ¬ bitAt activeMask field.val = true) :
    received known baseline current activeMask field = known field := by
  have notSent : ¬ (field ∈ List.finRange maxSchemaFields ∧
      bitAt (changeMask baseline current activeMask) field.val = true) := by
    rw [bitAt_changeMask_iff]
    exact fun sent => notActive sent.2.1
  rw [received, decoded, if_neg notSent]

structure FieldUpdate where
  current : FieldArray
  activeMask : UInt32
  writer : BitWriter

structure Sides where
  sender : FieldArray
  receiver : FieldArray

/-- The update is written against the sender's baseline, and each side adopts what it decodes
from the written bits; an update that cannot be written is not sent. -/
def Sides.update (sides : Sides) (update : FieldUpdate) : Sides :=
  match compress sides.sender update.current update.activeMask update.writer with
  | (.error _, _) => sides
  | (.ok _, after) =>
    { sender := (decompress sides.sender
        { buffer := after.asBytes, bitOffset := update.writer.bitOffset }).2.1
      receiver := (decompress sides.receiver
        { buffer := after.asBytes, bitOffset := update.writer.bitOffset }).2.1 }

def Sides.AgreeOn (fields : UInt32) (sides : Sides) : Prop :=
  ∀ field : Fin maxSchemaFields, bitAt fields field.val = true →
    sides.receiver field = sides.sender field

def FieldUpdate.Within (fields : UInt32) (update : FieldUpdate) : Prop :=
  ∀ field : Fin maxSchemaFields, bitAt update.activeMask field.val = true →
    bitAt fields field.val = true

def Sides.Delivers (sides : Sides) (update : FieldUpdate) : Prop :=
  ∀ mask after,
    compress sides.sender update.current update.activeMask update.writer = (.ok mask, after) →
      ∀ field : Fin maxSchemaFields, bitAt update.activeMask field.val = true →
        (sides.update update).sender field = update.current field ∧
          (sides.update update).receiver field = update.current field

variable {sides : Sides}

theorem Sides.update_of_compress {update : FieldUpdate} {after : BitWriter}
    (written : compress sides.sender update.current update.activeMask update.writer =
      (.ok mask, after)) :
    sides.update update =
      { sender := received sides.sender sides.sender update.current update.activeMask
        receiver := received sides.receiver sides.sender update.current update.activeMask } := by
  rw [Sides.update, written]
  simp only [decompress_of_compress _ written]

variable {fields : UInt32}

theorem Sides.AgreeOn.delivers (agree : sides.AgreeOn fields) {update : FieldUpdate}
    (within : update.Within fields) : sides.Delivers update := by
  intro mask after written field active
  rw [update_of_compress written]
  exact ⟨received_of_active active rfl,
    received_of_active active (agree field (within field active))⟩

theorem Sides.AgreeOn.update (agree : sides.AgreeOn fields) (update : FieldUpdate) :
    (sides.update update).AgreeOn fields := by
  intro field member
  rcases outcome : compress sides.sender update.current update.activeMask update.writer with
    ⟨result, after⟩
  rcases result with error | mask
  · rw [Sides.update, outcome]
    exact agree field member
  rw [update_of_compress outcome]
  by_cases active : bitAt update.activeMask field.val = true
  · exact (received_of_active active (agree field member)).trans
      (received_of_active active rfl).symm
  exact (received_of_not_active active).trans
    ((agree field member).trans (received_of_not_active active).symm)

theorem Sides.inStep (agree : sides.AgreeOn fields) {updates : List FieldUpdate}
    (within : ∀ update ∈ updates, update.Within fields) :
    Throughout Sides.update (Sides.AgreeOn fields) sides updates ∧
      EachStep Sides.update Sides.Delivers sides updates := by
  have assumed : EachStep Sides.update (fun _ update => update.Within fields) sides updates :=
    eachStep_of_forall within sides
  have kept : ∀ (state : Sides) (update : FieldUpdate), state.AgreeOn fields →
      update.Within fields → (state.update update).AgreeOn fields :=
    fun _ update agreed _ => agreed.update update
  exact ⟨throughout_of_eachStep kept agree assumed,
    eachStep_of_invariant kept (fun _ _ agreed now => agreed.delivers now) agree assumed⟩

/-- A written update is decoded against the same baseline to the new values of the active
fields and the old values of the others, with the same mask and over the same bits, and two
sides that agree on some fields stay in step on them along every run of updates. -/
theorem decompress_compress :
    (∀ (baseline current : FieldArray) (activeMask mask : UInt32) (writer after : BitWriter),
      compress baseline current activeMask writer = (.ok mask, after) →
        decompress baseline { buffer := after.asBytes, bitOffset := writer.bitOffset } =
          (.ok mask,
            fun field =>
              if bitAt activeMask field.val = true then current field else baseline field,
            { buffer := after.asBytes, bitOffset := after.bitOffset })) ∧
    ∀ (fields : UInt32) (sides : Sides) (updates : List FieldUpdate),
      sides.AgreeOn fields → (∀ update ∈ updates, update.Within fields) →
        Throughout Sides.update (Sides.AgreeOn fields) sides updates ∧
          EachStep Sides.update Sides.Delivers sides updates := by
  refine ⟨?_, fun fields sides updates agree within => Sides.inStep agree within⟩
  intro baseline current activeMask mask writer after written
  have result : received baseline baseline current activeMask = fun field =>
      if bitAt activeMask field.val = true then current field else baseline field := by
    funext field
    by_cases active : bitAt activeMask field.val = true
    · rw [if_pos active, received_of_active active rfl]
    rw [if_neg active, received_of_not_active active]
  rw [decompress_of_compress baseline written, result]

end DeltaXorCompressor

end Eidolon.Net
