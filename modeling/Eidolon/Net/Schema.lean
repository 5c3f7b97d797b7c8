import Mathlib.Data.List.FinRange
import Eidolon.Net.MultiResRoundTrip

/-!
# Wire schemas

Packets of fields that either side may lack.  A schema lists its fields by identifier, the
handshake agrees on a mask of those that are sent, and both sides walk their own schema.
-/

namespace Eidolon.Net

open Library List

def maxSchemaFields : Nat := 32

inductive FieldType where
  | u8
  | u16
  | u32
  | u64
  | bits (width : UInt8)
  | varint
  | quantized16
  | quantizedYaw
  | deltaXor
  deriving DecidableEq

def FieldType.staticBitWidth : FieldType → Option Nat
  | u8 | quantizedYaw => some 8
  | u16 | quantized16 => some 16
  | u32 => some 32
  | u64 => some 64
  | bits width => some width.toNat
  | varint | deltaXor => none

structure FieldDescriptor where
  fieldId : UInt8
  fieldType : FieldType
  defaultValue : UInt64
  introducedInVersion : UInt16
  deprecatedInVersion : Option UInt16
  deriving DecidableEq

def FieldDescriptor.isActiveInVersion (field : FieldDescriptor) (version : UInt16) : Bool :=
  if version < field.introducedInVersion then
    false
  else
    match field.deprecatedInVersion with
    | some deprecated => !decide (deprecated ≤ version)
    | none => true

inductive SchemaError where
  | bitstream (error : BitstreamError)
  | fieldIdOutOfRange (fieldId : UInt8)
  | versionTooOld (clientVersion minSupported : UInt16)
  | outputBufferTooSmall
  deriving DecidableEq

/-- A table of fields, each at the place of its identifier. -/
structure WireSchema where
  version : UInt16
  fields : Fin 32 → Option FieldDescriptor
  fieldCount : Nat
  placed : ∀ index field, fields index = some field → field.fieldId.toNat = index.val

namespace WireSchema

def new (version : UInt16) : WireSchema where
  version := version
  fields := fun _ => none
  fieldCount := 0
  placed _ _ isField := by
    cases isField

variable (schema : WireSchema)

def addField (descriptor : FieldDescriptor) : Except SchemaError Unit × WireSchema :=
  if inside : descriptor.fieldId.toNat < maxSchemaFields then
    let index : Fin 32 := ⟨descriptor.fieldId.toNat, inside⟩
    (.ok (),
      { schema with
        fields := fun other => if other = index then some descriptor else schema.fields other
        fieldCount :=
          if (schema.fields index).isNone then schema.fieldCount + 1 else schema.fieldCount
        placed := by
          intro other field isField
          split at isField
          · rename_i same
            rw [← Option.some.inj isField, same]
          exact schema.placed other field isField })
  else
    (.error (.fieldIdOutOfRange descriptor.fieldId), schema)

/-- The fields in the order of their identifiers. -/
def descriptors : List FieldDescriptor :=
  (List.finRange 32).filterMap schema.fields

def computeFieldMask (protocolVersion : UInt16) : UInt32 :=
  schema.descriptors.foldl (fun mask field =>
    if field.isActiveInVersion protocolVersion then
      mask ||| ((1 : UInt32) <<< UInt32.ofNat field.fieldId.toNat)
    else
      mask) 0

end WireSchema

structure NegotiatedSession where
  protocolVersion : UInt16
  activeFieldMask : UInt32
  deriving DecidableEq

structure SchemaNegotiator where
  serverSchema : WireSchema
  minSupportedVersion : UInt16

def SchemaNegotiator.negotiate (negotiator : SchemaNegotiator) (clientVersion : UInt16)
    (clientFieldMask : UInt32) : Except SchemaError NegotiatedSession :=
  if clientVersion < negotiator.minSupportedVersion then
    .error (.versionTooOld clientVersion negotiator.minSupportedVersion)
  else
    let agreedVersion := min clientVersion negotiator.serverSchema.version
    let serverMask := negotiator.serverSchema.computeFieldMask agreedVersion
    .ok { protocolVersion := agreedVersion, activeFieldMask := serverMask &&& clientFieldMask }

structure FieldValue where
  fieldId : UInt8
  value : UInt64
  deriving DecidableEq

namespace SchemaEngine

def isActive (activeMask : UInt32) (field : FieldDescriptor) : Bool :=
  decide (activeMask &&& ((1 : UInt32) <<< UInt32.ofNat field.fieldId.toNat) ≠ 0)

def rawValue (values : List FieldValue) (field : FieldDescriptor) : UInt64 :=
  match values.find? fun given => decide (given.fieldId = field.fieldId) with
  | some given => given.value
  | none => field.defaultValue

def writeField (fieldType : FieldType) (rawVal : UInt64) (writer : BitWriter) :
    Except BitstreamError Unit × BitWriter :=
  match fieldType with
  | .u8 | .quantizedYaw => writer.writeBits rawVal 8
  | .u16 | .quantized16 => writer.writeBits rawVal 16
  | .u32 => writer.writeBits rawVal 32
  | .u64 => writer.writeBits rawVal 64
  | .bits width => writer.writeBits rawVal width.toNat
  | .varint | .deltaXor => andThen (writer.writeVarint rawVal) fun _ writer => (.ok (), writer)

def readField (fieldType : FieldType) (reader : BitReader) :
    Except BitstreamError UInt64 × BitReader :=
  match fieldType with
  | .u8 | .quantizedYaw => reader.readBits 8
  | .u16 | .quantized16 => reader.readBits 16
  | .u32 => reader.readBits 32
  | .u64 => reader.readBits 64
  | .bits width => reader.readBits width.toNat
  | .varint | .deltaXor => reader.readVarint

def serializeFields (activeMask : UInt32) (values : List FieldValue) :
    List FieldDescriptor → BitWriter → Except SchemaError Unit × BitWriter
  | [], writer => (.ok (), writer)
  | field :: fields, writer =>
    if isActive activeMask field then
      match writeField field.fieldType (rawValue values field) writer with
      | (.error error, writer) => (.error (.bitstream error), writer)
      | (.ok (), writer) => serializeFields activeMask values fields writer
    else
      serializeFields activeMask values fields writer

def serialize (schema : WireSchema) (activeMask : UInt32) (values : List FieldValue)
    (writer : BitWriter) : Except SchemaError Unit × BitWriter :=
  serializeFields activeMask values schema.descriptors writer

/-- The loop of `deserialize`, with so many values decoded; fields that were not negotiated
get their default. -/
def deserializeFields (activeMask : UInt32) : List FieldDescriptor → BitReader →
    List FieldValue → Nat → Except SchemaError Nat × List FieldValue × BitReader
  | [], reader, outValues, decodedCount => (.ok decodedCount, outValues, reader)
  | field :: fields, reader, outValues, decodedCount =>
    if outValues.length ≤ decodedCount then
      (.error .outputBufferTooSmall, outValues, reader)
    else if isActive activeMask field then
      match readField field.fieldType reader with
      | (.error error, reader) => (.error (.bitstream error), outValues, reader)
      | (.ok value, reader) =>
        deserializeFields activeMask fields reader
          (outValues.set decodedCount { fieldId := field.fieldId, value := value })
          (decodedCount + 1)
    else
      deserializeFields activeMask fields reader (outValues.set decodedCount
          { fieldId := field.fieldId, value := field.defaultValue })
        (decodedCount + 1)

def deserialize (schema : WireSchema) (activeMask : UInt32) (reader : BitReader)
    (outValues : List FieldValue) : Except SchemaError Nat × List FieldValue × BitReader :=
  deserializeFields activeMask schema.descriptors reader outValues 0

end SchemaEngine

end Eidolon.Net

/-!
## Schema evolution

A client reads what a server has sent with another schema: the fields of the negotiated mask
as they were sent, and its own defaults for the others.
-/

namespace Eidolon.Net

open Library List

def FieldType.truncate (fieldType : FieldType) (value : UInt64) : UInt64 :=
  match fieldType.staticBitWidth with
  | some width => UInt64.ofNat (value.toNat % 2 ^ width)
  | none => value

theorem WireSchema.mem_descriptors_iff {schema : WireSchema} {field : FieldDescriptor} :
    field ∈ schema.descriptors ↔ ∃ index, schema.fields index = some field := by
  rw [descriptors, mem_filterMap]
  simp only [mem_finRange, true_and]

theorem WireSchema.exists_of_bitAt_computeFieldMask {schema : WireSchema} {version : UInt16}
    {index : Fin 32} (isSet : bitAt (schema.computeFieldMask version) index.val = true) :
    ∃ field, schema.fields index = some field ∧ field.isActiveInVersion version = true := by
  have fromList : ∀ (fields : List FieldDescriptor) (mask : UInt32),
      (∀ field, field ∈ fields → field.fieldId.toNat < 32) → bitAt (fields.foldl (fun mask field =>
          if field.isActiveInVersion version then
            mask ||| ((1 : UInt32) <<< UInt32.ofNat field.fieldId.toNat)
          else mask) mask) index.val = true →
          bitAt mask index.val = true ∨ ∃ field, field ∈ fields ∧
            field.fieldId.toNat = index.val ∧ field.isActiveInVersion version = true := by
    intro fields
    induction fields with
    | nil =>
      intro mask _ isSet
      exact Or.inl isSet
    | cons field fields ih =>
      intro mask inside isSet
      rw [foldl_cons] at isSet
      have later := ih _ (fun other member => inside other (mem_cons_of_mem field member)) isSet
      rcases later with before | found
      · by_cases active : field.isActiveInVersion version = true
        · rw [if_pos active, bitAt_or, bitAt_one_shiftLeft (inside field mem_cons_self) index.isLt,
            Bool.or_eq_true, decide_eq_true_iff] at before
          rcases before with before | same
          · exact Or.inl before
          exact Or.inr ⟨field, mem_cons_self, same.symm, active⟩
        rw [if_neg active] at before
        exact Or.inl before
      obtain ⟨other, member, same, active⟩ := found
      exact Or.inr ⟨other, mem_cons_of_mem field member, same, active⟩
  have inside : ∀ field, field ∈ schema.descriptors → field.fieldId.toNat < 32 := by
    intro field member
    obtain ⟨place, isField⟩ := mem_descriptors_iff.mp member
    rw [schema.placed place field isField]
    exact place.isLt
  rcases fromList schema.descriptors 0 inside isSet with zero | found
  · rw [bitAt_zero] at zero
    cases zero
  obtain ⟨field, member, same, active⟩ := found
  obtain ⟨place, isField⟩ := mem_descriptors_iff.mp member
  have samePlace : place = index := by
    apply Fin.ext
    rw [← schema.placed place field isField, same]
  rw [samePlace] at isField
  exact ⟨field, isField, active⟩

namespace SchemaEngine

theorem isActive_iff {schema : WireSchema} {index : Fin 32} {field : FieldDescriptor}
    (isField : schema.fields index = some field) (activeMask : UInt32) :
    isActive activeMask field = bitAt activeMask index.val := by
  rw [isActive, schema.placed index field isField, ← Bool.coe_iff_coe, decide_eq_true_iff]
  exact and_one_shiftLeft_ne_zero_iff activeMask index.isLt

theorem readBack_field {fieldType : FieldType} {rawVal : UInt64} {writer after : BitWriter}
    (written : writeField fieldType rawVal writer = (.ok (), after)) :
    ReadBack writer after (readField fieldType) (fieldType.truncate rawVal) := by
  have varint : andThen (writer.writeVarint rawVal)
      (fun _ writer => (.ok (), writer)) = (.ok (), after) →
        ReadBack writer after BitReader.readVarint rawVal := by
    intro written
    obtain ⟨_, _, first, done⟩ := andThen_eq_ok written
    cases done
    exact readBack_varint first
  cases fieldType with
  | varint => exact varint written
  | deltaXor => exact varint written
  | _ => exact readBack_bits written

def decodedValue (server : WireSchema) (activeMask : UInt32) (values : List FieldValue)
    (field : FieldDescriptor) : FieldValue where
  fieldId := field.fieldId
  value :=
    if isActive activeMask field then
      match server.fields (Fin.ofNat 32 field.fieldId.toNat) with
      | some serverField => serverField.fieldType.truncate (rawValue values serverField)
      | none => 0
    else
      field.defaultValue

def Compatible (server client : WireSchema) (activeMask : UInt32) : Prop :=
  ∀ index : Fin 32, bitAt activeMask index.val = true →
    ∃ serverField clientField, server.fields index = some serverField ∧
      client.fields index = some clientField ∧ clientField.fieldType = serverField.fieldType

theorem decodedValue_of_active {server client : WireSchema} {activeMask : UInt32} {index : Fin 32}
    {serverField clientField : FieldDescriptor} (onServer : server.fields index = some serverField)
    (onClient : client.fields index = some clientField)
    (active : bitAt activeMask index.val = true) (values : List FieldValue) :
    decodedValue server activeMask values clientField =
      { fieldId := clientField.fieldId
        value := serverField.fieldType.truncate (rawValue values serverField) } := by
  have place : Fin.ofNat 32 clientField.fieldId.toNat = index := by
    apply Fin.ext
    rw [client.placed index clientField onClient]
    exact Nat.mod_eq_of_lt index.isLt
  rw [decodedValue, isActive_iff onClient, active, if_pos rfl, place, onServer]

theorem set_decoded (outValues : List FieldValue) (decodedCount more : Nat)
    (value : FieldValue) (room : decodedCount < outValues.length) (rest : List FieldValue) :
    (outValues.set decodedCount value).take (decodedCount + 1) ++ rest ++
        (outValues.set decodedCount value).drop (decodedCount + 1 + more) =
      outValues.take decodedCount ++ (value :: rest) ++
        outValues.drop (decodedCount + (more + 1)) := by
  have later : decodedCount + (more + 1) = decodedCount + 1 + more := by
    omega
  rw [take_add_one, take_set_of_le (Nat.le_refl _), List.getElem?_set_self room,
    drop_set_of_lt (by omega), later]
  simp

theorem readBack_fields {server client : WireSchema} {activeMask : UInt32}
    (compatible : Compatible server client activeMask) {values : List FieldValue}
    {indices : List (Fin 32)} {writer after : BitWriter}
    (written : serializeFields activeMask values (indices.filterMap server.fields) writer =
      (.ok (), after)) :
    Wrote writer after (after.bitOffset - writer.bitOffset) ∧
      ∀ (reader : BitReader) (outValues : List FieldValue) (decodedCount : Nat),
        reader.bitOffset = writer.bitOffset → after.bitOffset ≤ 8 * reader.buffer.length →
          AgreeBelow reader.buffer after.buffer after.bitOffset →
            decodedCount + (indices.filterMap client.fields).length ≤ outValues.length →
              deserializeFields activeMask (indices.filterMap client.fields) reader outValues
                  decodedCount =
                (.ok (decodedCount + (indices.filterMap client.fields).length),
                  outValues.take decodedCount ++ (indices.filterMap client.fields).map
                      (decodedValue server activeMask values) ++
                    outValues.drop (decodedCount + (indices.filterMap client.fields).length),
                  { reader with bitOffset := after.bitOffset }) := by
  induction indices generalizing writer with
  | nil =>
    cases written
    refine ⟨(Wrote.refl _).toDifference, ?_⟩
    intro reader outValues decodedCount start _ _ _
    rw [← start]
    simp [deserializeFields]
  | cons index indices ih =>
    by_cases active : bitAt activeMask index.val = true
    · obtain ⟨serverField, clientField, onServer, onClient, sameType⟩ :=
        compatible index active
      rw [filterMap_cons_some onServer, serializeFields,
        isActive_iff onServer, if_pos active] at written
      rw [filterMap_cons_some onClient]
      rcases first : writeField serverField.fieldType (rawValue values serverField) writer
        with ⟨result, between⟩
      rw [first] at written
      rcases result with error | _
      · cases written
      have back := readBack_field first
      obtain ⟨wrote, reads⟩ := ih written
      have le : between.bitOffset ≤ after.bitOffset := by
        rw [wrote.offset]
        exact Nat.le_add_right _ _
      refine ⟨(back.wrote.trans wrote).toDifference, ?_⟩
      intro reader outValues decodedCount start room agree enough
      have stepped := back.reads reader start (Nat.le_trans le room)
        ((agree.mono le).trans wrote.kept)
      rw [length_cons] at enough
      have inside : decodedCount < outValues.length := by
        omega
      rw [deserializeFields, if_neg (Nat.not_le.mpr inside), isActive_iff onClient,
        if_pos active, sameType, stepped]
      simp only
      rw [reads { reader with bitOffset := between.bitOffset } _ _ rfl room agree
        (by rw [length_set]; omega), set_decoded _ _ _ _ inside, map_cons,
        decodedValue_of_active onServer onClient active, length_cons]
      simp only [Prod.mk.injEq, Except.ok.injEq, and_true]
      omega
    have skipped : serializeFields activeMask values (indices.filterMap server.fields)
        writer = (.ok (), after) := by
      rcases onServer : server.fields index with _ | serverField
      · rw [filterMap_cons_none onServer] at written
        exact written
      rw [filterMap_cons_some onServer, serializeFields, isActive_iff onServer,
        if_neg active] at written
      exact written
    obtain ⟨wrote, reads⟩ := ih skipped
    rcases onClient : client.fields index with _ | clientField
    · rw [filterMap_cons_none onClient]
      exact ⟨wrote, reads⟩
    rw [filterMap_cons_some onClient]
    refine ⟨wrote, ?_⟩
    intro reader outValues decodedCount start room agree enough
    rw [length_cons] at enough
    have inside : decodedCount < outValues.length := by
      omega
    have default : decodedValue server activeMask values clientField =
        { fieldId := clientField.fieldId, value := clientField.defaultValue } := by
      rw [decodedValue, isActive_iff onClient, if_neg active]
    rw [deserializeFields, if_neg (Nat.not_le.mpr inside), isActive_iff onClient,
      if_neg active, reads reader _ _ start room agree
      (by rw [length_set]; omega), set_decoded _ _ _ _ inside, map_cons,
      default, length_cons]
    simp only [Prod.mk.injEq, Except.ok.injEq, and_true]
    omega

/-- A client reads the negotiated fields as the server has sent them and its own defaults
for the others, and no bit more or less than was written. -/
theorem deserialize_serialize {server client : WireSchema} {minSupported : UInt16}
    {clientVersion : UInt16} {clientFieldMask : UInt32} {session : NegotiatedSession}
    (negotiated : (SchemaNegotiator.mk server minSupported).negotiate clientVersion
      clientFieldMask = .ok session)
    (onBothSides : ∀ (index : Fin 32) (serverField : FieldDescriptor),
      bitAt session.activeFieldMask index.val = true → server.fields index = some serverField →
          ∃ clientField, client.fields index = some clientField ∧
            clientField.fieldType = serverField.fieldType)
    {values : List FieldValue} {writer after : BitWriter}
    (inside : writer.bitOffset ≤ 8 * writer.buffer.length)
    (written : serialize server session.activeFieldMask values writer = (.ok (), after))
    {outValues : List FieldValue} (room : client.descriptors.length ≤ outValues.length) :
    deserialize client session.activeFieldMask
        { buffer := after.asBytes, bitOffset := writer.bitOffset } outValues =
      (.ok client.descriptors.length,
        client.descriptors.map (decodedValue server session.activeFieldMask values) ++
          outValues.drop client.descriptors.length,
        { buffer := after.asBytes, bitOffset := after.bitOffset }) := by
  have compatible : Compatible server client session.activeFieldMask := by
    intro index active
    have onServer : bitAt (server.computeFieldMask (min clientVersion server.version))
        index.val = true := by
      rw [SchemaNegotiator.negotiate] at negotiated
      split at negotiated
      · cases negotiated
      cases negotiated
      rw [bitAt, UInt32.toNat_and, Nat.testBit_and, Bool.and_eq_true] at active
      exact active.1
    obtain ⟨serverField, isField, _⟩ := server.exists_of_bitAt_computeFieldMask onServer
    obtain ⟨clientField, onClient, sameType⟩ := onBothSides index serverField active isField
    exact ⟨serverField, clientField, isField, onClient, sameType⟩
  obtain ⟨wrote, reads⟩ := readBack_fields compatible written
  obtain ⟨fits, agree⟩ := wrote.asBytes inside
  have read := reads { buffer := after.asBytes, bitOffset := writer.bitOffset } outValues 0 rfl
    fits agree (by rw [Nat.zero_add]; exact room)
  rw [Nat.zero_add] at read
  exact read

def serverOfThree : WireSchema :=
  ((((WireSchema.new 3).addField ⟨0, .u16, 7, 1, none⟩).2.addField ⟨2, .bits 5, 9, 1, none⟩).2.addField
    ⟨3, .varint, 1, 1, some 2⟩).2

def clientOfThree : WireSchema :=
  ((((WireSchema.new 2).addField ⟨0, .u16, 0, 1, none⟩).2.addField ⟨2, .bits 5, 0, 1, none⟩).2.addField
    ⟨5, .u8, 42, 1, none⟩).2

/-- A value that is cut off, a default of the server and a default of the client. -/
theorem deserialize_serialize_three :
    deserialize clientOfThree 5 { buffer := [17, 112, 79], bitOffset := 0 }
        [⟨9, 9⟩, ⟨9, 9⟩, ⟨9, 9⟩, ⟨8, 8⟩] =
      (.ok 3, [⟨0, 4464⟩, ⟨2, 9⟩, ⟨5, 42⟩, ⟨8, 8⟩],
        { buffer := [17, 112, 79], bitOffset := 21 }) := by
  have onBothSides : ∀ (index : Fin 32) (serverField : FieldDescriptor),
      bitAt 5 index.val = true → serverOfThree.fields index = some serverField →
        ∃ clientField, clientOfThree.fields index = some clientField ∧
          clientField.fieldType = serverField.fieldType := by
    intro index serverField active onServer
    have places : ∀ index : Fin 32, bitAt 5 index.val = true → index = 0 ∨ index = 2 := by
      decide
    rcases places index active with first | second
    · rw [first] at onServer ⊢
      cases onServer
      exact ⟨⟨0, .u16, 0, 1, none⟩, rfl, rfl⟩
    rw [second] at onServer ⊢
    cases onServer
    exact ⟨⟨2, .bits 5, 0, 1, none⟩, rfl, rfl⟩
  have read := @deserialize_serialize serverOfThree clientOfThree 1 2 0x25
    { protocolVersion := 2, activeFieldMask := 5 } (by decide) onBothSides [⟨0, 70000⟩]
    { buffer := [255, 255, 255, 255], bitOffset := 0 }
    { buffer := [17, 112, 79, 255], bitOffset := 21 } (by decide) (by decide +kernel)
    [⟨9, 9⟩, ⟨9, 9⟩, ⟨9, 9⟩, ⟨8, 8⟩] (by decide)
  exact read.trans (by decide +kernel)

end SchemaEngine

end Eidolon.Net
