import Eidolon.Core.Quant
import Eidolon.Net.Packet

/-!
# Standard and compact packet headers

The compact header leaves the acknowledgment out.  Both headers begin with the same bytes and
differ in one bit of the fourth byte, which only the reader of either kind looks at.
-/

namespace Eidolon.Net

open Core Library List

def compactHeaderSize : Nat := 6

def flagCompactHeader : UInt8 := 0x08

def writeHeader (encoded out : List UInt8) : Except NetError (List UInt8 × Nat) :=
  if out.length < encoded.length then
    .error (.truncatedPacket encoded.length out.length)
  else
    .ok (encoded ++ out.drop encoded.length, encoded.length)

def PacketHeader.writeTo (self : PacketHeader) (out : List UInt8) :
    Except NetError (List UInt8 × Nat) :=
  writeHeader self.encoded out

structure CompactPacketHeader where
  version : UInt16
  channel : ChannelType
  packetType : PacketType
  sequence : UInt16
  deriving DecidableEq

namespace CompactPacketHeader

def new (channel : ChannelType) (packetType : PacketType) (sequence : UInt16) :
    CompactPacketHeader where
  version := protocolVersion
  channel := channel
  packetType := packetType
  sequence := sequence

variable (header : CompactPacketHeader)

def encoded : List UInt8 :=
  protocolMagic ++ [(header.version &&& (0xFF : UInt16)).toUInt8,
      (header.channel.asU8 &&& (0x07 : UInt8)) ||| (header.packetType.asNibble <<< (4 : UInt8)) |||
        flagCompactHeader] ++
    bigEndian 2 header.sequence.toNat

def writeTo (self : CompactPacketHeader) (out : List UInt8) : Except NetError (List UInt8 × Nat) :=
  writeHeader self.encoded out

def readFrom (slice : List UInt8) : Except NetError (CompactPacketHeader × Nat) :=
  if slice.length < compactHeaderSize then
    .error (.truncatedPacket compactHeaderSize slice.length)
  else if slice.take 2 ≠ protocolMagic then
    .error (.invalidMagic protocolMagic (slice.take 2))
  else
    let version := (slice.getD 2 0).toUInt16
    if version ≠ protocolVersion then
      .error (.unsupportedVersion protocolVersion version)
    else do
      let kind := slice.getD 3 0
      let channel ← ChannelType.fromU8 (kind &&& (0x07 : UInt8))
      let packetType ← PacketType.fromNibble ((kind >>> (4 : UInt8)) &&& (0x0F : UInt8))
      return ({ version := version
                channel := channel
                packetType := packetType
                sequence := UInt16.ofNat (ofBigEndian ((slice.drop 4).take 2)) },
        compactHeaderSize)

theorem length_encoded : header.encoded.length = compactHeaderSize := by
  simp [encoded, protocolMagic, compactHeaderSize]

end CompactPacketHeader

inductive HeaderKind where
  | standard (header : PacketHeader)
  | compact (header : CompactPacketHeader)
  deriving DecidableEq

namespace HeaderKind

def readFrom (slice : List UInt8) : Except NetError (HeaderKind × Nat) :=
  if slice.length < compactHeaderSize then
    .error (.truncatedPacket compactHeaderSize slice.length)
  else
    let flags := slice.getD 3 0
    if flags &&& flagCompactHeader ≠ 0 then do
      let (header, len) ← CompactPacketHeader.readFrom slice
      return (compact header, len)
    else do
      let (header, len) ← PacketHeader.readFrom slice
      return (standard header, len)

def writeTo : HeaderKind → List UInt8 → Except NetError (List UInt8 × Nat)
  | standard header => header.writeTo
  | compact header => header.writeTo

def encoded : HeaderKind → List UInt8
  | standard header => header.encoded
  | compact header => header.encoded

def version : HeaderKind → UInt16
  | standard header => header.version
  | compact header => header.version

end HeaderKind

variable {channel : ChannelType}

theorem asU8_of_fromU8 {val : UInt8} (parsed : ChannelType.fromU8 val = .ok channel) :
    channel.asU8 = val := by
  rw [ChannelType.fromU8] at parsed
  split at parsed
  · obtain rfl := Except.ok.inj parsed
    exact Eq.symm ‹_›
  split at parsed
  · obtain rfl := Except.ok.inj parsed
    exact Eq.symm ‹_›
  cases parsed

variable {packetType : PacketType}

theorem asNibble_of_fromNibble {val : UInt8} (parsed : PacketType.fromNibble val = .ok packetType) :
    packetType.asNibble = val &&& (0x0F : UInt8) := by
  simp only [PacketType.fromNibble] at parsed
  split at parsed
  · obtain rfl := Except.ok.inj parsed
    exact Eq.symm ‹_›
  split at parsed
  · obtain rfl := Except.ok.inj parsed
    exact Eq.symm ‹_›
  split at parsed
  · obtain rfl := Except.ok.inj parsed
    exact Eq.symm ‹_›
  split at parsed
  · obtain rfl := Except.ok.inj parsed
    exact Eq.symm ‹_›
  split at parsed
  · obtain rfl := Except.ok.inj parsed
    exact Eq.symm ‹_›
  cases parsed

theorem packed_eq {kind : UInt8}
    (channelRead : ChannelType.fromU8 (kind &&& (0x07 : UInt8)) = .ok channel)
    (typeRead : PacketType.fromNibble ((kind >>> (4 : UInt8)) &&& (0x0F : UInt8)) =
      .ok packetType) :
    (channel.asU8 &&& (0x07 : UInt8)) ||| (packetType.asNibble <<< (4 : UInt8)) =
      kind &&& (0xF7 : UInt8) := by
  rw [asU8_of_fromU8 channelRead, asNibble_of_fromNibble typeRead]
  apply eq_of_bits8
  intro place inside
  interval_cases place
  all_goals simp

@[elab_as_elim]
theorem forall_byte {holds : UInt8 → Prop} (all : ∀ value < 256, holds (UInt8.ofNat value))
    (byte : UInt8) : holds byte := by
  rw [← @UInt8.ofNat_toNat byte]
  exact all byte.toNat byte.toNat_lt

variable (kind : UInt8)

theorem cleared_eq_iff : kind &&& (0xF7 : UInt8) = kind ↔ kind &&& flagCompactHeader = 0 := by
  refine forall_byte ?_ kind
  decide +kernel

theorem set_eq_iff :
    (kind &&& (0xF7 : UInt8)) ||| flagCompactHeader = kind ↔ kind &&& flagCompactHeader ≠ 0 := by
  refine forall_byte ?_ kind
  decide +kernel

theorem nibble_and : (kind >>> (4 : UInt8)) &&& (0x0F : UInt8) = kind >>> (4 : UInt8) := by
  refine forall_byte ?_ kind
  decide +kernel

/-- The bytes that both headers begin with, whatever the format flag is. -/
structure Opens (slice : List UInt8) : Prop where
  magic : slice.take 2 = protocolMagic
  version : slice.getD 2 0 = 1
  channel : slice.getD 3 0 &&& (0x07 : UInt8) ≤ 1
  packetType : slice.getD 3 0 >>> (4 : UInt8) ≤ 4

theorem exists_fromU8_iff (val : UInt8) :
    (∃ channel, ChannelType.fromU8 val = .ok channel) ↔ val ≤ 1 := by
  constructor
  · rintro ⟨channel, parsed⟩
    rw [← asU8_of_fromU8 parsed]
    cases channel with
    | _ => decide
  intro atMost
  have bound : val.toNat ≤ 1 := UInt8.le_iff_toNat_le.mp atMost
  rw [← @UInt8.ofNat_toNat val]
  interval_cases val.toNat
  · exact ⟨_, rfl⟩
  exact ⟨_, rfl⟩

theorem exists_fromNibble_iff : (∃ packetType,
      PacketType.fromNibble ((kind >>> (4 : UInt8)) &&& (0x0F : UInt8)) = .ok packetType) ↔
      kind >>> (4 : UInt8) ≤ 4 := by
  constructor
  · rintro ⟨packetType, parsed⟩
    have same := asNibble_of_fromNibble parsed
    rw [nibble_and, nibble_and] at same
    rw [← same]
    cases packetType with
    | _ => decide
  intro atMost
  have bound : (kind >>> (4 : UInt8)).toNat ≤ 4 := UInt8.le_iff_toNat_le.mp atMost
  rw [← @UInt8.ofNat_toNat (kind >>> (4 : UInt8))]
  interval_cases (kind >>> (4 : UInt8)).toNat
  · exact ⟨_, rfl⟩
  · exact ⟨_, rfl⟩
  · exact ⟨_, rfl⟩
  · exact ⟨_, rfl⟩
  exact ⟨_, rfl⟩

variable {slice : List UInt8}

theorem Opens.take_eq (opens : Opens slice) (long : 4 ≤ slice.length) (count : Nat) :
    slice.take (4 + count) = protocolMagic ++ [1, slice.getD 3 0] ++ (slice.drop 4).take count := by
  obtain ⟨magic, version, -, -⟩ := opens
  match slice, long with
  | first :: second :: third :: fourth :: rest, _ =>
    rw [← magic, ← version, Nat.add_comm]
    rfl

theorem take_fields (slice : List UInt8) :
    (slice.drop 4).take 2 ++ (slice.drop 6).take 2 ++ (slice.drop 8).take 4 =
      (slice.drop 4).take 8 := by
  have six : slice.drop 6 = (slice.drop 4).drop 2 := by
    rw [drop_drop]
  have eight : slice.drop 8 = (slice.drop 4).drop 4 := by
    rw [drop_drop]
  rw [six, eight, ← take_add, ← take_add]

theorem bigEndian_field16 {bytes : List UInt8} (exact : bytes.length = 2) :
    bigEndian 2 (UInt16.ofNat (ofBigEndian bytes)).toNat = bytes := by
  have bound := ofBigEndian_lt exact
  rw [UInt16.toNat_ofNat_of_lt' bound, bigEndian_ofBigEndian exact]

theorem bigEndian_field32 {bytes : List UInt8} (exact : bytes.length = 4) :
    bigEndian 4 (UInt32.ofNat (ofBigEndian bytes)).toNat = bytes := by
  have bound := ofBigEndian_lt exact
  rw [UInt32.toNat_ofNat_of_lt' bound, bigEndian_ofBigEndian exact]

theorem version_eq {byte : UInt8} (current : byte.toUInt16 = protocolVersion) : byte = 1 := by
  have value := congrArg UInt16.toNat current
  exact UInt8.toNat_inj.mp value

/-- What both readers do with the first four bytes, for a header of `size` bytes. -/
def readOpening (size : Nat) (slice : List UInt8) :
    Except NetError (UInt16 × ChannelType × PacketType) :=
  if slice.length < size then
    .error (.truncatedPacket size slice.length)
  else if slice.take 2 ≠ protocolMagic then
    .error (.invalidMagic protocolMagic (slice.take 2))
  else
    let version := (slice.getD 2 0).toUInt16
    if version ≠ protocolVersion then
      .error (.unsupportedVersion protocolVersion version)
    else do
      let channel ← ChannelType.fromU8 (slice.getD 3 0 &&& (0x07 : UInt8))
      let packetType ← PacketType.fromNibble ((slice.getD 3 0 >>> (4 : UInt8)) &&& (0x0F : UInt8))
      return (version, channel, packetType)

theorem exists_readOpening (opens : Opens slice) {size : Nat} (long : size ≤ slice.length) :
    ∃ opening, readOpening size slice = .ok opening := by
  obtain ⟨channel, channelRead⟩ := (exists_fromU8_iff _).mpr opens.channel
  obtain ⟨packetType, typeRead⟩ := (exists_fromNibble_iff _).mpr opens.packetType
  have current : ¬ (slice.getD 2 0).toUInt16 ≠ protocolVersion := by
    rw [opens.version]
    decide
  rw [readOpening, if_neg (Nat.not_lt.mpr long), if_neg (not_not.mpr opens.magic)]
  rw [if_neg current, channelRead, typeRead]
  exact ⟨_, rfl⟩

theorem of_readOpening {size : Nat} {version : UInt16}
    (accepted : readOpening size slice = .ok (version, channel, packetType)) :
    size ≤ slice.length ∧ Opens slice ∧ version = protocolVersion ∧
      (channel.asU8 &&& (0x07 : UInt8)) ||| (packetType.asNibble <<< (4 : UInt8)) =
        slice.getD 3 0 &&& (0xF7 : UInt8) := by
  rw [readOpening] at accepted
  by_cases short : slice.length < size
  · rw [if_pos short] at accepted
    cases accepted
  rw [if_neg short] at accepted
  by_cases otherMagic : slice.take 2 ≠ protocolMagic
  · rw [if_pos otherMagic] at accepted
    cases accepted
  rw [if_neg otherMagic] at accepted
  by_cases otherVersion : (slice.getD 2 0).toUInt16 ≠ protocolVersion
  · rw [if_pos otherVersion] at accepted
    cases accepted
  rw [if_neg otherVersion] at accepted
  rw [not_not] at otherMagic otherVersion
  cases channelRead : ChannelType.fromU8 (slice.getD 3 0 &&& (0x07 : UInt8)) with
  | error error =>
    rw [channelRead] at accepted
    cases accepted
  | ok parsedChannel =>
    cases typeRead : PacketType.fromNibble
        ((slice.getD 3 0 >>> (4 : UInt8)) &&& (0x0F : UInt8)) with
    | error error =>
      rw [channelRead, typeRead] at accepted
      cases accepted
    | ok parsedType =>
      rw [channelRead, typeRead] at accepted
      obtain ⟨sameVersion, rest⟩ := Prod.mk.inj (Except.ok.inj accepted)
      obtain ⟨rfl, rfl⟩ := Prod.mk.inj rest
      exact ⟨Nat.not_lt.mp short,
        { magic := otherMagic
          version := version_eq otherVersion
          channel := (exists_fromU8_iff _).mp ⟨_, channelRead⟩
          packetType := (exists_fromNibble_iff _).mp ⟨_, typeRead⟩ },
        sameVersion.symm.trans otherVersion, packed_eq channelRead typeRead⟩

namespace PacketHeader

def ofOpening (slice : List UInt8) (opening : UInt16 × ChannelType × PacketType) :
    PacketHeader × Nat :=
  ({ version := opening.1
     channel := opening.2.1
     packetType := opening.2.2
     sequence := UInt16.ofNat (ofBigEndian ((slice.drop 4).take 2))
     ack := UInt16.ofNat (ofBigEndian ((slice.drop 6).take 2))
     ackBitfield := UInt32.ofNat (ofBigEndian ((slice.drop 8).take 4)) }, headerSize)

theorem readFrom_eq (slice : List UInt8) :
    readFrom slice = (readOpening headerSize slice).map (ofOpening slice) := by
  rw [readFrom, readOpening]
  split
  · rfl
  split
  · rfl
  dsimp only
  split
  · rfl
  rcases ChannelType.fromU8 (slice.getD 3 0 &&& (0x07 : UInt8)) with error | channel
  · rfl
  cases PacketType.fromNibble ((slice.getD 3 0 >>> (4 : UInt8)) &&& (0x0F : UInt8)) with
  | _ => rfl

theorem of_readFrom {slice : List UInt8} {header : PacketHeader} {len : Nat}
    (accepted : readFrom slice = .ok (header, len)) :
    headerSize ≤ slice.length ∧ Opens slice ∧ len = headerSize ∧ header.encoded =
        protocolMagic ++ [1, slice.getD 3 0 &&& (0xF7 : UInt8)] ++ (slice.drop 4).take 8 := by
  rw [readFrom_eq] at accepted
  rcases opened : readOpening headerSize slice with error | opening
  · rw [opened] at accepted
    cases accepted
  rw [opened] at accepted
  obtain ⟨rfl, rfl⟩ := Prod.mk.inj (Except.ok.inj accepted)
  obtain ⟨long, opens, current, packed⟩ := of_readOpening opened
  refine ⟨long, opens, rfl, ?_⟩
  rw [headerSize] at long
  rw [encoded]
  dsimp only
  rw [packed, current, ← take_fields, bigEndian_field16 (by rw [length_take, length_drop]; omega),
    bigEndian_field16 (by rw [length_take, length_drop]; omega),
    bigEndian_field32 (by rw [length_take, length_drop]; omega)]
  rfl

theorem exists_readFrom {slice : List UInt8} (opens : Opens slice)
    (long : headerSize ≤ slice.length) : ∃ header, readFrom slice = .ok (header, headerSize) := by
  obtain ⟨opening, opened⟩ := exists_readOpening opens long
  rw [readFrom_eq, opened]
  exact ⟨_, rfl⟩

end PacketHeader

namespace CompactPacketHeader

def ofOpening (slice : List UInt8) (opening : UInt16 × ChannelType × PacketType) :
    CompactPacketHeader × Nat :=
  ({ version := opening.1
     channel := opening.2.1
     packetType := opening.2.2
     sequence := UInt16.ofNat (ofBigEndian ((slice.drop 4).take 2)) }, compactHeaderSize)

theorem readFrom_eq (slice : List UInt8) :
    readFrom slice = (readOpening compactHeaderSize slice).map (ofOpening slice) := by
  rw [readFrom, readOpening]
  split
  · rfl
  split
  · rfl
  dsimp only
  split
  · rfl
  rcases ChannelType.fromU8 (slice.getD 3 0 &&& (0x07 : UInt8)) with error | channel
  · rfl
  cases PacketType.fromNibble ((slice.getD 3 0 >>> (4 : UInt8)) &&& (0x0F : UInt8)) with
  | _ => rfl

theorem of_readFrom {slice : List UInt8} {header : CompactPacketHeader} {len : Nat}
    (accepted : readFrom slice = .ok (header, len)) :
    compactHeaderSize ≤ slice.length ∧ Opens slice ∧ len = compactHeaderSize ∧ header.encoded =
        protocolMagic ++ [1, (slice.getD 3 0 &&& (0xF7 : UInt8)) ||| flagCompactHeader] ++
          (slice.drop 4).take 2 := by
  rw [readFrom_eq] at accepted
  rcases opened : readOpening compactHeaderSize slice with error | opening
  · rw [opened] at accepted
    cases accepted
  rw [opened] at accepted
  obtain ⟨rfl, rfl⟩ := Prod.mk.inj (Except.ok.inj accepted)
  obtain ⟨long, opens, current, packed⟩ := of_readOpening opened
  refine ⟨long, opens, rfl, ?_⟩
  rw [compactHeaderSize] at long
  rw [encoded]
  dsimp only
  rw [packed, current, bigEndian_field16 (by rw [length_take, length_drop]; omega)]
  rfl

theorem exists_readFrom {slice : List UInt8} (opens : Opens slice)
    (long : compactHeaderSize ≤ slice.length) :
    ∃ header, readFrom slice = .ok (header, compactHeaderSize) := by
  obtain ⟨opening, opened⟩ := exists_readOpening opens long
  rw [readFrom_eq, opened]
  exact ⟨_, rfl⟩

end CompactPacketHeader

/-- A writer puts the first `len` bytes of `slice` at the front of every buffer with room. -/
def WritesBack (writeTo : List UInt8 → Except NetError (List UInt8 × Nat)) (slice : List UInt8)
    (len : Nat) : Prop :=
  ∀ out : List UInt8, len ≤ out.length → writeTo out = .ok (slice.take len ++ out.drop len, len)

variable {len : Nat}

theorem writesBack_writeHeader_iff {encoded : List UInt8} (sized : encoded.length = len)
    (long : len ≤ slice.length) :
    WritesBack (writeHeader encoded) slice len ↔ encoded = slice.take len := by
  subst sized
  constructor
  · intro writes
    have written := writes slice long
    rw [writeHeader, if_neg (Nat.not_lt.mpr long)] at written
    have same := (Prod.mk.inj (Except.ok.inj written)).1
    exact append_cancel_right same
  intro same out room
  rw [writeHeader, if_neg (Nat.not_lt.mpr room), ← same]

theorem written_eq_take_iff (opens : Opens slice) {count : Nat} (long : 4 + count ≤ slice.length)
    (packed : UInt8) :
    protocolMagic ++ [1, packed] ++ (slice.drop 4).take count = slice.take (4 + count) ↔
      packed = slice.getD 3 0 := by
  rw [opens.take_eq (by omega) count]
  constructor
  · intro same
    have front := append_cancel_right same
    have tail := append_cancel_left front
    exact (List.cons.inj (List.cons.inj tail).2).1
  intro same
  rw [same]

theorem PacketHeader.writesBack_iff {header : PacketHeader}
    (accepted : readFrom slice = .ok (header, len)) :
    WritesBack header.writeTo slice len ↔ slice.getD 3 0 &&& flagCompactHeader = 0 := by
  obtain ⟨long, opens, rfl, encodedIs⟩ := of_readFrom accepted
  change WritesBack (writeHeader header.encoded) slice headerSize ↔ _
  rw [writesBack_writeHeader_iff header.length_encoded long, encodedIs, ← cleared_eq_iff]
  exact written_eq_take_iff opens long _

theorem CompactPacketHeader.writesBack_iff {header : CompactPacketHeader}
    (accepted : readFrom slice = .ok (header, len)) :
    WritesBack header.writeTo slice len ↔ slice.getD 3 0 &&& flagCompactHeader ≠ 0 := by
  obtain ⟨long, opens, rfl, encodedIs⟩ := of_readFrom accepted
  change WritesBack (writeHeader header.encoded) slice compactHeaderSize ↔ _
  rw [writesBack_writeHeader_iff header.length_encoded long, encodedIs, ← set_eq_iff]
  exact written_eq_take_iff opens long _

variable {kind : HeaderKind}

theorem HeaderKind.writesBack (accepted : readFrom slice = .ok (kind, len)) :
    WritesBack kind.writeTo slice len := by
  rw [readFrom] at accepted
  by_cases short : slice.length < compactHeaderSize
  · rw [if_pos short] at accepted
    cases accepted
  rw [if_neg short] at accepted
  by_cases flagged : slice.getD 3 0 &&& flagCompactHeader ≠ 0
  · rw [if_pos flagged] at accepted
    rcases parsed : CompactPacketHeader.readFrom slice with error | result
    · rw [parsed] at accepted
      cases accepted
    rw [parsed] at accepted
    obtain ⟨rfl, rfl⟩ := Prod.mk.inj (Except.ok.inj accepted)
    exact (CompactPacketHeader.writesBack_iff parsed).mpr flagged
  rw [if_neg flagged] at accepted
  rcases parsed : PacketHeader.readFrom slice with error | result
  · rw [parsed] at accepted
    cases accepted
  rw [parsed] at accepted
  obtain ⟨rfl, rfl⟩ := Prod.mk.inj (Except.ok.inj accepted)
  exact (PacketHeader.writesBack_iff parsed).mpr (not_not.mp flagged)

theorem compact_channel_of_kind (channel : ChannelType) (packetType : PacketType) :
    ChannelType.fromU8
      (((channel.asU8 &&& (0x07 : UInt8)) ||| (packetType.asNibble <<< (4 : UInt8)) |||
        flagCompactHeader) &&& (0x07 : UInt8)) = .ok channel := by
  cases channel <;> cases packetType <;> rfl

theorem compact_packetType_of_kind (channel : ChannelType) (packetType : PacketType) :
    PacketType.fromNibble
      ((((channel.asU8 &&& (0x07 : UInt8)) ||| (packetType.asNibble <<< (4 : UInt8)) |||
        flagCompactHeader) >>> (4 : UInt8)) &&& (0x0F : UInt8)) = .ok packetType := by
  cases channel <;> cases packetType <;> rfl

theorem compact_flagged (channel : ChannelType) (packetType : PacketType) :
    ((channel.asU8 &&& (0x07 : UInt8)) ||| (packetType.asNibble <<< (4 : UInt8)) |||
      flagCompactHeader) &&& flagCompactHeader ≠ 0 := by
  cases channel <;> cases packetType <;> decide

theorem standard_not_flagged (channel : ChannelType) (packetType : PacketType) :
    ((channel.asU8 &&& (0x07 : UInt8)) ||| (packetType.asNibble <<< (4 : UInt8))) &&&
      flagCompactHeader = 0 := by
  cases channel <;> cases packetType <;> decide

theorem PacketHeader.getD_encoded (header : PacketHeader) (payload : List UInt8) :
    (header.encoded ++ payload).getD 3 0 = (header.channel.asU8 &&& (0x07 : UInt8)) |||
        (header.packetType.asNibble <<< (4 : UInt8)) := by
  rfl

theorem CompactPacketHeader.readFrom_encoded {header : CompactPacketHeader}
    (current : header.version = protocolVersion) (payload : List UInt8) :
    readFrom (header.encoded ++ payload) = .ok (header, compactHeaderSize) := by
  obtain ⟨version, channel, packetType, sequence⟩ := header
  subst current
  have sequenceRead : ofBigEndian (bigEndian 2 sequence.toNat) = sequence.toNat :=
    ofBigEndian_bigEndian sequence.toNat_lt
  have front : (bigEndian 2 sequence.toNat ++ payload).take 2 = bigEndian 2 sequence.toNat :=
    take_left' (length_bigEndian 2 _)
  have laidOut : encoded ⟨protocolVersion, channel, packetType, sequence⟩ ++ payload =
      0x45 :: 0x49 :: 1 :: ((channel.asU8 &&& (0x07 : UInt8)) |||
        (packetType.asNibble <<< (4 : UInt8)) ||| flagCompactHeader) ::
        (bigEndian 2 sequence.toNat ++ payload) := by
    simp only [encoded, protocolMagic, cons_append, nil_append]
    rfl
  rw [readFrom, laidOut]
  simp only [getD_cons_succ, getD_cons_zero, drop_succ_cons, drop_zero,
    compact_channel_of_kind, compact_packetType_of_kind, front, sequenceRead,
    UInt16.ofNat_toNat]
  rfl

theorem HeaderKind.readFrom_encoded (current : kind.version = protocolVersion)
    (payload : List UInt8) :
    readFrom (kind.encoded ++ payload) = .ok (kind, kind.encoded.length) := by
  cases kind with
  | standard header =>
    have notFlagged : ¬ (header.encoded ++ payload).getD 3 0 &&& flagCompactHeader ≠ 0 := by
      rw [header.getD_encoded, standard_not_flagged]
      decide
    rw [encoded, readFrom]
    rw [if_neg notFlagged, PacketHeader.readFrom_encoded current]
    rfl
  | compact header =>
    have flagged : (header.encoded ++ payload).getD 3 0 &&& flagCompactHeader ≠ 0 :=
      compact_flagged _ _
    rw [encoded, readFrom]
    rw [if_pos flagged, CompactPacketHeader.readFrom_encoded current]
    rfl

theorem HeaderKind.of_writeTo {out written : List UInt8}
    (wrote : kind.writeTo out = .ok (written, len)) :
    written = kind.encoded ++ out.drop len ∧ len = kind.encoded.length := by
  have same : kind.writeTo out = writeHeader kind.encoded out := by
    cases kind with
    | _ => rfl
  rw [same, writeHeader] at wrote
  split at wrote
  · cases wrote
  obtain ⟨rfl, rfl⟩ := Prod.mk.inj (Except.ok.inj wrote)
  exact ⟨rfl, rfl⟩

/-- What is asked of the parsers on a slice: each reads only what its writer writes, at most
one of the two formats is accepted, and the reader of either kind reads every header back. -/
structure Canonical (slice : List UInt8) : Prop where
  standard : ∀ header len, PacketHeader.readFrom slice = .ok (header, len) →
    WritesBack header.writeTo slice len
  compact : ∀ header len, CompactPacketHeader.readFrom slice = .ok (header, len) →
    WritesBack header.writeTo slice len
  kind : ∀ header len, HeaderKind.readFrom slice = .ok (header, len) →
    WritesBack header.writeTo slice len
  oneFormat : ¬ ((∃ header, PacketHeader.readFrom slice = .ok header) ∧
    ∃ header, CompactPacketHeader.readFrom slice = .ok header)
  inverts : ∀ header : HeaderKind, header.version = protocolVersion →
    ∀ out written len, header.writeTo out = .ok (written, len) →
      HeaderKind.readFrom written = .ok (header, len)

theorem HeaderKind.inverts_writeTo (header : HeaderKind)
    (current : header.version = protocolVersion) (out written : List UInt8) (len : Nat)
    (wrote : header.writeTo out = .ok (written, len)) : readFrom written = .ok (header, len) := by
  obtain ⟨rfl, rfl⟩ := of_writeTo wrote
  exact readFrom_encoded current _

/-- The slice is too short for a header, or begins like none, or is too short for a standard
header and has the format flag. -/
def OneReading (slice : List UInt8) : Prop :=
  Opens slice → slice.length < compactHeaderSize ∨
    (slice.length < headerSize ∧ slice.getD 3 0 &&& flagCompactHeader ≠ 0)

/-- The readers of the two formats ignore the format flag: on their own they are canonical
exactly on the slices that only one of them can read, and read by its own flag. -/
theorem canonical_iff_oneReading (slice : List UInt8) : Canonical slice ↔ OneReading slice := by
  constructor
  · intro canonical opens
    by_cases short : slice.length < compactHeaderSize
    · exact Or.inl short
    obtain ⟨compactHeader, compactRead⟩ :=
      CompactPacketHeader.exists_readFrom opens (Nat.not_lt.mp short)
    refine Or.inr ⟨?_, ?_⟩
    · by_contra long
      obtain ⟨header, headerRead⟩ := PacketHeader.exists_readFrom opens (Nat.not_lt.mp long)
      exact canonical.oneFormat ⟨⟨_, headerRead⟩, ⟨_, compactRead⟩⟩
    exact (CompactPacketHeader.writesBack_iff compactRead).mp (canonical.compact _ _ compactRead)
  intro oneReading
  have tooShort : ∀ header len, PacketHeader.readFrom slice ≠ .ok (header, len) := by
    intro header len accepted
    obtain ⟨long, opens, -, -⟩ := PacketHeader.of_readFrom accepted
    rw [headerSize] at long
    rcases oneReading opens with short | ⟨short, -⟩
    · rw [compactHeaderSize] at short
      omega
    rw [headerSize] at short
    omega
  refine ⟨fun header len accepted => absurd accepted (tooShort header len), ?_,
    fun _ _ accepted => HeaderKind.writesBack accepted, ?_, HeaderKind.inverts_writeTo⟩
  · intro header len accepted
    obtain ⟨long, opens, -, -⟩ := CompactPacketHeader.of_readFrom accepted
    rcases oneReading opens with short | ⟨-, flagged⟩
    · exact absurd long (Nat.not_le.mpr short)
    exact (CompactPacketHeader.writesBack_iff accepted).mpr flagged
  rintro ⟨⟨⟨header, len⟩, accepted⟩, -⟩
  exact tooShort header len accepted

def flaggedStandard : List UInt8 :=
  [0x45, 0x49, 1, 0x18, 0, 0, 0, 0, 0, 0, 0, 0]

theorem not_canonical_flaggedStandard : ¬ ∀ slice, Canonical slice := by
  intro all
  refine (all flaggedStandard).oneFormat ⟨⟨_, rfl⟩, ⟨_, rfl⟩⟩

end Eidolon.Net
