import Eidolon.Library.ByteOrder

/-!
# Errors of the network crate

The variants of `NetError` that the modelled functions return, and the errors of the
bitstream.
-/

namespace Eidolon.Net

open List

inductive NetError where
  | payloadTooLarge (length max : Nat)
  | truncatedPacket (expectedLen actualLen : Nat)
  | queueFull
  | corruptedData
  | connectionTimedOut
  | invalidMagic (expected received : List UInt8)
  | unsupportedVersion (expected received : UInt16)
  | invalidChannel (raw : UInt8)
  | replayDetected (sequence windowBottom : UInt64)
  | rateLimitExceeded (ppsLimit : UInt32)
  deriving DecidableEq

inductive BitstreamError where
  | bufferOverflow (requiredBits availableBits : Nat)
  | unexpectedEof (requestedBits remainingBits : Nat)
  | invalidVarint
  | invalidBitWidth (width : Nat)
  deriving DecidableEq

end Eidolon.Net

/-!
## Packet headers

The header that precedes the payload of every datagram, its encoding and its decoding
from untrusted bytes.
-/

namespace Eidolon.Net

open Library List

def protocolMagic : List UInt8 := [0x45, 0x49]

def protocolVersion : UInt16 := 1

def maxPacketSize : Nat := 1200

def headerSize : Nat := 12

inductive ChannelType where
  | unreliableSequenced
  | reliableOrdered
  deriving DecidableEq

namespace ChannelType

def fromU8 (val : UInt8) : Except NetError ChannelType :=
  if val = 0 then .ok unreliableSequenced
  else if val = 1 then .ok reliableOrdered
  else .error (.invalidChannel val)

def asU8 : ChannelType → UInt8
  | unreliableSequenced => 0
  | reliableOrdered => 1

end ChannelType

inductive PacketType where
  | heartbeat
  | stateUpdate
  | reliableMessage
  | ackOnly
  | disconnect
  deriving DecidableEq

namespace PacketType

def fromNibble (val : UInt8) : Except NetError PacketType :=
  let nibble := val &&& (0x0F : UInt8)
  if nibble = 0 then .ok heartbeat
  else if nibble = 1 then .ok stateUpdate
  else if nibble = 2 then .ok reliableMessage
  else if nibble = 3 then .ok ackOnly
  else if nibble = 4 then .ok disconnect
  else .error .corruptedData

def asNibble : PacketType → UInt8
  | heartbeat => 0
  | stateUpdate => 1
  | reliableMessage => 2
  | ackOnly => 3
  | disconnect => 4

end PacketType

structure PacketHeader where
  version : UInt16
  channel : ChannelType
  packetType : PacketType
  sequence : UInt16
  ack : UInt16
  ackBitfield : UInt32
  deriving DecidableEq

namespace PacketHeader

variable (channel : ChannelType) (packetType : PacketType)

def new (sequence ack : UInt16) (ackBitfield : UInt32) : PacketHeader where
  version := protocolVersion
  channel := channel
  packetType := packetType
  sequence := sequence
  ack := ack
  ackBitfield := ackBitfield

/-- The bytes that `write_to` puts at the front of the destination buffer. -/
def encoded (header : PacketHeader) : List UInt8 :=
  protocolMagic ++ [(header.version &&& (0xFF : UInt16)).toUInt8,
      (header.channel.asU8 &&& (0x07 : UInt8)) ||| (header.packetType.asNibble <<< (4 : UInt8))] ++
    bigEndian 2 header.sequence.toNat ++ bigEndian 2 header.ack.toNat ++
    bigEndian 4 header.ackBitfield.toNat

def readFrom (slice : List UInt8) : Except NetError (PacketHeader × Nat) :=
  if slice.length < headerSize then
    .error (.truncatedPacket headerSize slice.length)
  else if slice.take 2 ≠ protocolMagic then
    .error (.invalidMagic protocolMagic (slice.take 2))
  else
    let version := (slice.getD 2 0).toUInt16
    if version ≠ protocolVersion then
      .error (.unsupportedVersion protocolVersion version)
    else do
      let kind := slice.getD 3 0
      let channel ← ChannelType.fromU8 (kind &&& (0x07 : UInt8))
      let packetType ← PacketType.fromNibble ((kind >>> (4 : UInt8)) &&& (0x0F : UInt8))
      return ({ version := version
                channel := channel
                packetType := packetType
                sequence := UInt16.ofNat (ofBigEndian ((slice.drop 4).take 2))
                ack := UInt16.ofNat (ofBigEndian ((slice.drop 6).take 2))
                ackBitfield := UInt32.ofNat (ofBigEndian ((slice.drop 8).take 4)) },
        headerSize)

theorem length_encoded (header : PacketHeader) : header.encoded.length = headerSize := by
  simp [encoded, protocolMagic, headerSize]

private theorem channel_of_kind : ChannelType.fromU8
      (((channel.asU8 &&& (0x07 : UInt8)) ||| (packetType.asNibble <<< (4 : UInt8))) &&&
        (0x07 : UInt8)) = .ok channel := by
  cases channel <;> cases packetType <;> rfl

private theorem packetType_of_kind : PacketType.fromNibble
      ((((channel.asU8 &&& (0x07 : UInt8)) ||| (packetType.asNibble <<< (4 : UInt8))) >>>
        (4 : UInt8)) &&& (0x0F : UInt8)) = .ok packetType := by
  cases channel <;> cases packetType <;> rfl

private theorem take_bigEndian (width value : Nat) (rest : List UInt8) :
    (bigEndian width value ++ rest).take width = bigEndian width value :=
  take_left' (length_bigEndian width value)

theorem readFrom_encoded {header : PacketHeader} (current : header.version = protocolVersion)
    (payload : List UInt8) : readFrom (header.encoded ++ payload) = .ok (header, headerSize) := by
  obtain ⟨version, channel, packetType, sequence, ack, ackBitfield⟩ := header
  subst current
  have sequenceRead : ofBigEndian (bigEndian 2 sequence.toNat) = sequence.toNat :=
    ofBigEndian_bigEndian sequence.toNat_lt
  have ackRead : ofBigEndian (bigEndian 2 ack.toNat) = ack.toNat :=
    ofBigEndian_bigEndian ack.toNat_lt
  have bitfieldRead : ofBigEndian (bigEndian 4 ackBitfield.toNat) = ackBitfield.toNat :=
    ofBigEndian_bigEndian ackBitfield.toNat_lt
  let fields := bigEndian 2 sequence.toNat ++ (bigEndian 2 ack.toNat ++
    (bigEndian 4 ackBitfield.toNat ++ payload))
  have laidOut :
      PacketHeader.encoded ⟨protocolVersion, channel, packetType, sequence, ack, ackBitfield⟩ ++
        payload = 0x45 :: 0x49 :: 1 ::
          ((channel.asU8 &&& (0x07 : UInt8)) ||| (packetType.asNibble <<< (4 : UInt8))) ::
          fields := by
    simp only [encoded, protocolMagic, fields, append_assoc, cons_append, nil_append]
    rfl
  have afterSequence : fields.drop 2 = bigEndian 2 ack.toNat ++
      (bigEndian 4 ackBitfield.toNat ++ payload) :=
    drop_left' (length_bigEndian 2 _)
  have afterAck : fields.drop 4 = bigEndian 4 ackBitfield.toNat ++ payload := by
    rw [show 4 = 2 + 2 from rfl, ← drop_drop]
    exact drop_left' (length_bigEndian 2 _)
  rw [laidOut, readFrom]
  simp only [getD_cons_succ, getD_cons_zero, drop_succ_cons, drop_zero,
    channel_of_kind, packetType_of_kind, afterSequence, afterAck, take_bigEndian]
  rw [show fields.take 2 = bigEndian 2 sequence.toNat from
    take_bigEndian 2 _ _]
  simp only [sequenceRead, ackRead, bitfieldRead, UInt16.ofNat_toNat, UInt32.ofNat_toNat]
  rfl

end PacketHeader

end Eidolon.Net
