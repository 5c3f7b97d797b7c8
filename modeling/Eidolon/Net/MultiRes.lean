import Eidolon.Core.Delta
import Eidolon.Net.Bitstream

/-!
# Transforms in a bitstream

Updates of one transform against a baseline, and batches of transforms at the resolution
that the distance of each entity calls for.
-/

namespace Eidolon.Net

open Core

inductive MultiResTier where
  | tactical
  | midfield
  | horizon
  | stationary
  deriving DecidableEq

namespace MultiResTier

def tag : MultiResTier → UInt8
  | tactical => 0
  | midfield => 1
  | horizon => 2
  | stationary => 3

def fromTag (tag : UInt8) : MultiResTier :=
  match (tag &&& 0x03).toNat with
  | 0 => tactical
  | 1 => midfield
  | 2 => horizon
  | _ => stationary

end MultiResTier

inductive MultiResTransform where
  | tactical (coord : QuantizedCellCoord) (yaw : QuantizedYaw) (flags : UInt8)
  | midfield (coord : MidfieldQuantizedCoord) (yaw : QuantizedYaw6Bit) (flags : UInt8)
  | horizon (coord : HorizonQuantizedCoord) (heading : QuantizedYaw4Bit) (flags : UInt8)
  | stationary
  deriving DecidableEq

/-- The fields have values that their constructors can give, and only the flags that the
tier has room for. -/
def MultiResTransform.InRange : MultiResTransform → Prop
  | tactical coord _ flags => coord.isValid = true ∧ flags.toNat < 16
  | midfield coord yaw flags =>
    coord.x.toNat < 1024 ∧ coord.z.toNat < 1024 ∧ yaw.byte.toNat < 64 ∧ flags.toNat < 16
  | horizon coord heading flags =>
    coord.x.toNat < 64 ∧ coord.y.toNat < 32 ∧ coord.z.toNat < 64 ∧
      heading.byte.toNat < 16 ∧ flags.toNat < 8
  | stationary => True

structure MultiResBatchEntry where
  entityId : UInt32
  transform : MultiResTransform
  deriving DecidableEq

namespace BitWriter

def writeDeltaTransform (writer : BitWriter) :
    DeltaTransform → Except BitstreamError Unit × BitWriter
  | .stationary => writer.writeBits DeltaTier.stationary.tag.toUInt64 2
  | .small dx dz dy dyaw =>
    let uDx := (dx + 8).toInt64.toUInt64 &&& 0x0F
    let uDz := (dz + 8).toInt64.toUInt64 &&& 0x0F
    let uDy := (dy + 4).toInt64.toUInt64 &&& 0x07
    let uDyaw := (dyaw + 4).toInt64.toUInt64 &&& 0x07
    andThen (writer.writeBits DeltaTier.small.tag.toUInt64 2) fun _ writer =>
      andThen (writer.writeBits uDx 4) fun _ writer =>
        andThen (writer.writeBits uDz 4) fun _ writer =>
          andThen (writer.writeBits uDy 3) fun _ writer =>
            writer.writeBits uDyaw 3
  | .medium dx dz dy yaw =>
    let uDx := dx.toUInt8.toUInt64
    let uDz := dz.toUInt8.toUInt64
    let uDy := (dy + 32).toInt64.toUInt64 &&& 0x3F
    let uYaw := yaw.asByte.toUInt64
    andThen (writer.writeBits DeltaTier.medium.tag.toUInt64 2) fun _ writer =>
      andThen (writer.writeBits uDy 6) fun _ writer =>
        andThen (writer.writeBits uDx 8) fun _ writer =>
          andThen (writer.writeBits uDz 8) fun _ writer =>
            writer.writeBits uYaw 8
  | .full coord yaw flags =>
    andThen (writer.writeBits DeltaTier.full.tag.toUInt64 2) fun _ writer =>
      writer.writeBytes (coord.packWithYawAndFlags yaw flags)

def writeMultiresTransform (writer : BitWriter) :
    MultiResTransform → Except BitstreamError Unit × BitWriter
  | .stationary => writer.writeBits MultiResTier.stationary.tag.toUInt64 2
  | .tactical coord yaw flags =>
    andThen (writer.writeBits MultiResTier.tactical.tag.toUInt64 2) fun _ writer =>
      writer.writeBytes (coord.packWithYawAndFlags yaw flags)
  | .midfield coord yaw flags =>
    andThen (writer.writeBits MultiResTier.midfield.tag.toUInt64 2) fun _ writer =>
      writer.writeBytes (coord.pack yaw flags)
  | .horizon coord heading flags =>
    andThen (writer.writeBits MultiResTier.horizon.tag.toUInt64 2) fun _ writer =>
      writer.writeBytes (coord.pack heading flags)

def writeEntries : List MultiResBatchEntry → BitWriter → Except BitstreamError Unit × BitWriter
  | [], writer => (.ok (), writer)
  | entry :: entries, writer =>
    andThen (writer.writeVarint entry.entityId.toUInt64) fun _ writer =>
      andThen (writer.writeMultiresTransform entry.transform) fun _ writer =>
        writeEntries entries writer

def writeMultiresBatch (writer : BitWriter) (entries : List MultiResBatchEntry) :
    Except BitstreamError Unit × BitWriter :=
  andThen (writer.writeVarint (UInt64.ofNat entries.length)) fun _ writer =>
    writeEntries entries writer

end BitWriter

namespace BitReader

variable (reader : BitReader)

def readDeltaTransform : Except BitstreamError DeltaTransform × BitReader :=
  andThen (reader.readBits 2) fun tag reader =>
    match DeltaTier.fromTag tag.toUInt8 with
    | .stationary => (.ok .stationary, reader)
    | .small =>
      andThen (reader.readBits 4) fun uDx reader =>
        andThen (reader.readBits 4) fun uDz reader =>
          andThen (reader.readBits 3) fun uDy reader =>
            andThen (reader.readBits 3) fun uDyaw reader =>
              (.ok (.small (uDx.toUInt8.toInt8 - 8) (uDz.toUInt8.toInt8 - 8)
                (uDy.toUInt8.toInt8 - 4) (uDyaw.toUInt8.toInt8 - 4)), reader)
    | .medium =>
      andThen (reader.readBits 6) fun uDy reader =>
        andThen (reader.readBits 8) fun dx reader =>
          andThen (reader.readBits 8) fun dz reader =>
            andThen (reader.readBits 8) fun yaw reader =>
              (.ok (.medium dx.toUInt8.toInt8 dz.toUInt8.toInt8 (uDy.toUInt8.toInt8 - 32)
                (QuantizedYaw.fromByte yaw.toUInt8)), reader)
    | .full =>
      andThen (reader.readBytes 7) fun bytes reader =>
        let (coord, yaw, flags) := QuantizedCellCoord.unpackWithYawAndFlags bytes
        (.ok (.full coord yaw flags), reader)

def readMultiresTransform : Except BitstreamError MultiResTransform × BitReader :=
  andThen (reader.readBits 2) fun tag reader =>
    match MultiResTier.fromTag tag.toUInt8 with
    | .stationary => (.ok .stationary, reader)
    | .tactical =>
      andThen (reader.readBytes 7) fun bytes reader =>
        let (coord, yaw, flags) := QuantizedCellCoord.unpackWithYawAndFlags bytes
        (.ok (.tactical coord yaw flags), reader)
    | .midfield =>
      andThen (reader.readBytes 5) fun bytes reader =>
        let (coord, yaw, flags) := MidfieldQuantizedCoord.unpack bytes
        (.ok (.midfield coord yaw flags), reader)
    | .horizon =>
      andThen (reader.readBytes 3) fun bytes reader =>
        let (coord, heading, flags) := HorizonQuantizedCoord.unpack bytes
        (.ok (.horizon coord heading flags), reader)

def readEntry : Except BitstreamError MultiResBatchEntry × BitReader :=
  andThen reader.readVarint fun entityId reader =>
    andThen reader.readMultiresTransform fun transform reader =>
      (.ok { entityId := entityId.toUInt32, transform := transform }, reader)

def readEntries : Nat → BitReader → List MultiResBatchEntry →
    Except BitstreamError Unit × List MultiResBatchEntry × BitReader
  | 0, reader, out => (.ok (), out, reader)
  | count + 1, reader, out =>
    match reader.readEntry with
    | (.error error, reader) => (.error error, out, reader)
    | (.ok entry, reader) => readEntries count reader (out ++ [entry])

/-- Reads a batch into a vector, with the number of its entries.  The vector is cleared
once the number was read. -/
def readMultiresBatch (out : List MultiResBatchEntry) :
    Except BitstreamError Nat × List MultiResBatchEntry × BitReader :=
  match reader.readVarint with
  | (.error error, reader) => (.error error, out, reader)
  | (.ok count, reader) =>
    let (result, out, reader) := readEntries count.toNat reader []
    (result.map fun _ => count.toNat, out, reader)

end BitReader

end Eidolon.Net
