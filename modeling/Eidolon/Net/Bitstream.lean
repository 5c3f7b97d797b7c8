import Eidolon.Net.Packet

/-!
# Bitstream reader and writer

Bounded bit-level writing into and reading from a byte slice, with paths of their own
for byte-aligned words.  The source writes the word of each width out separately; here
they are one definition with the number of bytes as a parameter.
-/

namespace Eidolon.Net

open Library

def andThen {α β σ : Type} (result : Except BitstreamError α × σ)
    (next : α → σ → Except BitstreamError β × σ) : Except BitstreamError β × σ :=
  match result with
  | (.error error, state) => (.error error, state)
  | (.ok value, state) => next value state

def usizeMax : Nat := 2 ^ 64 - 1

def lowMask (take : Nat) : UInt8 :=
  (((1 : UInt16) <<< UInt16.ofNat take) - 1).toUInt8

/-- A bounded writer and its position in bits. -/
structure BitWriter where
  buffer : List UInt8
  bitOffset : Nat
  deriving DecidableEq

namespace BitWriter

def new (buffer : List UInt8) : BitWriter where
  buffer := List.replicate buffer.length 0
  bitOffset := 0

def fromExisting (buffer : List UInt8) (bitOffset : Nat) : BitWriter where
  buffer := buffer
  bitOffset := bitOffset

variable (writer : BitWriter)

def byteLen : Nat :=
  (writer.bitOffset + 7) / 8

def totalBits : Nat :=
  min (writer.buffer.length * 8) usizeMax

def remainingBits : Nat :=
  writer.totalBits - writer.bitOffset

def asBytes : List UInt8 :=
  if writer.byteLen ≤ writer.buffer.length then writer.buffer.take writer.byteLen else []

def writeBit (value : Bool) : Except BitstreamError Unit × BitWriter :=
  let byteIdx := writer.bitOffset / 8
  let bitIdx := writer.bitOffset % 8
  match writer.buffer[byteIdx]? with
  | some byte =>
    let mask := (1 : UInt8) <<< UInt8.ofNat (7 - bitIdx)
    (.ok (),
      { buffer := writer.buffer.set byteIdx (if value then byte ||| mask else byte &&& ~~~mask)
        bitOffset := writer.bitOffset + 1 })
  | none => (.error (.bufferOverflow 1 0), writer)

/-- Copies whole bytes to a byte boundary, if the writer is at one and they fit. -/
def putAligned (bytes : List UInt8) : Option BitWriter :=
  let start := writer.bitOffset / 8
  if writer.bitOffset % 8 = 0 ∧ start + bytes.length ≤ writer.buffer.length then
    some
      { buffer := writer.buffer.take start ++ bytes ++ writer.buffer.drop (start + bytes.length)
        bitOffset := writer.bitOffset + 8 * bytes.length }
  else
    none

variable (value : UInt64)

def alignedBytes (numBits : Nat) : Option (List UInt8) :=
  if numBits = 8 then
    some [value.toUInt8]
  else if numBits = 16 then
    some (bigEndian 2 value.toUInt16.toNat)
  else if numBits = 32 then
    some (bigEndian 4 value.toUInt32.toNat)
  else if numBits = 64 then
    some (bigEndian 8 value.toNat)
  else
    none

/-- The bit loop of `write_bits`.  Every turn writes at least one bit, so that `rem_bits`
turns are enough. -/
def writeChunks : Nat → UInt64 → Nat → BitWriter → BitWriter
  | 0, _, _, writer => writer
  | turns + 1, curVal, remBits, writer =>
    if remBits = 0 then
      writer
    else
      let byteIdx := writer.bitOffset / 8
      let bitIdx := writer.bitOffset % 8
      let avail := 8 - bitIdx
      let take := min remBits avail
      let shiftSrc := remBits - take
      let chunk := (curVal >>> UInt64.ofNat shiftSrc).toUInt8 &&& lowMask take
      let shiftDst := avail - take
      let mask := lowMask take <<< UInt8.ofNat shiftDst
      let buffer :=
        match writer.buffer[byteIdx]? with
        | some byte =>
          writer.buffer.set byteIdx ((byte &&& ~~~mask) ||| (chunk <<< UInt8.ofNat shiftDst))
        | none => writer.buffer
      writeChunks turns curVal (remBits - take)
        { buffer := buffer, bitOffset := writer.bitOffset + take }

def writeBits (numBits : Nat) : Except BitstreamError Unit × BitWriter :=
  if numBits = 0 then
    (.ok (), writer)
  else if 64 < numBits then
    (.error (.invalidBitWidth numBits), writer)
  else if writer.remainingBits < numBits then
    (.error (.bufferOverflow numBits writer.remainingBits), writer)
  else
    match (alignedBytes value numBits).bind writer.putAligned with
    | some after => (.ok (), after)
    | none =>
      let curVal :=
        if numBits = 64 then value
        else value &&& (((1 : UInt64) <<< UInt64.ofNat numBits) - 1)
      (.ok (), writeChunks numBits curVal numBits writer)

def writeWord (width : Nat) (value : UInt64) : Except BitstreamError Unit × BitWriter :=
  match writer.putAligned (bigEndian width value.toNat) with
  | some after => (.ok (), after)
  | none => writer.writeBits value (8 * width)

def writeU8 (value : UInt8) : Except BitstreamError Unit × BitWriter :=
  writer.writeWord 1 value.toUInt64

def writeU16 (value : UInt16) : Except BitstreamError Unit × BitWriter :=
  writer.writeWord 2 value.toUInt64

def writeU32 (value : UInt32) : Except BitstreamError Unit × BitWriter :=
  writer.writeWord 4 value.toUInt64

def writeU64 : Except BitstreamError Unit × BitWriter :=
  writer.writeWord 8 value

/-- The loop of `write_varint`, with the number of bytes written so far.  A 64-bit value
is used up after ten turns. -/
def writeVarintFrom : Nat → UInt64 → Nat → BitWriter → Except BitstreamError Nat × BitWriter
  | 0, _, bytesWritten, writer => (.ok bytesWritten, writer)
  | turns + 1, value, bytesWritten, writer =>
    let rest := value >>> 7
    let low := (value &&& 0x7F).toUInt8
    let byte := if rest ≠ 0 then low ||| 0x80 else low
    match writer.writeU8 byte with
    | (.error error, writer) => (.error error, writer)
    | (.ok (), writer) =>
      if rest = 0 then
        (.ok (bytesWritten + 1), writer)
      else
        writeVarintFrom turns rest (bytesWritten + 1) writer

def writeVarint : Except BitstreamError Nat × BitWriter :=
  writeVarintFrom 10 value 0 writer

def writeEachByte : List UInt8 → BitWriter → Except BitstreamError Unit × BitWriter
  | [], writer => (.ok (), writer)
  | byte :: bytes, writer =>
    match writer.writeU8 byte with
    | (.error error, writer) => (.error error, writer)
    | (.ok (), writer) => writeEachByte bytes writer

def writeBytes (bytes : List UInt8) : Except BitstreamError Unit × BitWriter :=
  let bitsNeeded := min (bytes.length * 8) usizeMax
  if writer.remainingBits < bitsNeeded then
    (.error (.bufferOverflow bitsNeeded writer.remainingBits), writer)
  else
    match writer.putAligned bytes with
    | some after => (.ok (), after)
    | none => writeEachByte bytes writer

end BitWriter

/-- A bounded reader and its position in bits. -/
structure BitReader where
  buffer : List UInt8
  bitOffset : Nat
  deriving DecidableEq

namespace BitReader

def new (buffer : List UInt8) : BitReader where
  buffer := buffer
  bitOffset := 0

variable (reader : BitReader)

def totalBits : Nat :=
  min (reader.buffer.length * 8) usizeMax

def remainingBits : Nat :=
  reader.totalBits - reader.bitOffset

def readBit : Except BitstreamError Bool × BitReader :=
  let byteIdx := reader.bitOffset / 8
  let bitIdx := reader.bitOffset % 8
  match reader.buffer[byteIdx]? with
  | some byte =>
    let mask := (1 : UInt8) <<< UInt8.ofNat (7 - bitIdx)
    (.ok (decide (byte &&& mask ≠ 0)), { reader with bitOffset := reader.bitOffset + 1 })
  | none => (.error (.unexpectedEof 1 0), reader)

/-- Whole bytes from a byte boundary, if the reader is at one and has them. -/
def getAligned (count : Nat) : Option (List UInt8 × BitReader) :=
  let start := reader.bitOffset / 8
  if reader.bitOffset % 8 = 0 ∧ start + count ≤ reader.buffer.length then
    some ((reader.buffer.drop start).take count,
      { reader with bitOffset := reader.bitOffset + 8 * count })
  else
    none

def alignedCount (numBits : Nat) : Option Nat :=
  if numBits = 8 then
    some 1
  else if numBits = 16 then
    some 2
  else if numBits = 32 then
    some 4
  else if numBits = 64 then
    some 8
  else
    none

def readChunks : Nat → UInt64 → Nat → BitReader → UInt64 × BitReader
  | 0, value, _, reader => (value, reader)
  | turns + 1, value, remBits, reader =>
    if remBits = 0 then
      (value, reader)
    else
      let byteIdx := reader.bitOffset / 8
      let bitIdx := reader.bitOffset % 8
      let avail := 8 - bitIdx
      let take := min remBits avail
      let shift := avail - take
      let mask := lowMask take <<< UInt8.ofNat shift
      let value :=
        match reader.buffer[byteIdx]? with
        | some byte =>
          let chunk := ((byte &&& mask) >>> UInt8.ofNat shift).toUInt64
          (value <<< UInt64.ofNat take) ||| chunk
        | none => value
      readChunks turns value (remBits - take) { reader with bitOffset := reader.bitOffset + take }

def readBits (numBits : Nat) : Except BitstreamError UInt64 × BitReader :=
  if numBits = 0 then
    (.ok 0, reader)
  else if 64 < numBits then
    (.error (.invalidBitWidth numBits), reader)
  else if reader.remainingBits < numBits then
    (.error (.unexpectedEof numBits reader.remainingBits), reader)
  else
    match (alignedCount numBits).bind reader.getAligned with
    | some (bytes, after) => (.ok (UInt64.ofNat (ofBigEndian bytes)), after)
    | none =>
      let (value, after) := readChunks numBits 0 numBits reader
      (.ok value, after)

def readWord (width : Nat) : Except BitstreamError UInt64 × BitReader :=
  match reader.getAligned width with
  | some (bytes, after) => (.ok (UInt64.ofNat (ofBigEndian bytes)), after)
  | none => reader.readBits (8 * width)

def readU8 : Except BitstreamError UInt8 × BitReader :=
  let (result, after) := reader.readWord 1
  (result.map UInt64.toUInt8, after)

def readU16 : Except BitstreamError UInt16 × BitReader :=
  let (result, after) := reader.readWord 2
  (result.map UInt64.toUInt16, after)

def readU32 : Except BitstreamError UInt32 × BitReader :=
  let (result, after) := reader.readWord 4
  (result.map UInt64.toUInt32, after)

def readU64 : Except BitstreamError UInt64 × BitReader :=
  reader.readWord 8

def readVarintFrom : Nat → Nat → UInt64 → BitReader → Except BitstreamError UInt64 × BitReader
  | 0, _, _, reader => (.error .invalidVarint, reader)
  | turns + 1, i, result, reader =>
    match reader.readU8 with
    | (.error error, reader) => (.error error, reader)
    | (.ok byte, reader) =>
      let val := (byte &&& 0x7F).toUInt64
      -- the tenth byte may hold one bit
      if i = 9 ∧ val &&& 0x7E ≠ 0 then
        (.error .invalidVarint, reader)
      else
        let result := result ||| (val <<< UInt64.ofNat (7 * i))
        if byte &&& 0x80 = 0 then
          (.ok result, reader)
        else
          readVarintFrom turns (i + 1) result reader

def readVarint : Except BitstreamError UInt64 × BitReader :=
  readVarintFrom 10 0 0 reader

def readEachByte : Nat → BitReader → Except BitstreamError (List UInt8) × BitReader
  | 0, reader => (.ok [], reader)
  | count + 1, reader =>
    match reader.readU8 with
    | (.error error, reader) => (.error error, reader)
    | (.ok byte, reader) =>
      let (result, reader) := readEachByte count reader
      (result.map (byte :: ·), reader)

def readBytes (count : Nat) : Except BitstreamError (List UInt8) × BitReader :=
  let bitsNeeded := min (count * 8) usizeMax
  if reader.remainingBits < bitsNeeded then
    (.error (.unexpectedEof bitsNeeded reader.remainingBits), reader)
  else
    match reader.getAligned count with
    | some (bytes, after) => (.ok bytes, after)
    | none => readEachByte count reader

end BitReader

end Eidolon.Net
