import Mathlib.Data.UInt
import Eidolon.Library.AnsCoder
import Eidolon.Library.MachineInt
import Eidolon.Net.Packet

/-!
# The rANS streaming codec

Symbol tables normalised to a total of 256, the encoder and the decoder with their
32-bit states, and the two-table kinematic stream.  Byte buffers are lists; a
function that writes to a buffer returns the extended buffer.
-/

namespace Eidolon.Net

open Library List

def ransLowerBound : UInt32 := 65536

def ransScaleBits : UInt32 := 8

def ransScaleSum : Nat := 256

/-- Frequencies, their prefix sums, and the symbol of each slot. -/
structure RansSymbolTable where
  freqs : List UInt16
  cumFreqs : List UInt16
  slotToSymbol : List UInt8
  freqs_length : freqs.length = 256
  cumFreqs_length : cumFreqs.length = 257
  slotToSymbol_length : slotToSymbol.length = ransScaleSum
  deriving DecidableEq

namespace RansSymbolTable

/-- The first proportional scaling of one raw count; the cast to `u16` truncates. -/
def scaledFrequency (totalRaw raw : UInt32) : UInt16 :=
  if 0 < raw then
    (max (raw.toUInt64 * UInt64.ofNat ransScaleSum / totalRaw.toUInt64) 1).toUInt16
  else
    0

def largestFrequency (floor : UInt16) : Nat → List UInt16 → Nat × UInt16 → Nat × UInt16
  | _, [], best => best
  | index, f :: freqs, best =>
    largestFrequency floor (index + 1) freqs (if best.2 < f ∧ floor < f then (index, f) else best)

/-- The first adjustment loop; each turn takes one from the excess over the total. -/
def decrementLargest : Nat → List UInt16 → List UInt16
  | 0, freqs => freqs
  | excess + 1, freqs =>
    let (maxIdx, maxVal) := largestFrequency 1 0 freqs (0, 0)
    if maxVal ≤ 1 then
      freqs
    else
      decrementLargest excess (freqs.modify maxIdx (· - 1))

/-- The second adjustment loop; each turn adds one of the missing units. -/
def incrementLargest : Nat → List UInt16 → List UInt16
  | 0, freqs => freqs
  | missing + 1, freqs =>
    let (maxIdx, _) := largestFrequency 0 0 freqs (0, 0)
    incrementLargest missing (freqs.modify maxIdx (· + 1))

variable (freqs : List UInt16)

def frequencySum : Nat :=
  (freqs.map UInt16.toNat).sum

/-- Both adjustment loops.  At most one of them runs: the first one ends at or above
the total. -/
def adjustToScale : List UInt16 :=
  let decremented := decrementLargest (frequencySum freqs - ransScaleSum) freqs
  incrementLargest (ransScaleSum - frequencySum freqs) decremented

def cumulativeFrequencies : UInt16 → List UInt16 → List UInt16
  | runningSum, [] => [runningSum]
  | runningSum, f :: freqs => runningSum :: cumulativeFrequencies (runningSum + f) freqs

def fillSlots (slots : List UInt8) (start stop : Nat) (symbol : UInt8) : List UInt8 :=
  slots.mapIdx fun slot old => if start ≤ slot ∧ slot < stop then symbol else old

def fillSymbols (cumFreqs : List UInt16) : Nat → List UInt16 → List UInt8 → List UInt8
  | _, [], slots => slots
  | symbol, f :: freqs, slots =>
    let start := min (cumFreqs.getD symbol 0).toNat ransScaleSum
    let stop := min (start + f.toNat) ransScaleSum
    fillSymbols cumFreqs (symbol + 1) freqs (fillSlots slots start stop (UInt8.ofNat symbol))

@[simp]
theorem length_decrementLargest (excess : Nat) (freqs : List UInt16) :
    (decrementLargest excess freqs).length = freqs.length := by
  induction excess generalizing freqs with
  | zero => rfl
  | succ excess ih =>
    simp only [decrementLargest]
    split
    · rfl
    rw [ih, length_modify]

@[simp]
theorem length_incrementLargest (missing : Nat) (freqs : List UInt16) :
    (incrementLargest missing freqs).length = freqs.length := by
  induction missing generalizing freqs with
  | zero => rfl
  | succ missing ih => simp only [incrementLargest, ih, length_modify]

@[simp]
theorem length_adjustToScale : (adjustToScale freqs).length = freqs.length := by
  simp [adjustToScale]

@[simp]
theorem length_cumulativeFrequencies (runningSum : UInt16) (freqs : List UInt16) :
    (cumulativeFrequencies runningSum freqs).length = freqs.length + 1 := by
  induction freqs generalizing runningSum with
  | nil => rfl
  | cons f freqs ih => simp [cumulativeFrequencies, ih]

@[simp]
theorem length_fillSymbols (cumFreqs : List UInt16) (symbol : Nat) (freqs : List UInt16)
    (slots : List UInt8) : (fillSymbols cumFreqs symbol freqs slots).length = slots.length := by
  induction freqs generalizing symbol slots with
  | nil => rfl
  | cons f freqs ih => simp [fillSymbols, ih, fillSlots]

/-- The tables over the adjusted frequencies of the first symbols; the entries of the
arrays past these stay zero. -/
def ofAdjusted (used : List UInt16) (short : used.length ≤ 256) : RansSymbolTable :=
  let freqs := used ++ List.replicate (256 - used.length) 0
  let cumFreqs := cumulativeFrequencies 0 freqs
  { freqs := freqs
    cumFreqs := cumFreqs
    slotToSymbol := fillSymbols cumFreqs 0 used (List.replicate ransScaleSum 0)
    freqs_length := by
      simp only [freqs, length_append, length_replicate]
      omega
    cumFreqs_length := by
      simp only [cumFreqs, freqs, length_cumulativeFrequencies, length_append, length_replicate]
      omega
    slotToSymbol_length := by simp }

/-- Normalises raw counts.  The sum of the counts wraps as in a release build. -/
def fromFrequencies (rawFreqs : List UInt32) : Except NetError RansSymbolTable :=
  if admissible : rawFreqs ≠ [] ∧ rawFreqs.length ≤ 256 then
    let totalRaw := rawFreqs.sum
    if totalRaw = 0 then
      .error .corruptedData
    else
      .ok (ofAdjusted (adjustToScale (rawFreqs.map (scaledFrequency totalRaw)))
        (by simpa using admissible.2))
  else
    .error .corruptedData

def freqOf (table : RansSymbolTable) (symbol : UInt8) : UInt16 :=
  table.freqs.getD symbol.toNat 0

def startOf (table : RansSymbolTable) (symbol : UInt8) : UInt16 :=
  table.cumFreqs.getD symbol.toNat 0

end RansSymbolTable

structure RansEncoder where
  state : UInt32
  deriving DecidableEq

namespace RansEncoder

def new : RansEncoder where
  state := ransLowerBound

/-- The renormalisation loop.  Four turns empty a `u32`, and `maxState` is positive. -/
def emitBytes (maxState : UInt32) : Nat → UInt32 → List UInt8 → UInt32 × List UInt8
  | 0, state, out => (state, out)
  | turns + 1, state, out =>
    if maxState ≤ state then
      emitBytes maxState turns (state >>> 8) (out ++ [(state &&& 0xFF).toUInt8])
    else
      (state, out)

def putSymbol (encoder : RansEncoder) (table : RansSymbolTable) (symbol : UInt8)
    (out : List UInt8) : RansEncoder × List UInt8 :=
  let freq := (table.freqOf symbol).toUInt32
  let start := (table.startOf symbol).toUInt32
  if freq = 0 then
    (encoder, out)
  else
    let maxState :=
      ransLowerBound / UInt32.ofNat ransScaleSum * freq * UInt32.ofNat ransScaleSum
    let (state, out) := emitBytes maxState 4 encoder.state out
    let q := state / freq
    let r := state % freq
    ({ state := (q <<< ransScaleBits) + r + start }, out)

def flush (encoder : RansEncoder) (out : List UInt8) : Nat × List UInt8 :=
  let flushed := out ++ littleEndian 4 encoder.state.toNat
  (flushed.length, flushed)

def encodeSymbolsForward (table : RansSymbolTable) (symbols : List UInt8)
    (out : List UInt8) : Nat × List UInt8 :=
  let (encoder, out) :=
    symbols.foldr (fun symbol (encoder, out) => putSymbol encoder table symbol out) (new, out)
  encoder.flush out

end RansEncoder

structure RansDecoder where
  state : UInt32
  stream : List UInt8
  cursor : Nat
  deriving DecidableEq

namespace RansDecoder

def new (data : List UInt8) : Except NetError RansDecoder :=
  if data.length < 4 then
    .error (.truncatedPacket 4 data.length)
  else
    let streamLen := data.length - 4
    .ok
      { state := UInt32.ofNat (ofLittleEndian (data.drop streamLen))
        stream := data.take streamLen
        cursor := streamLen }

/-- The renormalisation loop; it ends at the latest when the stream is used up. -/
def consumeBytes (stream : List UInt8) : Nat → UInt32 → UInt32 × Nat
  | 0, state => (state, 0)
  | cursor + 1, state =>
    if state < ransLowerBound then
      let byte := (stream.getD cursor 0).toUInt32
      consumeBytes stream cursor ((state <<< 8) ||| byte)
    else
      (state, cursor + 1)

def getSymbol (decoder : RansDecoder) (table : RansSymbolTable) : UInt8 × RansDecoder :=
  let slot := decoder.state &&& (UInt32.ofNat ransScaleSum - 1)
  let symbol := table.slotToSymbol.getD slot.toNat 0
  let freq := (table.freqOf symbol).toUInt32
  let start := (table.startOf symbol).toUInt32
  let offset := saturatingSub32 slot start
  let state := saturatingAdd32 (saturatingMul32 freq (decoder.state >>> ransScaleBits)) offset
  let (state, cursor) := consumeBytes decoder.stream decoder.cursor state
  (symbol, { decoder with state := state, cursor := cursor })

def decodeSymbols (table : RansSymbolTable) (data : List UInt8) (count : Nat) :
    Except NetError (List UInt8) := do
  let decoder ← new data
  return (Ans.readAll (fun decoder => getSymbol decoder table) count decoder).1

end RansDecoder

def putKinematicPair (tierTable headingTable : RansSymbolTable) (pair : UInt8 × UInt8)
    (encoded : RansEncoder × List UInt8) : RansEncoder × List UInt8 :=
  let (tier, heading) := pair
  let (encoder, out) := encoded.1.putSymbol headingTable heading encoded.2
  encoder.putSymbol tierTable tier out

/-- Encodes tiers and headings into one stream; `none` is the failed length assertion. -/
def compressKinematicStream (tierTable headingTable : RansSymbolTable)
    (tierSymbols headingSymbols : List UInt8) (out : List UInt8) :
    Option (Nat × List UInt8) :=
  if tierSymbols.length = headingSymbols.length then
    let (encoder, out) :=
      (tierSymbols.zip headingSymbols).foldr (putKinematicPair tierTable headingTable)
        (RansEncoder.new, out)
    some (encoder.flush out)
  else
    none

def getKinematicPair (tierTable headingTable : RansSymbolTable) (decoder : RansDecoder) :
    (UInt8 × UInt8) × RansDecoder :=
  let (tier, decoder) := decoder.getSymbol tierTable
  let (heading, decoder) := decoder.getSymbol headingTable
  ((tier, heading), decoder)

def decompressKinematicStream (tierTable headingTable : RansSymbolTable)
    (data : List UInt8) (count : Nat) : Except NetError (List UInt8 × List UInt8) := do
  let decoder ← RansDecoder.new data
  return (Ans.readAll (getKinematicPair tierTable headingTable) count decoder).1.unzip

end Eidolon.Net
