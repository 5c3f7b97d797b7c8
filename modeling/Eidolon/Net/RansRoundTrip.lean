import Eidolon.Net.RansTable

/-!
# Decoding inverts encoding

The encoder and the decoder with their byte buffers are seen as a number with a stack
of digits; on normalised tables each of their steps is the step of the abstract coder
at scale 256, radix 256 and lower bound 65536.  The round trip of the streams follows
from the abstract one.
-/

namespace Eidolon.Net

open Library List Nat UInt32

namespace RansSymbolTable

/-- The division of the 256 slots that a normalised table stands for. -/
def Normalized.slots {table : RansSymbolTable} (normalized : table.Normalized) :
    Ans.SlotTable ransScaleSum UInt8 where
  start symbol := (table.startOf symbol).toNat
  freq symbol := (table.freqOf symbol).toNat
  symbolAt slot := table.slotToSymbol.getD slot 0
  fits symbol _ := normalized.fits symbol
  symbolAt_eq := normalized.slotToSymbol_eq

end RansSymbolTable

abbrev StateInRange (state : Nat) : Prop :=
  Ans.InRange 256 256 ransScaleSum state

namespace RansEncoder

theorem new_inRange : StateInRange new.state.toNat := by
  constructor <;> decide

/-- The bytes emitted so far, the last one on top. -/
def view (encoder : RansEncoder) (out : List UInt8) : Ans.Stack where
  state := encoder.state.toNat
  digits := out.reverse.map UInt8.toNat

variable (state : UInt32)

theorem shiftedByte_toNat : (state >>> 8).toNat = state.toNat / 256 := by
  simp [shiftRight_eq_div_pow]

theorem lowByte_toNat : ((state &&& 0xFF).toUInt8).toNat = state.toNat % 256 := by
  have mask : (0xFF : UInt32).toNat = 2 ^ 8 - 1 := rfl
  rw [UInt32.toNat_toUInt8, UInt32.toNat_and, mask, and_two_pow_sub_one_eq_mod]
  exact mod_mod _ _

theorem view_emitBytes (segment : Ans.Segment ransScaleSum) {maxState state : UInt32}
    (bound : maxState.toNat = 256 * 256 * segment.freq) (out : List UInt8)
    (inRange : StateInRange state.toNat) :
    view { state := (emitBytes maxState 4 state out).1 } (emitBytes maxState 4 state out).2 =
      Ans.emit 256 256 segment (view { state := state } out) := by
  have occurs := segment.freq_pos
  have upper : state.toNat < 256 * 256 * 256 := inRange.2
  have below : ¬ maxState ≤ state >>> 8 := by
    rw [le_iff_toNat_le, shiftedByte_toNat]
    omega
  have sameTest : maxState ≤ state ↔ 256 * 256 * segment.freq ≤ state.toNat := by
    rw [le_iff_toNat_le, bound]
  by_cases large : maxState ≤ state
  · have abstractLarge := sameTest.1 large
    simp only [emitBytes, large, if_true, below, if_false, Ans.emit, view, abstractLarge,
      shiftedByte_toNat, lowByte_toNat, reverse_append, reverse_singleton,
      singleton_append, map_cons]
  have abstractSmall : ¬ 256 * 256 * segment.freq ≤ state.toNat :=
    fun abstractLarge => large (sameTest.2 abstractLarge)
  simp only [emitBytes, large, if_false, Ans.emit, view, abstractSmall]

def maxStateOf (freq : UInt32) : UInt32 :=
  ransLowerBound / UInt32.ofNat ransScaleSum * freq * UInt32.ofNat ransScaleSum

theorem maxStateOf_toNat (freq : UInt32) (small : freq.toNat ≤ 256) :
    (maxStateOf freq).toNat = 256 * 256 * freq.toNat := by
  have ratio : (ransLowerBound / UInt32.ofNat ransScaleSum).toNat = 256 := by decide
  have scale : (UInt32.ofNat ransScaleSum).toNat = 256 := by decide
  rw [maxStateOf, UInt32.toNat_mul, UInt32.toNat_mul, ratio, scale]
  omega

theorem shiftedByScale_toNat (small : state.toNat < 2 ^ 24) :
    (state <<< ransScaleBits).toNat = state.toNat * 256 := by
  have bits : ransScaleBits.toNat % 32 = 8 := by decide
  rw [UInt32.toNat_shiftLeft, bits]
  omega

theorem transition_toNat (freq start : UInt32) (occurs : 0 < freq.toNat)
    (fits : start.toNat + freq.toNat ≤ 256) (bounded : state.toNat < 256 * 256 * freq.toNat) :
    (((state / freq) <<< ransScaleBits) + state % freq + start).toNat =
      state.toNat / freq.toNat * 256 + state.toNat % freq.toNat + start.toNat := by
  have quotient : state.toNat / freq.toNat < 256 * 256 :=
    (div_lt_iff_lt_mul occurs).2 bounded
  have remainder := mod_lt state.toNat occurs
  have quotientValue : (state / freq).toNat = state.toNat / freq.toNat := UInt32.toNat_div ..
  have shifted := shiftedByScale_toNat (state / freq) (by omega)
  rw [UInt32.toNat_add, UInt32.toNat_add, UInt32.toNat_mod]
  omega

theorem view_putSymbol {table : RansSymbolTable} (normalized : table.Normalized) (symbol : UInt8)
    {encoder : RansEncoder} (out : List UInt8) (inRange : StateInRange encoder.state.toNat) :
    view (putSymbol encoder table symbol out).1 (putSymbol encoder table symbol out).2 =
      normalized.slots.push 256 256 symbol (view encoder out) := by
  have fits := normalized.fits symbol
  have freqValue : (table.freqOf symbol).toUInt32.toNat = (table.freqOf symbol).toNat :=
    UInt16.toNat_toUInt32 _
  by_cases occurs : 0 < normalized.slots.freq symbol
  · have freqPositive : 0 < (table.freqOf symbol).toNat := occurs
    have notZero : (table.freqOf symbol).toUInt32 ≠ 0 := by
      rw [ne_eq, ← UInt32.toNat_inj, UInt32.toNat_zero]
      omega
    have maxState := maxStateOf_toNat (table.freqOf symbol).toUInt32
      (by simp only [ransScaleSum] at fits; omega)
    have emitted := view_emitBytes (normalized.slots.segment symbol occurs) maxState out inRange
    have bounds := @Ans.emit_bounds 256 256 _ (normalized.slots.segment symbol occurs)
      (view encoder out) (le_refl 256) inRange
    rw [← emitted] at bounds
    have transition := transition_toNat
      (emitBytes (maxStateOf (table.freqOf symbol).toUInt32) 4 encoder.state out).1
      (table.freqOf symbol).toUInt32 (table.startOf symbol).toUInt32
      (by omega) (by exact fits) (by exact bounds.2)
    simp only [putSymbol, notZero, if_false, Ans.SlotTable.push, dif_pos occurs, Ans.push,
      ← emitted]
    rw [maxStateOf] at transition
    simp only [view, maxStateOf, transition]
    rfl
  have zero : (table.freqOf symbol).toUInt32 = 0 := by
    rw [← UInt32.toNat_inj, UInt32.toNat_zero]
    have notPositive : ¬ 0 < (table.freqOf symbol).toNat := occurs
    omega
  simp only [putSymbol, zero, if_true, Ans.SlotTable.push, dif_neg occurs]

theorem putSymbol_inRange {table : RansSymbolTable} (normalized : table.Normalized)
    (symbol : UInt8) {encoder : RansEncoder} (out : List UInt8)
    (inRange : StateInRange encoder.state.toNat) :
    StateInRange (putSymbol encoder table symbol out).1.state.toNat := by
  have coded := normalized.slots.push_inRange symbol (le_refl 256)
    (show StateInRange (view encoder out).state from inRange)
  rw [← view_putSymbol normalized symbol out inRange] at coded
  exact coded

end RansEncoder

namespace RansDecoder

/-- The bytes before the cursor, the next one on top. -/
def view (decoder : RansDecoder) : Ans.Stack where
  state := decoder.state.toNat
  digits := (decoder.stream.take decoder.cursor).reverse.map UInt8.toNat

variable {state : UInt32}

theorem shiftedIn_toNat (small : state.toNat < 2 ^ 24) (byte : UInt8) :
    ((state <<< 8) ||| byte.toUInt32).toNat = state.toNat * 256 + byte.toNat := by
  have byteSmall := byte.toNat_lt
  have bits : (8 : UInt32).toNat % 32 = 8 := by decide
  have fits : state.toNat <<< 8 < 2 ^ 32 := by
    omega
  rw [UInt32.toNat_or, UInt32.toNat_shiftLeft, bits, mod_eq_of_lt fits,
    UInt8.toNat_toUInt32, ← shiftLeft_add_eq_or_of_lt byteSmall, shiftLeft_eq]

theorem view_consumeBytes (stream : List UInt8) {cursor : Nat} (inside : cursor ≤ stream.length)
    (notTiny : 256 ≤ state.toNat) :
    view
        { state := (consumeBytes stream cursor state).1
          stream := stream
          cursor := (consumeBytes stream cursor state).2 } =
      Ans.refill 256 256 ransScaleSum
        (view { state := state, stream := stream, cursor := cursor }) := by
  have bound : ransLowerBound.toNat = 256 * ransScaleSum := by decide
  have sameTest : state < ransLowerBound ↔ state.toNat < 256 * ransScaleSum := by
    rw [lt_iff_toNat_lt, bound]
  cases cursor with
  | zero =>
    simp only [consumeBytes, Ans.refill, view, take_zero, reverse_nil, map_nil, ite_self]
  | succ cursor =>
    have byteFound := List.getElem?_eq_getElem (lt_of_succ_le inside)
    have byteRead : stream.getD cursor 0 = stream[cursor] := by
      rw [getD_eq_getElem?_getD, byteFound, Option.getD_some]
    by_cases small : state < ransLowerBound
    · have abstractSmall := sameTest.1 small
      have stateSmall : state.toNat < 2 ^ 24 := by
        simp only [ransScaleSum] at abstractSmall
        omega
      have readState := shiftedIn_toNat stateSmall stream[cursor]
      have readEnough : ¬ (state <<< 8) ||| stream[cursor].toUInt32 < ransLowerBound := by
        rw [lt_iff_toNat_lt, bound]
        simp only [ransScaleSum]
        omega
      have stopped : consumeBytes stream cursor ((state <<< 8) ||| stream[cursor].toUInt32) =
            ((state <<< 8) ||| stream[cursor].toUInt32, cursor) := by
        cases cursor with
        | zero => rfl
        | succ cursor => simp only [consumeBytes, readEnough, if_false]
      simp only [consumeBytes, small, if_true, byteRead, stopped, view, readState, Ans.refill,
        abstractSmall, take_add_one, byteFound, Option.toList_some, reverse_append,
        reverse_singleton, singleton_append, map_cons]
    have abstractLarge : ¬ state.toNat < 256 * ransScaleSum :=
      fun abstractSmall => small (sameTest.2 abstractSmall)
    simp only [consumeBytes, small, if_false, Ans.refill, view, abstractLarge]

theorem consumeBytes_cursor_le (stream : List UInt8) (cursor : Nat) (state : UInt32) :
    (consumeBytes stream cursor state).2 ≤ cursor := by
  induction cursor generalizing state with
  | zero => exact le_refl 0
  | succ cursor ih =>
    simp only [consumeBytes]
    split
    · exact le_succ_of_le (ih _)
    exact le_refl _

theorem slot_toNat (state : UInt32) :
    (state &&& (UInt32.ofNat ransScaleSum - 1)).toNat = state.toNat % ransScaleSum := by
  have mask : (UInt32.ofNat ransScaleSum - 1).toNat = 2 ^ 8 - 1 := by decide
  rw [UInt32.toNat_and, mask, and_two_pow_sub_one_eq_mod]
  rfl

variable {table : RansSymbolTable} (normalized : table.Normalized)

theorem release_toNat (inRange : StateInRange state.toNat) {symbol : UInt8}
    (occurs : 0 < normalized.slots.freq symbol) :
    (saturatingAdd32 (saturatingMul32 (table.freqOf symbol).toUInt32 (state >>> ransScaleBits))
      (saturatingSub32 (state &&& (UInt32.ofNat ransScaleSum - 1))
        (table.startOf symbol).toUInt32)).toNat =
      (normalized.slots.segment symbol occurs).release state.toNat := by
  have fits := normalized.fits symbol
  have upper : state.toNat < 256 * 256 * 256 := inRange.2
  have quotient : (state >>> ransScaleBits).toNat = state.toNat / 256 :=
    RansEncoder.shiftedByte_toNat state
  have product : (table.freqOf symbol).toNat * (state.toNat / 256) ≤ 256 * (256 * 256) := by
    apply Nat.mul_le_mul
    · simp only [ransScaleSum] at fits
      omega
    omega
  rw [toNat_saturatingAdd32, toNat_saturatingMul32, toNat_saturatingSub32, slot_toNat, quotient,
    UInt16.toNat_toUInt32, UInt16.toNat_toUInt32]
  simp only [Ans.Segment.release, Ans.SlotTable.segment, RansSymbolTable.Normalized.slots,
    ransScaleSum] at *
  omega

theorem view_getSymbol {decoder : RansDecoder} (inside : decoder.cursor ≤ decoder.stream.length)
    (inRange : StateInRange decoder.state.toNat)
    (occurs : 0 < normalized.slots.freq
      (normalized.slots.symbolAt (decoder.view.state % ransScaleSum))) :
    ((getSymbol decoder table).1, (getSymbol decoder table).2.view) =
      normalized.slots.pop 256 256 decoder.view := by
  have released := release_toNat normalized inRange occurs
  have notTiny := (normalized.slots.segment _ occurs).le_release inRange.1
  rw [← released] at notTiny
  have consumed := view_consumeBytes decoder.stream inside notTiny
  have abstractRefill := consumed.trans (congrArg (fun state =>
    Ans.refill 256 256 ransScaleSum { decoder.view with state := state }) released)
  simp only [Ans.SlotTable.pop, dif_pos occurs, Ans.pop, getSymbol, slot_toNat]
  exact Prod.ext rfl abstractRefill

def Shows (decoder : RansDecoder) (stack : Ans.Stack) : Prop :=
  decoder.cursor ≤ decoder.stream.length ∧ decoder.view = stack

theorem getSymbol_undoes {symbol : UInt8} (occurs : 0 < table.freqOf symbol) {stack : Ans.Stack}
    (inRange : StateInRange stack.state) {decoder : RansDecoder}
    (shows : Shows decoder (normalized.slots.push 256 256 symbol stack)) :
    (getSymbol decoder table).1 = symbol ∧ Shows (getSymbol decoder table).2 stack := by
  obtain ⟨inside, sameView⟩ := shows
  have coded : 0 < normalized.slots.freq symbol :=
    occurs
  have popped := normalized.slots.pop_push (le_refl 256) coded inRange
  have decoderInRange : StateInRange decoder.state.toNat := by
    have pushed := normalized.slots.push_inRange symbol (le_refl 256) inRange
    rw [← sameView] at pushed
    exact pushed
  rw [← sameView] at popped
  have found : normalized.slots.symbolAt (decoder.view.state % ransScaleSum) = symbol :=
    congrArg Prod.fst popped
  have decoded := view_getSymbol normalized inside decoderInRange (found.symm ▸ coded)
  rw [popped] at decoded
  refine ⟨congrArg Prod.fst decoded, ?_, congrArg Prod.snd decoded⟩
  exact le_trans (consumeBytes_cursor_le _ _ _) inside

theorem new_flush (encoder : RansEncoder) (out : List UInt8) :
    ∃ decoder, new (encoder.flush out).2 = .ok decoder ∧ Shows decoder (encoder.view out) := by
  have long : ¬ (out ++ littleEndian 4 encoder.state.toNat).length < 4 := by
    simp
  have streamLen : (out ++ littleEndian 4 encoder.state.toNat).length - 4 = out.length := by
    simp
  simp only [RansEncoder.flush, new, long, if_false, streamLen, drop_left, take_left]
  have stateBytes : ofLittleEndian (littleEndian 4 encoder.state.toNat) = encoder.state.toNat :=
    ofLittleEndian_littleEndian encoder.state.toNat_lt
  refine ⟨_, rfl, le_refl _, ?_⟩
  simp only [view, RansEncoder.view, stateBytes, UInt32.ofNat_toNat, take_length]

end RansDecoder

private theorem view_foldr {Symbol : Type}
    (put : Symbol → RansEncoder × List UInt8 → RansEncoder × List UInt8)
    (write : Symbol → Ans.Stack → Ans.Stack)
    (refines : ∀ symbol encoder out, StateInRange encoder.state.toNat →
      StateInRange (put symbol (encoder, out)).1.state.toNat ∧
        (put symbol (encoder, out)).1.view (put symbol (encoder, out)).2 =
          write symbol (encoder.view out))
    (symbols : List Symbol) (out : List UInt8) :
    StateInRange (symbols.foldr put (RansEncoder.new, out)).1.state.toNat ∧
      (symbols.foldr put (RansEncoder.new, out)).1.view
          (symbols.foldr put (RansEncoder.new, out)).2 =
        symbols.foldr write (RansEncoder.new.view out) := by
  induction symbols with
  | nil => exact ⟨RansEncoder.new_inRange, rfl⟩
  | cons symbol symbols ih =>
    obtain ⟨inRange, sameView⟩ := ih
    simp only [foldr_cons, ← sameView]
    exact refines symbol _ _ inRange

theorem decodeSymbols_encodeSymbolsForward {raw : List UInt32} {table : RansSymbolTable}
    (fits : (raw.map UInt32.toNat).sum < 2 ^ 32)
    (built : RansSymbolTable.fromFrequencies raw = .ok table) {symbols : List UInt8}
    (counted : ∀ symbol ∈ symbols, raw.getD symbol.toNat 0 ≠ 0) (out : List UInt8) :
    RansDecoder.decodeSymbols table (RansEncoder.encodeSymbolsForward table symbols out).2
      symbols.length = .ok symbols := by
  have normalized := RansSymbolTable.fromFrequencies_normalized fits built
  have encoded := view_foldr
    (fun symbol encoded => RansEncoder.putSymbol encoded.1 table symbol encoded.2)
    (normalized.slots.push 256 256)
    (fun symbol encoder out inRange =>
      ⟨RansEncoder.putSymbol_inRange normalized symbol out inRange,
        RansEncoder.view_putSymbol normalized symbol out inRange⟩)
    symbols out
  rw [RansEncoder.encodeSymbolsForward]
  generalize symbols.foldr
    (fun symbol (encoded : RansEncoder × List UInt8) =>
      RansEncoder.putSymbol encoded.1 table symbol encoded.2)
    (RansEncoder.new, out) = final at encoded ⊢
  obtain ⟨decoder, opened, shows⟩ := RansDecoder.new_flush final.1 final.2
  rw [encoded.2] at shows
  -- The counts only matter through the frequencies, which are positive for them.
  have allOccur : ∀ symbol ∈ symbols, 0 < table.freqOf symbol :=
    fun symbol member =>
      RansSymbolTable.fromFrequencies_freqOf_pos fits built (counted symbol member)
  have readBack := Ans.readAll_foldr (normalized.slots.push 256 256)
    (fun decoder => RansDecoder.getSymbol decoder table) RansDecoder.Shows
    (fun stack => StateInRange stack.state) (fun symbol => 0 < table.freqOf symbol)
    (fun symbol stack _ inRange => normalized.slots.push_inRange symbol (le_refl 256) inRange)
    (fun symbol stack decoder occurs inRange shown =>
      RansDecoder.getSymbol_undoes normalized occurs inRange shown)
    allOccur RansEncoder.new_inRange shows
  rw [RansDecoder.decodeSymbols, opened]
  exact congrArg Except.ok readBack

theorem decodeSymbols_encodeSymbolsForward_tiers : ∃ table,
      RansSymbolTable.fromFrequencies [600, 300, 80, 20] = .ok table ∧
        RansDecoder.decodeSymbols table
          (RansEncoder.encodeSymbolsForward table [0, 3, 1, 0] [17, 4]).2 4 =
            .ok [0, 3, 1, 0] := by
  obtain ⟨table, built⟩ :=
    @RansSymbolTable.exists_fromFrequencies [600, 300, 80, 20] (by decide) (by decide)
  exact ⟨table, built,
    @decodeSymbols_encodeSymbolsForward _ _ (by decide) built [0, 3, 1, 0] (by simp) [17, 4]⟩

section Kinematic

variable {tierTable headingTable : RansSymbolTable} (tiers : tierTable.Normalized)

variable (headings : headingTable.Normalized)

variable (pair : UInt8 × UInt8)

private def pushPair (stack : Ans.Stack) : Ans.Stack :=
  tiers.slots.push 256 256 pair.1 (headings.slots.push 256 256 pair.2 stack)

private theorem pushPair_inRange {stack : Ans.Stack} (inRange : StateInRange stack.state) :
    StateInRange (pushPair tiers headings pair stack).state :=
  tiers.slots.push_inRange _ (le_refl 256)
    (headings.slots.push_inRange _ (le_refl 256) inRange)

private theorem getKinematicPair_undoes {pair : UInt8 × UInt8}
    (tierOccurs : 0 < tierTable.freqOf pair.1) (headingOccurs : 0 < headingTable.freqOf pair.2)
    {stack : Ans.Stack} (inRange : StateInRange stack.state) {decoder : RansDecoder}
    (shows : decoder.Shows (pushPair tiers headings pair stack)) :
    (getKinematicPair tierTable headingTable decoder).1 = pair ∧
      (getKinematicPair tierTable headingTable decoder).2.Shows stack := by
  have afterHeading := headings.slots.push_inRange pair.2 (le_refl 256) inRange
  have tierRead := RansDecoder.getSymbol_undoes tiers tierOccurs afterHeading shows
  have headingRead := RansDecoder.getSymbol_undoes headings headingOccurs inRange tierRead.2
  exact ⟨Prod.ext tierRead.1 headingRead.1, headingRead.2⟩

private theorem putPair_refines (encoder : RansEncoder) (out : List UInt8)
    (inRange : StateInRange encoder.state.toNat) :
    StateInRange (putKinematicPair tierTable headingTable pair (encoder, out)).1.state.toNat ∧
      (putKinematicPair tierTable headingTable pair (encoder, out)).1.view
          (putKinematicPair tierTable headingTable pair (encoder, out)).2 =
        pushPair tiers headings pair (encoder.view out) := by
  have headingInRange := RansEncoder.putSymbol_inRange headings pair.2 out inRange
  have headingPut := RansEncoder.view_putSymbol headings pair.2 out inRange
  have tierInRange := RansEncoder.putSymbol_inRange tiers pair.1
    (RansEncoder.putSymbol encoder headingTable pair.2 out).2 headingInRange
  have tierPut := RansEncoder.view_putSymbol tiers pair.1
    (RansEncoder.putSymbol encoder headingTable pair.2 out).2 headingInRange
  exact ⟨tierInRange, tierPut.trans (congrArg (tiers.slots.push 256 256 pair.1) headingPut)⟩

theorem decompressKinematicStream_compressKinematicStream (tiers : tierTable.Normalized)
    (headings : headingTable.Normalized) {tierSymbols headingSymbols : List UInt8}
    (sameLength : tierSymbols.length = headingSymbols.length)
    (tiersOccur : ∀ tier ∈ tierSymbols, 0 < tierTable.freqOf tier)
    (headingsOccur : ∀ heading ∈ headingSymbols, 0 < headingTable.freqOf heading)
    (out : List UInt8) :
    ∃ size bytes, compressKinematicStream tierTable headingTable tierSymbols headingSymbols out =
          some (size, bytes) ∧
        decompressKinematicStream tierTable headingTable bytes tierSymbols.length =
          .ok (tierSymbols, headingSymbols) := by
  have encoded := view_foldr (putKinematicPair tierTable headingTable)
    (pushPair tiers headings) (putPair_refines tiers headings)
    (tierSymbols.zip headingSymbols) out
  rw [compressKinematicStream, if_pos sameLength]
  generalize (tierSymbols.zip headingSymbols).foldr (putKinematicPair tierTable headingTable)
    (RansEncoder.new, out) = final at encoded ⊢
  obtain ⟨decoder, opened, shows⟩ := RansDecoder.new_flush final.1 final.2
  rw [encoded.2] at shows
  have allOccur : ∀ pair ∈ tierSymbols.zip headingSymbols,
      0 < tierTable.freqOf pair.1 ∧ 0 < headingTable.freqOf pair.2 := by
    intro pair member
    have members := of_mem_zip member
    exact ⟨tiersOccur pair.1 members.1, headingsOccur pair.2 members.2⟩
  have readBack := Ans.readAll_foldr (pushPair tiers headings)
    (getKinematicPair tierTable headingTable) RansDecoder.Shows
    (fun stack => StateInRange stack.state)
    (fun pair => 0 < tierTable.freqOf pair.1 ∧ 0 < headingTable.freqOf pair.2)
    (fun pair stack _ inRange => pushPair_inRange tiers headings pair inRange)
    (fun pair stack decoder occur inRange shown =>
      getKinematicPair_undoes tiers headings occur.1 occur.2 inRange shown)
    allOccur RansEncoder.new_inRange shows
  have count : (tierSymbols.zip headingSymbols).length = tierSymbols.length := by
    rw [length_zip, ← sameLength, min_self]
  rw [count] at readBack
  refine ⟨_, (final.1.flush final.2).2, rfl, ?_⟩
  rw [decompressKinematicStream, opened]
  apply congrArg Except.ok
  rw [readBack, unzip_zip sameLength]

end Kinematic

/-- Decompression returns the two sequences that were compressed, for all tables built
from raw counts and all symbols that have a count. -/
theorem kinematicStream_roundTrip {tierRaw headingRaw : List UInt32}
    {tierTable headingTable : RansSymbolTable} (tierFits : (tierRaw.map UInt32.toNat).sum < 2 ^ 32)
    (headingFits : (headingRaw.map UInt32.toNat).sum < 2 ^ 32)
    (tierBuilt : RansSymbolTable.fromFrequencies tierRaw = .ok tierTable)
    (headingBuilt : RansSymbolTable.fromFrequencies headingRaw = .ok headingTable)
    {tierSymbols headingSymbols : List UInt8}
    (sameLength : tierSymbols.length = headingSymbols.length)
    (tiersCounted : ∀ tier ∈ tierSymbols, tierRaw.getD tier.toNat 0 ≠ 0)
    (headingsCounted : ∀ heading ∈ headingSymbols, headingRaw.getD heading.toNat 0 ≠ 0) :
    ∃ size bytes, compressKinematicStream tierTable headingTable tierSymbols headingSymbols [] =
          some (size, bytes) ∧
        decompressKinematicStream tierTable headingTable bytes tierSymbols.length =
          .ok (tierSymbols, headingSymbols) :=
  decompressKinematicStream_compressKinematicStream
    (RansSymbolTable.fromFrequencies_normalized tierFits tierBuilt)
    (RansSymbolTable.fromFrequencies_normalized headingFits headingBuilt)
    sameLength
    (fun tier member =>
      RansSymbolTable.fromFrequencies_freqOf_pos tierFits tierBuilt (tiersCounted tier member))
    (fun heading member =>
      RansSymbolTable.fromFrequencies_freqOf_pos headingFits headingBuilt
        (headingsCounted heading member))
    []

/-- The standard tier counts and a two-symbol heading table. -/
theorem kinematicStream_roundTrip_tiers : ∃ tierTable headingTable size bytes,
      RansSymbolTable.fromFrequencies [600, 300, 80, 20] = .ok tierTable ∧
        RansSymbolTable.fromFrequencies [700, 100] = .ok headingTable ∧
        compressKinematicStream tierTable headingTable [0, 1, 3] [1, 0, 0] [] = some (size, bytes) ∧
        decompressKinematicStream tierTable headingTable bytes 3 = .ok ([0, 1, 3], [1, 0, 0]) := by
  obtain ⟨tierTable, tierBuilt⟩ :=
    @RansSymbolTable.exists_fromFrequencies [600, 300, 80, 20] (by decide) (by decide)
  obtain ⟨headingTable, headingBuilt⟩ :=
    @RansSymbolTable.exists_fromFrequencies [700, 100] (by decide) (by decide)
  obtain ⟨size, bytes, compressed, decompressed⟩ :=
    @kinematicStream_roundTrip _ _ _ _ (by decide) (by decide) tierBuilt headingBuilt
      [0, 1, 3] [1, 0, 0] rfl (by simp) (by simp)
  exact ⟨tierTable, headingTable, size, bytes, tierBuilt, headingBuilt, compressed, decompressed⟩

end Eidolon.Net
