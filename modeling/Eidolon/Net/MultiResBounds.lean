import Mathlib.Data.UInt
import Eidolon.Net.MultiResRoundTrip

/-!
# Bounds of a batch of transforms

What `read_multires_batch` asks for before it has read an entry, how often its loop turns,
and the full value of each entity id.  Every entry takes ten bits at least, so that the
entries that are read fit what is left of the buffer; the number that capacity is reserved
for is whatever the sender wrote, and so is each id before it is cut to 32 bits.
-/

namespace Eidolon.Net

open List

namespace BitReader

def bitsLeft (reader : BitReader) : Nat :=
  8 * reader.buffer.length - reader.bitOffset

def batchReserve (reader : BitReader) : Option Nat :=
  match reader.readVarint with
  | (.error _, _) => none
  | (.ok count, _) => some count.toNat

/-- The turns of the loop over the entries, the last one maybe a failed one. -/
def entryTurns : Nat → BitReader → Nat
  | 0, _ => 0
  | count + 1, reader =>
    match reader.readEntry with
    | (.error _, _) => 1
    | (.ok _, reader) => entryTurns count reader + 1

/-- The full values of the ids of the entries that the loop reads. -/
def entryIds : Nat → BitReader → List UInt64
  | 0, _ => []
  | count + 1, reader =>
    match reader.readVarint with
    | (.error _, _) => []
    | (.ok entityId, reader) =>
      match reader.readMultiresTransform with
      | (.error _, _) => []
      | (.ok _, reader) => entityId :: entryIds count reader

/-- Neither the reserved capacity nor the turns of the loop are more than the entries of ten
bits that what is left of the buffer can hold, and all ids are the full values read. -/
structure BatchBounded (reader : BitReader) : Prop where
  reserve : ∀ requested ∈ reader.batchReserve, 10 * requested ≤ reader.readVarint.2.bitsLeft
  turns : ∀ requested ∈ reader.batchReserve,
    10 * entryTurns requested reader.readVarint.2 ≤ reader.readVarint.2.bitsLeft
  ids : ∀ requested ∈ reader.batchReserve, ∀ out,
    (reader.readMultiresBatch out).2.1.map (·.entityId.toNat) =
      (entryIds requested reader.readVarint.2).map UInt64.toNat

/-- The ids of the entries that the loop reads, cut to 32 bits, are put behind those it
starts with. -/
theorem ids_readEntries (count : Nat) (reader : BitReader) (out : List MultiResBatchEntry) :
    (readEntries count reader out).2.1.map (·.entityId) =
      out.map (·.entityId) ++ (entryIds count reader).map UInt64.toUInt32 := by
  induction count generalizing reader out with
  | zero => rw [readEntries, entryIds, map_nil, append_nil]
  | succ count ih =>
    rw [readEntries, entryIds]
    rcases idRead : reader.readVarint with ⟨entityId, middle⟩
    rcases entityId with error | entityId
    · have failed : reader.readEntry = (.error error, middle) := by
        rw [readEntry, idRead]
        rfl
      rw [failed]
      exact (append_nil _).symm
    rcases transformRead : middle.readMultiresTransform with ⟨transform, last⟩
    rcases transform with error | transform
    · have failed : reader.readEntry = (.error error, last) := by
        rw [readEntry, idRead]
        simp only [andThen]
        rw [transformRead]
      rw [failed]
      simp only [transformRead, map_nil, append_nil]
    have done : reader.readEntry =
        (.ok { entityId := entityId.toUInt32, transform := transform }, last) := by
      rw [readEntry, idRead]
      simp only [andThen]
      rw [transformRead]
    rw [done]
    simp only [transformRead, map_cons]
    rw [ih, map_append, append_assoc]
    rfl

theorem entryTurns_le (count : Nat) (reader : BitReader) : entryTurns count reader ≤ count := by
  induction count generalizing reader with
  | zero => exact Nat.le_refl 0
  | succ count ih =>
    rw [entryTurns]
    split
    · omega
    exact Nat.succ_le_succ (ih _)

theorem map_toUInt32_iff (ids : List UInt64) :
    ((ids.map UInt64.toUInt32).map UInt32.toNat = ids.map UInt64.toNat) ↔
      ∀ entityId ∈ ids, entityId.toNat < 2 ^ 32 := by
  rw [List.map_map, map_inj_left]
  apply forall₂_congr
  intro entityId _
  rw [Function.comp_apply, UInt64.toNat_toUInt32]
  omega

/-- For every buffer and position, the reserved capacity and the turns of the loop are
bounded by what is left of the buffer and all ids are the values read if and only if the
number of entries is, and no id of an entry that is read needs more than 32 bits. -/
theorem batchBounded_iff (reader : BitReader) : reader.BatchBounded ↔
      ∀ count after, reader.readVarint = (.ok count, after) → 10 * count.toNat ≤ after.bitsLeft ∧
          ∀ entityId ∈ entryIds count.toNat after, entityId.toNat < 2 ^ 32 := by
  have read : ∀ count after out, reader.readVarint = (.ok count, after) →
      (reader.readMultiresBatch out).2.1.map (·.entityId.toNat) =
        ((entryIds count.toNat after).map UInt64.toUInt32).map UInt32.toNat := by
    intro count after out countRead
    have ids := ids_readEntries count.toNat after []
    rw [map_nil, nil_append] at ids
    rw [readMultiresBatch, countRead, ← ids, List.map_map]
    rfl
  constructor
  · intro bounded count after countRead
    have requested : count.toNat ∈ reader.batchReserve := by
      rw [batchReserve, countRead]
      exact Option.mem_some_self _
    have reserve := bounded.reserve _ requested
    have ids := bounded.ids _ requested []
    rw [countRead] at reserve ids
    rw [read count after [] countRead] at ids
    exact ⟨reserve, (map_toUInt32_iff _).mp ids⟩
  intro fits
  have inverted : ∀ requested ∈ reader.batchReserve, ∃ count after,
      reader.readVarint = (.ok count, after) ∧ requested = count.toNat := by
    intro requested member
    rw [batchReserve] at member
    split at member
    · cases member
    next countRead =>
      cases member
      exact ⟨_, _, countRead, rfl⟩
  refine ⟨?_, ?_, ?_⟩
  · intro requested member
    obtain ⟨count, after, countRead, rfl⟩ := inverted requested member
    rw [countRead]
    exact (fits count after countRead).1
  · intro requested member
    obtain ⟨count, after, countRead, rfl⟩ := inverted requested member
    rw [countRead]
    exact Nat.le_trans (Nat.mul_le_mul_left 10 (entryTurns_le count.toNat after))
      (fits count after countRead).1
  intro requested member out
  obtain ⟨count, after, countRead, rfl⟩ := inverted requested member
  rw [read count after out countRead, countRead]
  exact (map_toUInt32_iff _).mpr (fits count after countRead).2

/-- Ten bytes announce 2^64 - 1 entries, for which capacity is reserved with nothing left to
read, and the id 2^32 + 7 of a single entry is read as 7. -/
theorem not_batchBounded :
    let many := BitReader.new [0xFF, 0xFF, 0xFF, 0xFF, 0xFF, 0xFF, 0xFF, 0xFF, 0xFF, 0x01]
    let wide := BitReader.new [0x01, 0x87, 0x80, 0x80, 0x80, 0x10, 0xC0]
    (many.batchReserve = some (2 ^ 64 - 1) ∧ many.readVarint.2.bitsLeft = 0) ∧
      wide.readMultiresBatch [] = (.ok 1, [{ entityId := 7, transform := .stationary }],
        { buffer := wide.buffer, bitOffset := 50 }) ∧
      entryIds 1 wide.readVarint.2 = [2 ^ 32 + 7] := by
  decide

end BitReader

end Eidolon.Net
