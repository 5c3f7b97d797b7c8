import Mathlib.Data.List.GetD
import Eidolon.Library.ByteOrder

/-!
# Reading from a byte slice

An index outside of a slice stops the program that reads there.  Here such a read is
`none`, so that a parser is a partial function, and it never leaves its slice exactly if
it always has a value.
-/

namespace Eidolon.Library

open List Option

universe u

def byteAt (slice : List UInt8) (cursor : Nat) : Option UInt8 :=
  slice[cursor]?

def bytesAt (slice : List UInt8) : Nat → Nat → Option (List UInt8)
  | _, 0 => some []
  | cursor, width + 1 =>
    (byteAt slice cursor).bind fun byte =>
      (bytesAt slice (cursor + 1) width).map fun bytes => byte :: bytes

/-- The bytes at `width` consecutive indices as a number, most significant byte first. -/
def bigEndianAt (slice : List UInt8) (cursor width : Nat) : Option Nat :=
  (bytesAt slice cursor width).map ofBigEndian

/-- Consecutive records of one width, each read at its own start. -/
def recordsAt {Record : Type u} (readRecord : Nat → Option Record) (width : Nat) :
    Nat → Nat → Option (List Record)
  | _, 0 => some []
  | cursor, count + 1 =>
    (readRecord cursor).bind fun record =>
      (recordsAt readRecord width (cursor + width) count).map fun records =>
        record :: records

variable {slice : List UInt8} {cursor width : Nat}

theorem byteAt_of_inside (inside : cursor < slice.length) :
    byteAt slice cursor = some (slice.getD cursor 0) := by
  rw [byteAt, List.getElem?_eq_getElem inside, getD_eq_getElem _ _ inside]

theorem byteAt_of_outside (outside : slice.length ≤ cursor) : byteAt slice cursor = none :=
  List.getElem?_eq_none outside

theorem bytesAt_of_inside (inside : cursor + width ≤ slice.length) :
    bytesAt slice cursor width = some ((slice.drop cursor).take width) := by
  induction width generalizing cursor with
  | zero => rfl
  | succ width ih =>
    have first : cursor < slice.length := by
      omega
    rw [bytesAt, byteAt, List.getElem?_eq_getElem first, ih (by omega), drop_eq_getElem_cons first]
    rfl

theorem bigEndianAt_of_inside (inside : cursor + width ≤ slice.length) :
    bigEndianAt slice cursor width = some (ofBigEndian ((slice.drop cursor).take width)) := by
  rw [bigEndianAt, bytesAt_of_inside inside]
  rfl

/-- Records that read exactly their own bytes are read exactly if all their bytes are
inside. -/
theorem isSome_recordsAt_iff {Record : Type u} {readRecord : Nat → Option Record}
    (ownBytes : ∀ cursor, (readRecord cursor).isSome ↔ cursor + width ≤ slice.length) {count : Nat}
    (inside : cursor ≤ slice.length) :
    (recordsAt readRecord width cursor count).isSome ↔ cursor + width * count ≤ slice.length := by
  induction count generalizing cursor with
  | zero => exact iff_of_true rfl inside
  | succ count ih =>
    rw [recordsAt, Nat.mul_succ]
    by_cases first : cursor + width ≤ slice.length
    · rcases Option.isSome_iff_exists.mp ((ownBytes cursor).mpr first) with ⟨record, found⟩
      rw [found, bind_some, isSome_map, ih first]
      omega
    have failed : readRecord cursor = none := by
      rw [← not_isSome_iff_eq_none, ownBytes]
      exact first
    rw [failed]
    apply iff_of_false nofun
    omega

end Eidolon.Library

/-!
## Writing into a byte slice

A program that writes outside of its buffer stops, which is `none` here as it is for reads.
Chunks that are written one behind the other leave their concatenation in the buffer, and each
of them is read back from its own place.
-/

namespace Eidolon.Library

open List Option

universe u

/-- The buffer with the bytes put over those from an index on. -/
def putAt (buffer : List UInt8) (cursor : Nat) (bytes : List UInt8) : Option (List UInt8) :=
  if cursor + bytes.length ≤ buffer.length then
    some (buffer.take cursor ++ (bytes ++ buffer.drop (cursor + bytes.length)))
  else
    none

/-- The buffer with consecutive chunks from an index on, and the index behind them. -/
def putAll : List UInt8 → Nat → List (List UInt8) → Option (Nat × List UInt8)
  | buffer, cursor, [] => some (cursor, buffer)
  | buffer, cursor, chunk :: chunks =>
    (putAt buffer cursor chunk).bind fun buffer =>
      putAll buffer (cursor + chunk.length) chunks

theorem putAll_of_inside {buffer : List UInt8} {cursor : Nat} {chunks : List (List UInt8)}
    (inside : cursor + chunks.flatten.length ≤ buffer.length) :
    putAll buffer cursor chunks = some (cursor + chunks.flatten.length, buffer.take cursor ++
          (chunks.flatten ++ buffer.drop (cursor + chunks.flatten.length))) := by
  induction chunks generalizing buffer cursor with
  | nil =>
    rw [putAll, flatten_nil, nil_append, length_nil, Nat.add_zero, take_append_drop]
  | cons chunk chunks ih =>
    rw [flatten_cons, length_append] at inside
    have fits : cursor + chunk.length ≤ buffer.length := by
      omega
    have front : (buffer.take cursor ++ chunk).length = cursor + chunk.length := by
      rw [length_append, length_take]
      omega
    have whole : buffer.take cursor ++ (chunk ++ buffer.drop (cursor + chunk.length)) =
        (buffer.take cursor ++ chunk) ++ buffer.drop (cursor + chunk.length) :=
      (append_assoc _ _ _).symm
    have behind : ((buffer.take cursor ++ chunk) ++ buffer.drop (cursor + chunk.length)).drop
          (cursor + chunk.length + chunks.flatten.length) =
            buffer.drop (cursor + (chunk.length + chunks.flatten.length)) := by
      rw [← drop_drop, drop_left' front, drop_drop, Nat.add_assoc]
    have room : cursor + chunk.length + chunks.flatten.length ≤
        ((buffer.take cursor ++ chunk) ++ buffer.drop (cursor + chunk.length)).length := by
      rw [length_append, length_drop]
      omega
    rw [putAll, putAt, if_pos fits, bind_some, whole, ih room,
      take_left' front, behind, flatten_cons, length_append, Nat.add_assoc,
      append_assoc, append_assoc]

variable {front rest : List UInt8} {cursor width value : Nat}

theorem bytesAt_middle {bytes : List UInt8} (place : front.length = cursor)
    (wide : bytes.length = width) :
    bytesAt (front ++ (bytes ++ rest)) cursor width = some bytes := by
  have inside : cursor + width ≤ (front ++ (bytes ++ rest)).length := by
    rw [length_append, length_append]
    omega
  rw [bytesAt_of_inside inside, drop_left' place, take_left' wide]

theorem bytesAt_chunk {chunks : List (List UInt8)} {index : Nat} {bytes : List UInt8}
    (chunkIs : chunks[index]? = some bytes)
    (place : front.length + (chunks.take index).flatten.length = cursor)
    (wide : bytes.length = width) :
    bytesAt (front ++ (chunks.flatten ++ rest)) cursor width = some bytes := by
  obtain ⟨inside, held⟩ := List.getElem?_eq_some_iff.mp chunkIs
  have split : chunks.flatten =
      (chunks.take index).flatten ++ (bytes ++ (chunks.drop (index + 1)).flatten) := by
    rw [← flatten_cons, ← held, ← drop_eq_getElem_cons inside, ← flatten_append, take_append_drop]
  have before : (front ++ (chunks.take index).flatten).length = cursor := by
    rw [length_append]
    exact place
  rw [split, append_assoc, append_assoc, ← append_assoc front]
  exact bytesAt_middle before wide

theorem bigEndianAt_chunk {chunks : List (List UInt8)} {index : Nat}
    (chunkIs : chunks[index]? = some (bigEndian width value))
    (place : front.length + (chunks.take index).flatten.length = cursor)
    (small : value < 256 ^ width) :
    bigEndianAt (front ++ (chunks.flatten ++ rest)) cursor width = some value := by
  rw [bigEndianAt, bytesAt_chunk chunkIs place (length_bigEndian width value), map_some,
    ofBigEndian_bigEndian small]

theorem byteAt_chunk {chunks : List (List UInt8)} {index : Nat} {byte : UInt8}
    (chunkIs : chunks[index]? = some [byte])
    (place : front.length + (chunks.take index).flatten.length = cursor) :
    byteAt (front ++ (chunks.flatten ++ rest)) cursor = some byte := by
  have read := @bytesAt_chunk front rest cursor 1 chunks index [byte] chunkIs place rfl
  rw [bytesAt, bind_eq_some_iff] at read
  obtain ⟨found, isFound, single⟩ := read
  rw [bytesAt, map_some, some.injEq, List.cons.injEq] at single
  rw [isFound, single.1]

theorem recordsAt_flatMap {Record : Type u} {readRecord : List UInt8 → Nat → Option Record}
    {pack : Record → List UInt8} (wide : ∀ record, (pack record).length = width)
    (undoes : ∀ record (front rest : List UInt8),
      readRecord (front ++ (pack record ++ rest)) front.length = some record)
    (records : List Record) (place : front.length = cursor) :
    recordsAt (readRecord (front ++ (records.flatMap pack ++ rest))) width cursor
      records.length = some records := by
  induction records generalizing front cursor with
  | nil => rfl
  | cons record records ih =>
    have next : (front ++ pack record).length = cursor + width := by
      rw [length_append, wide, place]
    have first := undoes record front (records.flatMap pack ++ rest)
    rw [place] at first
    have later := ih next
    rw [append_assoc] at later
    rw [flatMap_cons, append_assoc, length_cons, recordsAt, first, bind_some, later, map_some]

end Eidolon.Library
