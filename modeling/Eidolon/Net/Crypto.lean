import Eidolon.Library.Slices
import Eidolon.Net.Auth

/-!
# SHA-256 and HMAC

The two loops that cut a message into blocks take the compression function as a parameter:
one copies whole blocks and pads the rest, the other fills a block byte by byte.
-/

namespace Eidolon.Net

open Library

def hInit : Vector UInt32 8 :=
  #v[0x6a09e667, 0xbb67ae85, 0x3c6ef372, 0xa54ff53a, 0x510e527f, 0x9b05688c, 0x1f83d9ab, 0x5be0cd19]

def roundConstants : List UInt32 :=
  [0x428a2f98, 0x71374491, 0xb5c0fbcf, 0xe9b5dba5, 0x3956c25b, 0x59f111f1, 0x923f82a4,
    0xab1c5ed5, 0xd807aa98, 0x12835b01, 0x243185be, 0x550c7dc3, 0x72be5d74, 0x80deb1fe,
    0x9bdc06a7, 0xc19bf174, 0xe49b69c1, 0xefbe4786, 0x0fc19dc6, 0x240ca1cc, 0x2de92c6f,
    0x4a7484aa, 0x5cb0a9dc, 0x76f988da, 0x983e5152, 0xa831c66d, 0xb00327c8, 0xbf597fc7,
    0xc6e00bf3, 0xd5a79147, 0x06ca6351, 0x14292967, 0x27b70a85, 0x2e1b2138, 0x4d2c6dfc,
    0x53380d13, 0x650a7354, 0x766a0abb, 0x81c2c92e, 0x92722c85, 0xa2bfe8a1, 0xa81a664b,
    0xc24b8b70, 0xc76c51a3, 0xd192e819, 0xd6990624, 0xf40e3585, 0x106aa070, 0x19a4c116,
    0x1e376c08, 0x2748774c, 0x34b0bcb5, 0x391c0cb3, 0x4ed8aa4a, 0x5b9cca4f, 0x682e6ff3,
    0x748f82ee, 0x78a5636f, 0x84c87814, 0x8cc70208, 0x90befffa, 0xa4506ceb, 0xbef9a3f7,
    0xc67178f2]

def rotr (x n : UInt32) : UInt32 :=
  (x >>> n) ||| (x <<< (32 - n))

def ch (x y z : UInt32) : UInt32 :=
  (x &&& y) ^^^ (~~~x &&& z)

def maj (x y z : UInt32) : UInt32 :=
  (x &&& y) ^^^ (x &&& z) ^^^ (y &&& z)

def sigma0 (x : UInt32) : UInt32 :=
  rotr x 2 ^^^ rotr x 13 ^^^ rotr x 22

def sigma1 (x : UInt32) : UInt32 :=
  rotr x 6 ^^^ rotr x 11 ^^^ rotr x 25

def gamma0 (x : UInt32) : UInt32 :=
  rotr x 7 ^^^ rotr x 18 ^^^ (x >>> 3)

def gamma1 (x : UInt32) : UInt32 :=
  rotr x 17 ^^^ rotr x 19 ^^^ (x >>> 10)

structure Compression where
  state : Vector UInt32 8
  w : List UInt32

structure RoundState where
  a : UInt32
  b : UInt32
  c : UInt32
  d : UInt32
  e : UInt32
  f : UInt32
  g : UInt32
  h : UInt32

def RoundState.round (round : RoundState) (wt kt : UInt32) : RoundState :=
  let t1 := round.h + sigma1 round.e + ch round.e round.f round.g + kt + wt
  let t2 := sigma0 round.a + maj round.a round.b round.c
  { h := round.g
    g := round.f
    f := round.e
    e := round.d + t1
    d := round.c
    c := round.b
    b := round.a
    a := t1 + t2 }

def processBlock (compression : Compression) (block : List UInt8) : Compression :=
  let filled := (List.range 16).foldl (fun (w : List UInt32) t =>
    let idx := t * 4
    let b0 := (block.getD idx 0).toUInt32
    let b1 := (block.getD (idx + 1) 0).toUInt32
    let b2 := (block.getD (idx + 2) 0).toUInt32
    let b3 := (block.getD (idx + 3) 0).toUInt32
    w.set t ((b0 <<< 24) ||| (b1 <<< 16) ||| (b2 <<< 8) ||| b3)) compression.w
  let w := (List.range' 16 48).foldl (fun (w : List UInt32) t =>
    w.set t (gamma1 (w.getD (t - 2) 0) + w.getD (t - 7) 0 + gamma0 (w.getD (t - 15) 0) +
      w.getD (t - 16) 0)) filled
  let state := compression.state
  let start : RoundState :=
    { a := state[0]
      b := state[1]
      c := state[2]
      d := state[3]
      e := state[4]
      f := state[5]
      g := state[6]
      h := state[7] }
  let last := (List.range 64).foldl (fun (round : RoundState) t =>
    round.round (w.getD t 0) (roundConstants.getD t 0)) start
  { state := #v[state[0] + last.a, state[1] + last.b, state[2] + last.c, state[3] + last.d,
      state[4] + last.e, state[5] + last.f, state[6] + last.g, state[7] + last.h]
    w := w }

def copyInto (buffer : List UInt8) (offset : Nat) (src : List UInt8) : List UInt8 :=
  buffer.take offset ++ src ++ buffer.drop (offset + src.length)

section Blocks

universe u

variable {σ : Type u} (process : σ → List UInt8 → σ)

def fullBlocks (data : List UInt8) : Nat → Nat → σ → σ × Nat
  | 0, offset, state => (state, offset)
  | fuel + 1, offset, state =>
    if offset + 64 ≤ data.length then
      fullBlocks data fuel (offset + 64) (process state ((data.drop offset).take 64))
    else (state, offset)

/-- Full blocks in place, and the rest padded in a buffer of two blocks. -/
def hashSlice (start : σ) (data : List UInt8) : σ :=
  let totalLen := data.length
  let bitLen : UInt64 := UInt64.ofNat totalLen * 8
  let (state, offset) := fullBlocks process data totalLen 0 start
  let remainder := totalLen - offset
  let copied := copyInto (List.replicate 128 0) 0 (data.drop offset)
  let tail := copied.set remainder 0x80
  let bitBytes := bigEndian 8 bitLen.toNat
  if remainder < 56 then
    let tail := copyInto tail 56 bitBytes
    process state (tail.take 64)
  else
    let tail := copyInto tail 120 bitBytes
    process (process state (tail.take 64)) ((tail.drop 64).take 64)

structure Absorber (σ : Type u) where
  buf : List UInt8
  bufLen : Nat
  state : σ

def processByte (absorber : Absorber σ) (byte : UInt8) : Absorber σ :=
  if absorber.bufLen < absorber.buf.length then
    let buf := absorber.buf.set absorber.bufLen byte
    let bufLen := absorber.bufLen + 1
    if bufLen = 64 then
      { buf := buf, bufLen := 0, state := process absorber.state buf }
    else
      { absorber with buf := buf, bufLen := bufLen }
  else absorber

def zeroFill (limit : Nat) : Nat → Absorber σ → Absorber σ
  | 0, absorber => absorber
  | fuel + 1, absorber =>
    if absorber.bufLen < limit then
      zeroFill limit fuel (if absorber.bufLen < absorber.buf.length then
          { absorber with
            buf := absorber.buf.set absorber.bufLen 0
            bufLen := absorber.bufLen + 1 }
        else absorber)
    else absorber

def hashConcat (start : σ) (a b : List UInt8) : σ :=
  let totalLen := a.length + b.length
  let bitLen : UInt64 := UInt64.ofNat totalLen * 8
  let absorber : Absorber σ := { buf := List.replicate 64 0, bufLen := 0, state := start }
  let absorber := a.foldl (processByte process) absorber
  let absorber := b.foldl (processByte process) absorber
  let absorber := processByte process absorber 0x80
  let absorber :=
    if 56 < absorber.bufLen then
      let full := zeroFill 64 64 absorber
      { full with bufLen := 0, state := process full.state full.buf }
    else absorber
  let absorber := zeroFill 56 64 absorber
  process absorber.state (copyInto absorber.buf 56 (bigEndian 8 bitLen.toNat))

end Blocks

def Compression.start : Compression where
  state := hInit
  w := List.replicate 64 0

/-- The words of the state, most significant byte first. -/
def Compression.output (compression : Compression) : FixedBytes 32 :=
  ⟨compression.state.toList.flatMap fun word => bigEndian 4 word.toNat, by
    simp [List.length_flatMap, length_bigEndian]⟩

def sha256 (data : List UInt8) : FixedBytes 32 :=
  (hashSlice processBlock .start data).output

def sha256Concat (a b : List UInt8) : FixedBytes 32 :=
  (hashConcat processBlock .start a b).output

def hmacSha256 (key data : List UInt8) : FixedBytes 32 :=
  let kPad :=
    if 64 < key.length then copyInto (List.replicate 64 0) 0 (sha256 key).val
    else copyInto (List.replicate 64 0) 0 key
  let innerHash :=
    if data.length ≤ 1024 then
      let prefixed := copyInto (List.replicate (64 + 1024) 0) 0 (kPad.map (· ^^^ 0x36))
      let innerBuffer := copyInto prefixed 64 data
      sha256 (innerBuffer.take (64 + data.length))
    else
      sha256Concat (kPad.map (· ^^^ 0x36)) data
  let prefixed := copyInto (List.replicate (64 + 32) 0) 0 (kPad.map (· ^^^ 0x5C))
  sha256 (copyInto prefixed 64 innerHash.val)

end Eidolon.Net

/-!
## The blocks of a hashed message

Whatever the compression function, both loops run it over the blocks of the padded message,
so that a message hashed in two parts has the hash of the whole.
-/

namespace Eidolon.Net

open Library

universe u

def paddingZeros (length : Nat) : Nat :=
  (119 - length % 64) % 64

def padWith (bitBytes message : List UInt8) : List UInt8 :=
  message ++ 0x80 :: (List.replicate (paddingZeros message.length) 0 ++ bitBytes)

def padMessage (message : List UInt8) : List UInt8 :=
  padWith (bigEndian 8 (message.length * 8)) message

theorem length_copyInto {buffer src : List UInt8} {offset : Nat}
    (inside : offset + src.length ≤ buffer.length) :
    (copyInto buffer offset src).length = buffer.length := by
  rw [copyInto, List.length_append, List.length_append, List.length_take, List.length_drop]
  omega

theorem copyInto_zero (size : Nat) (src : List UInt8) :
    copyInto (List.replicate size 0) 0 src = src ++ List.replicate (size - src.length) 0 := by
  rw [copyInto, List.take_zero, List.nil_append, Nat.zero_add, List.drop_replicate]

theorem copyInto_append {front back src : List UInt8} {offset : Nat}
    (isOffset : front.length = offset) :
    copyInto (front ++ back) offset src = front ++ (src ++ back.drop src.length) := by
  rw [copyInto, List.take_left' isOffset, ← isOffset, List.append_assoc, List.drop_append,
    List.drop_eq_nil_of_le (Nat.le_add_right _ _), List.nil_append, Nat.add_sub_cancel_left]

section Blocks

variable {σ : Type u} {process : σ → List UInt8 → σ}

theorem fullBlocks_eq (process : σ → List UInt8 → σ) {full rest : List UInt8} {number : Nat}
    (whole : full.length = 64 * number) (short : rest.length < 64) (done : List UInt8) {fuel : Nat}
    (enough : number ≤ fuel) (state : σ) :
    fullBlocks process (done ++ (full ++ rest)) fuel done.length state =
      ((chunks 64 full).foldl process state, done.length + full.length) := by
  induction number generalizing full done fuel state with
  | zero =>
    have isNil : full = [] := List.length_eq_zero_iff.mp whole
    have stops : ¬ done.length + 64 ≤ (done ++ (full ++ rest)).length := by
      rw [isNil, List.length_append, List.nil_append]
      omega
    cases fuel with
    | zero =>
      rw [isNil]
      rfl
    | succ fuel =>
      rw [fullBlocks, if_neg stops, isNil]
      rfl
  | succ number ih =>
    cases fuel with
    | zero => exact absurd enough (Nat.not_succ_le_zero number)
    | succ fuel =>
      have first : (full.take 64).length = 64 := by
        rw [List.length_take]
        omega
      have later : (full.drop 64).length = 64 * number := by
        rw [List.length_drop]
        omega
      have goes : done.length + 64 ≤ (done ++ (full ++ rest)).length := by
        rw [List.length_append, List.length_append]
        omega
      have block : ((done ++ (full ++ rest)).drop done.length).take 64 = full.take 64 := by
        rw [List.drop_left, List.take_append_of_le_length (by omega)]
      have split : done ++ (full ++ rest) = (done ++ full.take 64) ++ (full.drop 64 ++ rest) := by
        rw [List.append_assoc, ← List.append_assoc (full.take 64), List.take_append_drop]
      have next : done.length + 64 = (done ++ full.take 64).length := by
        rw [List.length_append, first]
      have cut : chunks 64 full = full.take 64 :: chunks 64 (full.drop 64) := by
        rw [← chunks_cons (by decide) first, List.take_append_drop]
      rw [fullBlocks, if_pos goes, block, next, split,
        ih later (done ++ full.take 64) (Nat.le_of_succ_le_succ enough),
        cut]
      congr 1
      omega

theorem exists_full (message : List UInt8) : ∃ full rest number, message = full ++ rest ∧
    full.length = 64 * number ∧ rest.length < 64 := by
  refine ⟨message.take (64 * (message.length / 64)), message.drop (64 * (message.length / 64)),
    message.length / 64, (List.take_append_drop _ _).symm, ?_, ?_⟩
  · rw [List.length_take]
    omega
  rw [List.length_drop]
  omega

theorem chunks_padWith {full rest bitBytes : List UInt8} {number : Nat}
    (whole : full.length = 64 * number) (short : rest.length < 64) (eight : bitBytes.length = 8) :
    chunks 64 (padWith bitBytes (full ++ rest)) = chunks 64 full ++
      if rest.length < 56 then
        [rest ++ 0x80 :: (List.replicate (55 - rest.length) 0 ++ bitBytes)]
      else
        [rest ++ 0x80 :: List.replicate (63 - rest.length) 0, List.replicate 56 0 ++ bitBytes] := by
  have length : (full ++ rest).length % 64 = rest.length := by
    rw [List.length_append]
    omega
  have divides : 64 ∣ full.length := ⟨number, whole⟩
  rw [padWith, List.append_assoc, chunks_append (by decide) divides, paddingZeros, length]
  congr 1
  by_cases one : rest.length < 56
  · have zeros : (119 - rest.length) % 64 = 55 - rest.length := by omega
    rw [if_pos one, zeros, chunks_single (by decide)]
    rw [List.length_append, List.length_cons, List.length_append, List.length_replicate]
    omega
  have zeros : (119 - rest.length) % 64 = (63 - rest.length) + 56 := by omega
  have first : (rest ++ 0x80 :: List.replicate (63 - rest.length) (0 : UInt8)).length = 64 := by
    rw [List.length_append, List.length_cons, List.length_replicate]
    omega
  have split : rest ++ 0x80 :: (List.replicate ((63 - rest.length) + 56) 0 ++ bitBytes) =
        (rest ++ 0x80 :: List.replicate (63 - rest.length) 0) ++
          (List.replicate 56 0 ++ bitBytes) := by
    rw [List.replicate_add, List.append_assoc, List.append_assoc, List.cons_append]
  rw [if_neg one, zeros, split, chunks_cons (by decide) first, chunks_single (by decide)]
  rw [List.length_append, List.length_replicate, eight]

theorem hashSlice_eq (start : σ) (data : List UInt8) : hashSlice process start data =
      (chunks 64 (padWith (bigEndian 8 (UInt64.ofNat data.length * 8).toNat) data)).foldl
        process start := by
  obtain ⟨full, rest, number, isData, whole, short⟩ := exists_full data
  have eight := length_bigEndian 8 (UInt64.ofNat data.length * 8).toNat
  have lengths : data.length = full.length + rest.length := by
    rw [isData, List.length_append]
  have blocks : fullBlocks process data data.length 0 start =
      ((chunks 64 full).foldl process start, full.length) := by
    have cut := fullBlocks_eq process whole short [] (by omega : number ≤ data.length) start
    rw [← isData, List.length_nil, Nat.zero_add] at cut
    exact cut
  have left : data.drop full.length = rest := by
    rw [isData, List.drop_left]
  have marked : (copyInto (List.replicate 128 0) 0 rest).set rest.length 0x80 =
      rest ++ 0x80 :: List.replicate (127 - rest.length) 0 := by
    have free : 128 - rest.length = 127 - rest.length + 1 := by omega
    rw [copyInto_zero, List.set_append_right _ _ (Nat.le_refl _), Nat.sub_self, free,
      List.replicate_succ, List.set_cons_zero]
  generalize isBits : bigEndian 8 (UInt64.ofNat data.length * 8).toNat = bitBytes at *
  have remainder : data.length - full.length = rest.length := by omega
  rw [hashSlice]
  simp only [blocks, left, remainder, marked, isBits]
  rw [isData, chunks_padWith whole short eight, List.foldl_append]
  by_cases one : rest.length < 56
  · have split : rest ++ 0x80 :: List.replicate (127 - rest.length) 0 =
        (rest ++ 0x80 :: List.replicate (55 - rest.length) 0) ++ List.replicate 72 (0 : UInt8) := by
      have zeros : 127 - rest.length = (55 - rest.length) + 72 := by omega
      rw [zeros, List.replicate_add, List.append_assoc, List.cons_append]
    have front : (rest ++ 0x80 :: List.replicate (55 - rest.length) (0 : UInt8)).length = 56 := by
      rw [List.length_append, List.length_cons, List.length_replicate]
      omega
    rw [if_pos one, if_pos one, split, copyInto_append front, ← List.append_assoc,
      List.take_left' (by rw [List.length_append, front, eight]), List.append_assoc]
    rfl
  have split : rest ++ 0x80 :: List.replicate (127 - rest.length) 0 =
      ((rest ++ 0x80 :: List.replicate (63 - rest.length) 0) ++ List.replicate 56 0) ++
        List.replicate 8 (0 : UInt8) := by
    have zeros : 127 - rest.length = ((63 - rest.length) + 56) + 8 := by omega
    rw [zeros, List.replicate_add, List.replicate_add]
    simp only [List.append_assoc, List.cons_append]
  have first : (rest ++ 0x80 :: List.replicate (63 - rest.length) (0 : UInt8)).length = 64 := by
    rw [List.length_append, List.length_cons, List.length_replicate]
    omega
  have front : ((rest ++ 0x80 :: List.replicate (63 - rest.length) 0) ++
      List.replicate 56 (0 : UInt8)).length = 120 := by
    rw [List.length_append, first, List.length_replicate]
  have second : (List.replicate 56 0 ++ bitBytes).length = 64 := by
    rw [List.length_append, List.length_replicate, eight]
  rw [if_neg one, if_neg one, split, copyInto_append front, List.append_assoc _ _ (_ ++ _),
    List.take_left' first, List.drop_left' first, ← List.append_assoc (List.replicate 56 0),
    List.take_left' second]
  rfl

structure Absorbed (process : σ → List UInt8 → σ) (start : σ) (full rest : List UInt8)
    (absorber : Absorber σ) : Prop where
  whole : 64 ∣ full.length
  short : rest.length < 64
  state : absorber.state = (chunks 64 full).foldl process start
  bufLen : absorber.bufLen = rest.length
  size : absorber.buf.length = 64
  held : absorber.buf.take rest.length = rest

variable {start : σ} {full rest : List UInt8} {absorber : Absorber σ}

theorem take_succ_set {buf : List UInt8} {index : Nat} (inside : index < buf.length)
    (byte : UInt8) : (buf.set index byte).take (index + 1) = buf.take index ++ [byte] := by
  rw [List.take_add_one, List.getElem?_set_self inside, List.take_set_of_le (Nat.le_refl _)]
  rfl

theorem Absorbed.processByte (absorbed : Absorbed process start full rest absorber)
    (byte : UInt8) : ∃ fullAfter restAfter, fullAfter ++ restAfter = full ++ rest ++ [byte] ∧
        Absorbed process start fullAfter restAfter (processByte process absorber byte) := by
  have inside : rest.length < absorber.buf.length := by
    rw [absorbed.size]
    exact absorbed.short
  have held := take_succ_set inside byte
  rw [absorbed.held] at held
  have extended : (rest ++ [byte]).length = rest.length + 1 := by
    rw [List.length_append, List.length_singleton]
  rw [Net.processByte, absorbed.bufLen, if_pos inside]
  by_cases filled : rest.length + 1 = 64
  · have block : absorber.buf.set rest.length byte = rest ++ [byte] := by
      rw [← held, List.take_of_length_le]
      rw [List.length_set, absorbed.size, filled]
    have single : (rest ++ [byte]).length = 64 := by
      rw [extended, filled]
    refine ⟨full ++ (rest ++ [byte]), [], ?_, ?_⟩
    · rw [List.append_nil, List.append_assoc]
    rw [if_pos filled]
    refine ⟨?_, by decide, ?_, rfl, ?_, rfl⟩
    · rw [List.length_append, single]
      exact Nat.dvd_add absorbed.whole (Nat.dvd_refl 64)
    · rw [chunks_append (by decide) absorbed.whole, chunks_single (by decide) single,
        List.foldl_append, ← absorbed.state, block]
      rfl
    rw [List.length_set, absorbed.size]
  refine ⟨full, rest ++ [byte], (List.append_assoc _ _ _).symm, ?_⟩
  rw [if_neg filled]
  have short := absorbed.short
  refine ⟨absorbed.whole, ?_, absorbed.state, extended.symm, ?_, ?_⟩
  · omega
  · rw [List.length_set, absorbed.size]
  rw [extended]
  exact held

theorem Absorbed.processBytes (absorbed : Absorbed process start full rest absorber)
    (bytes : List UInt8) : ∃ fullAfter restAfter, fullAfter ++ restAfter = full ++ rest ++ bytes ∧
        Absorbed process start fullAfter restAfter
          (bytes.foldl (Net.processByte process) absorber) := by
  induction bytes generalizing full rest absorber with
  | nil => exact ⟨full, rest, (List.append_nil _).symm, absorbed⟩
  | cons byte bytes ih =>
    obtain ⟨fullNext, restNext, split, next⟩ := absorbed.processByte byte
    obtain ⟨fullAfter, restAfter, splitAfter, after⟩ := ih next
    refine ⟨fullAfter, restAfter, ?_, after⟩
    rw [splitAfter, split, List.append_assoc _ [byte], List.singleton_append]

theorem zeroFill_eq (limit fuel : Nat) (inside : limit ≤ absorber.buf.length)
    (below : absorber.bufLen ≤ limit) (enough : limit ≤ absorber.bufLen + fuel) :
    (zeroFill limit fuel absorber).bufLen = limit ∧
      (zeroFill limit fuel absorber).state = absorber.state ∧
      (zeroFill limit fuel absorber).buf.length = absorber.buf.length ∧
      (zeroFill limit fuel absorber).buf.take limit = absorber.buf.take absorber.bufLen ++
          List.replicate (limit - absorber.bufLen) 0 := by
  induction fuel generalizing absorber with
  | zero =>
    have reached : absorber.bufLen = limit := by omega
    rw [zeroFill, reached, Nat.sub_self]
    exact ⟨rfl, rfl, rfl, (List.append_nil _).symm⟩
  | succ fuel ih =>
    rw [zeroFill]
    by_cases goes : absorber.bufLen < limit
    · have here : absorber.bufLen < absorber.buf.length := by omega
      rw [if_pos goes, if_pos here]
      have insideNext : limit ≤ (absorber.buf.set absorber.bufLen 0).length := by
        rw [List.length_set]
        exact inside
      have enoughNext : limit ≤ absorber.bufLen + 1 + fuel := by omega
      obtain ⟨bufLen, state, size, held⟩ := @ih
        { absorber with
          buf := absorber.buf.set absorber.bufLen 0
          bufLen := absorber.bufLen + 1 } insideNext goes enoughNext
      refine ⟨bufLen, state, ?_, ?_⟩
      · rw [size, List.length_set]
      have zeros : limit - absorber.bufLen = limit - (absorber.bufLen + 1) + 1 := by omega
      rw [held]
      rw [take_succ_set here, zeros, List.append_assoc]
      rfl
    have reached : absorber.bufLen = limit := by omega
    rw [if_neg goes, reached, Nat.sub_self]
    exact ⟨rfl, rfl, rfl, (List.append_nil _).symm⟩

theorem copyInto_last {buf bitBytes : List UInt8} (size : buf.length = 64)
    (eight : bitBytes.length = 8) : copyInto buf 56 bitBytes = buf.take 56 ++ bitBytes := by
  rw [copyInto, List.drop_eq_nil_of_le (by omega), List.append_nil]

theorem hashConcat_eq (start : σ) (a b : List UInt8) : hashConcat process start a b =
      (chunks 64 (padWith (bigEndian 8 (UInt64.ofNat (a.length + b.length) * 8).toNat)
        (a ++ b))).foldl process start := by
  have eight := length_bigEndian 8 (UInt64.ofNat (a.length + b.length) * 8).toNat
  have nothing : Absorbed process start [] []
      { buf := List.replicate 64 0, bufLen := 0, state := start } :=
    ⟨Nat.dvd_zero 64, by decide, rfl, rfl, List.length_replicate, rfl⟩
  obtain ⟨fullA, restA, splitA, absorbedA⟩ := nothing.processBytes a
  obtain ⟨fullB, restB, splitB, absorbedB⟩ := absorbedA.processBytes b
  obtain ⟨full, rest, split, absorbed⟩ := absorbedB.processByte 0x80
  rw [splitB, splitA, List.append_nil, List.nil_append] at split
  generalize isBits : bigEndian 8 (UInt64.ofNat (a.length + b.length) * 8).toNat = bitBytes at *
  rw [hashConcat]
  simp only [isBits]
  generalize processByte process (b.foldl (processByte process) (a.foldl (processByte process)
    { buf := List.replicate 64 0, bufLen := 0, state := start })) 0x80 = absorber at *
  have short := absorbed.short
  have lengths : full.length + rest.length = (a ++ b).length + 1 := by
    rw [← List.length_append, split, List.length_append, List.length_singleton]
  obtain ⟨number, whole⟩ := absorbed.whole
  have padded : padWith bitBytes (a ++ b) = full ++
      (rest ++ (List.replicate (paddingZeros (a ++ b).length) 0 ++ bitBytes)) := by
    rw [padWith, ← List.append_assoc full, split, List.append_assoc _ [0x80], List.singleton_append]
  rw [padded, chunks_append (by decide) absorbed.whole, List.foldl_append, ← absorbed.state,
    paddingZeros]
  by_cases two : 56 < rest.length
  · have zeros : (119 - (a ++ b).length % 64) % 64 = (64 - rest.length) + 56 := by omega
    have isTwo : 56 < absorber.bufLen := by
      rw [absorbed.bufLen]
      exact two
    obtain ⟨-, state, size, held⟩ := zeroFill_eq 64 64 (by rw [absorbed.size])
      (by rw [absorbed.bufLen]; omega) (by omega : 64 ≤ absorber.bufLen + 64)
    have block : (zeroFill 64 64 absorber).buf = rest ++ List.replicate (64 - rest.length) 0 := by
      rw [absorbed.bufLen, absorbed.held] at held
      rw [← held, List.take_of_length_le]
      rw [size, absorbed.size]
    have first : (rest ++ List.replicate (64 - rest.length) (0 : UInt8)).length = 64 := by
      rw [List.length_append, List.length_replicate]
      omega
    have second : (List.replicate 56 0 ++ bitBytes).length = 64 := by
      rw [List.length_append, List.length_replicate, eight]
    rw [if_pos isTwo, state, block]
    generalize isNext : Absorber.mk (rest ++ List.replicate (64 - rest.length) 0) 0
      (process absorber.state (rest ++ List.replicate (64 - rest.length) 0)) = next
    have nextSize : next.buf.length = 64 := by
      rw [← isNext]
      exact first
    have nextLen : next.bufLen = 0 := by
      rw [← isNext]
    obtain ⟨-, stateAfter, sizeAfter, heldAfter⟩ := zeroFill_eq 56 64
      (by rw [nextSize]; decide) (by rw [nextLen]; decide) (by omega : 56 ≤ next.bufLen + 64)
    have cut : rest ++ (List.replicate ((64 - rest.length) + 56) 0 ++ bitBytes) =
        (rest ++ List.replicate (64 - rest.length) 0) ++ (List.replicate 56 0 ++ bitBytes) := by
      rw [List.replicate_add, List.append_assoc, List.append_assoc]
    rw [copyInto_last (by rw [sizeAfter, nextSize]) eight, stateAfter, heldAfter, zeros,
      cut, chunks_cons (by decide) first, chunks_single (by decide) second, ← isNext]
    rfl
  have zeros : (119 - (a ++ b).length % 64) % 64 = 56 - rest.length := by omega
  have notTwo : ¬ 56 < absorber.bufLen := by
    rw [absorbed.bufLen]
    exact two
  have single : (rest ++ (List.replicate (56 - rest.length) 0 ++ bitBytes)).length = 64 := by
    rw [List.length_append, List.length_append, List.length_replicate]
    omega
  obtain ⟨-, state, size, held⟩ := zeroFill_eq 56 64 (by rw [absorbed.size]; decide)
    (by omega) (by omega : 56 ≤ absorber.bufLen + 64)
  rw [if_neg notTwo, copyInto_last (by rw [size, absorbed.size]) eight, state, held,
    absorbed.bufLen, absorbed.held, zeros, chunks_single (by decide) single,
    List.append_assoc]
  rfl

end Blocks

theorem toNat_bitLen {length : Nat} (short : length < 2 ^ 61) :
    (UInt64.ofNat length * 8).toNat = length * 8 := by
  change length % 2 ^ 64 * 8 % 2 ^ 64 = length * 8
  omega

theorem hashConcat_eq_hashSlice {σ : Type u} (process : σ → List UInt8 → σ) (start : σ)
    (a b : List UInt8) : hashConcat process start a b = hashSlice process start (a ++ b) := by
  rw [hashConcat_eq, hashSlice_eq, List.length_append]

theorem hashSlice_padMessage {σ : Type u} (process : σ → List UInt8 → σ) (start : σ)
    {message : List UInt8} (short : message.length < 2 ^ 61) :
    hashSlice process start message = (chunks 64 (padMessage message)).foldl process start := by
  rw [hashSlice_eq, toNat_bitLen short, padMessage]

/-- The key in a block, hashed first when it is longer. -/
def hmacKey (key : List UInt8) : List UInt8 :=
  let short := if 64 < key.length then (sha256 key).val else key
  short ++ List.replicate (64 - short.length) 0

theorem length_hmacKey (key : List UInt8) : (hmacKey key).length = 64 := by
  rw [hmacKey, List.length_append, List.length_replicate]
  split
  · rw [(sha256 key).property]
  omega

theorem take_copyInto_copyInto (size : Nat) {block : List UInt8} (isBlock : block.length = 64)
    (slice : List UInt8) :
    (copyInto (copyInto (List.replicate (64 + size) 0) 0 block) 64 slice).take
        (64 + slice.length) = block ++ slice := by
  rw [copyInto_zero, copyInto_append isBlock, ← List.append_assoc,
    List.take_left' (by rw [List.length_append, isBlock])]

theorem hmacSha256_eq (key data : List UInt8) :
    hmacSha256 key data = sha256 ((hmacKey key).map (· ^^^ 0x5C) ++
      (sha256 ((hmacKey key).map (· ^^^ 0x36) ++ data)).val) := by
  have kPad : (if 64 < key.length then copyInto (List.replicate 64 0) 0 (sha256 key).val
      else copyInto (List.replicate 64 0) 0 key) = hmacKey key := by
    rw [hmacKey]
    split <;> rw [copyInto_zero]
  have block : ∀ pad : UInt8, ((hmacKey key).map (· ^^^ pad)).length = 64 := by
    intro pad
    rw [List.length_map, length_hmacKey]
  have inner : (if data.length ≤ 1024 then
      sha256 ((copyInto (copyInto (List.replicate (64 + 1024) 0) 0
        ((hmacKey key).map (· ^^^ 0x36))) 64 data).take (64 + data.length))
      else sha256Concat ((hmacKey key).map (· ^^^ 0x36)) data) =
        sha256 ((hmacKey key).map (· ^^^ 0x36) ++ data) := by
    split
    · rw [take_copyInto_copyInto 1024 (block 0x36)]
    rw [sha256Concat, hashConcat_eq_hashSlice, sha256]
  have outer : ∀ hash : FixedBytes 32,
      copyInto (copyInto (List.replicate (64 + 32) 0) 0 ((hmacKey key).map (· ^^^ 0x5C))) 64
        hash.val = (hmacKey key).map (· ^^^ 0x5C) ++ hash.val := by
    intro hash
    have prefixed : (copyInto (List.replicate (64 + 32) 0) 0
        ((hmacKey key).map (· ^^^ 0x5C))).length = 64 + 32 := by
      rw [length_copyInto, List.length_replicate]
      rw [block]
      decide
    have all : 64 + hash.val.length = 64 + 32 := by
      rw [hash.property]
    rw [← take_copyInto_copyInto 32 (block 0x5C) hash.val, List.take_of_length_le]
    rw [length_copyInto (by rw [prefixed, all]), prefixed, all]
  rw [hmacSha256]
  rw [kPad, inner, outer]

/-- Hashing in two parts, the blocks of a hash, and the branches of the keyed hash are as
they should be. -/
theorem hashes_agree : (∀ a b, sha256Concat a b = sha256 (a ++ b)) ∧
      (∀ message : List UInt8, message.length < 2 ^ 61 →
        (∀ {σ : Type u} (process : σ → List UInt8 → σ) (start : σ),
          hashSlice process start message = (chunks 64 (padMessage message)).foldl process start) ∧
        sha256 message = ((chunks 64 (padMessage message)).foldl processBlock .start).output) ∧
      ∀ key data, hmacSha256 key data = sha256 ((hmacKey key).map (· ^^^ 0x5C) ++
        (sha256 ((hmacKey key).map (· ^^^ 0x36) ++ data)).val) := by
  refine ⟨?_, ?_, hmacSha256_eq⟩
  · intro a b
    rw [sha256Concat, hashConcat_eq_hashSlice, sha256]
  intro message short
  refine ⟨fun process start => hashSlice_padMessage process start short, ?_⟩
  rw [sha256, hashSlice_padMessage processBlock .start short]

example : (sha256 [0x61, 0x62, 0x63]).val =
    [0xba, 0x78, 0x16, 0xbf, 0x8f, 0x01, 0xcf, 0xea, 0x41, 0x41, 0x40, 0xde, 0x5d, 0xae, 0x22,
      0x23, 0xb0, 0x03, 0x61, 0xa3, 0x96, 0x17, 0x7a, 0x9c, 0xb4, 0x10, 0xff, 0x61, 0xf2, 0x00,
      0x15, 0xad] := by
  decide +kernel

end Eidolon.Net
