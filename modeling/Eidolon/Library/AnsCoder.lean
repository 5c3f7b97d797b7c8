import Mathlib.Data.List.Basic
import Mathlib.Tactic.NormNum

/-!
# Range asymmetric numeral systems

The arithmetic of the rANS coder over arbitrary parameters.  The slots below `scale`
are divided among the symbols; coding a symbol replaces the state `x` by a number
whose residue modulo `scale` is a slot of the symbol, and decoding inverts that.  A
stack of digits below `radix` keeps the state in the interval
`[ratio * scale, ratio * radix * scale)`, where one digit is always enough.
-/

namespace Eidolon.Library.Ans

open List

/-- The slots of one symbol: `freq` of them, from `start` on, below `scale`. -/
structure Segment (scale : Nat) where
  start : Nat
  freq : Nat
  freq_pos : 0 < freq
  fits : start + freq ≤ scale

namespace Segment

variable {scale : Nat}

theorem scale_pos (segment : Segment scale) : 0 < scale :=
  Nat.lt_of_lt_of_le (Nat.add_pos_right _ segment.freq_pos) segment.fits

variable (segment : Segment scale) (x : Nat)

/-- The state transition of the encoder. -/
def absorb : Nat :=
  x / segment.freq * scale + x % segment.freq + segment.start

/-- The state transition of the decoder. -/
def release (y : Nat) : Nat :=
  segment.freq * (y / scale) + (y % scale - segment.start)

private theorem offset_lt : x % segment.freq + segment.start < scale := by
  have remainder := Nat.mod_lt x segment.freq_pos
  have fits := segment.fits
  omega

theorem absorb_mod : segment.absorb x % scale = x % segment.freq + segment.start := by
  rw [absorb, Nat.add_assoc, Nat.mul_add_mod', Nat.mod_eq_of_lt (segment.offset_lt x)]

theorem absorb_div : segment.absorb x / scale = x / segment.freq := by
  rw [absorb, Nat.add_assoc, Nat.mul_comm, Nat.mul_add_div segment.scale_pos,
    Nat.div_eq_of_lt (segment.offset_lt x), Nat.add_zero]

theorem release_absorb : segment.release (segment.absorb x) = x := by
  rw [release, absorb_div, absorb_mod, Nat.add_sub_cancel]
  exact Nat.div_add_mod x segment.freq

theorem le_absorb {ratio x : Nat} (low : ratio * segment.freq ≤ x) :
    ratio * scale ≤ segment.absorb x := by
  have quotient : ratio ≤ x / segment.freq :=
    (Nat.le_div_iff_mul_le segment.freq_pos).2 low
  calc
    ratio * scale ≤ x / segment.freq * scale := Nat.mul_le_mul_right scale quotient
    _ ≤ segment.absorb x := by
      rw [absorb]
      omega

theorem absorb_lt {bound x : Nat} (high : x < bound * segment.freq) :
    segment.absorb x < bound * scale := by
  have quotient : x / segment.freq < bound :=
    (Nat.div_lt_iff_lt_mul segment.freq_pos).2 high
  have offset := segment.offset_lt x
  calc
    segment.absorb x < (x / segment.freq + 1) * scale := by
      rw [absorb, Nat.add_mul]
      omega
    _ ≤ bound * scale := Nat.mul_le_mul_right scale quotient

theorem le_release {ratio y : Nat} (low : ratio * scale ≤ y) : ratio ≤ segment.release y := by
  have quotient : ratio ≤ y / scale :=
    (Nat.le_div_iff_mul_le segment.scale_pos).2 low
  calc
    ratio ≤ y / scale := quotient
    _ ≤ segment.freq * (y / scale) := Nat.le_mul_of_pos_left _ segment.freq_pos
    _ ≤ segment.release y := Nat.le_add_right _ _

end Segment

/-- A coder state: the number and the digits moved out of it, the last one first. -/
structure Stack where
  state : Nat
  digits : List Nat

section Stack

variable (ratio radix scale : Nat)

/-- The states between two symbols. -/
def InRange (state : Nat) : Prop :=
  ratio * scale ≤ state ∧ state < ratio * radix * scale

variable {scale} (segment : Segment scale) (stack : Stack)

/-- Moves one digit out when the next transition would leave the interval. -/
def emit : Stack :=
  if ratio * radix * segment.freq ≤ stack.state then
    { state := stack.state / radix, digits := stack.state % radix :: stack.digits }
  else
    stack

variable (scale) in
/-- Moves one digit back in when the number has fallen below the interval. -/
def refill : Stack :=
  if stack.state < ratio * scale then
    match stack.digits with
    | [] => stack
    | digit :: digits => { state := stack.state * radix + digit, digits := digits }
  else
    stack

def push : Stack :=
  let emitted := emit ratio radix segment stack
  { emitted with state := segment.absorb emitted.state }

def pop : Stack :=
  refill ratio radix scale { stack with state := segment.release stack.state }

variable {ratio radix}

theorem emit_bounds (segment : Segment scale) {stack : Stack} (wide : scale ≤ radix)
    (valid : InRange ratio radix scale stack.state) :
    ratio * segment.freq ≤ (emit ratio radix segment stack).state ∧
      (emit ratio radix segment stack).state < ratio * radix * segment.freq := by
  have freqSmall : segment.freq ≤ scale := by
    have fits := segment.fits
    omega
  have radixPos : 0 < radix := Nat.lt_of_lt_of_le segment.scale_pos wide
  unfold emit
  split
  · rename_i large
    constructor
    · apply (Nat.le_div_iff_mul_le radixPos).2
      calc
        ratio * segment.freq * radix = ratio * radix * segment.freq := Nat.mul_right_comm ..
        _ ≤ stack.state := large
    have divided : stack.state / radix < ratio * scale := by
      apply (Nat.div_lt_iff_lt_mul radixPos).2
      calc
        stack.state < ratio * radix * scale := valid.2
        _ = ratio * scale * radix := Nat.mul_right_comm ..
    calc
      stack.state / radix < ratio * scale := divided
      _ ≤ ratio * radix := Nat.mul_le_mul_left ratio wide
      _ ≤ ratio * radix * segment.freq := Nat.le_mul_of_pos_right _ segment.freq_pos
  constructor
  · exact Nat.le_trans (Nat.mul_le_mul_left ratio freqSmall) valid.1
  omega

variable {stack : Stack}

theorem push_inRange (wide : scale ≤ radix) (valid : InRange ratio radix scale stack.state) :
    InRange ratio radix scale (push ratio radix segment stack).state := by
  have bounds := emit_bounds segment wide valid
  exact ⟨segment.le_absorb bounds.1, segment.absorb_lt bounds.2⟩

theorem refill_emit (wide : scale ≤ radix) (valid : InRange ratio radix scale stack.state) :
    refill ratio radix scale (emit ratio radix segment stack) = stack := by
  have radixPos : 0 < radix := Nat.lt_of_lt_of_le segment.scale_pos wide
  have divided : stack.state / radix < ratio * scale := by
    apply (Nat.div_lt_iff_lt_mul radixPos).2
    calc
      stack.state < ratio * radix * scale := valid.2
      _ = ratio * scale * radix := Nat.mul_right_comm ..
  unfold emit
  split
  · simp only [refill, divided, if_true, Nat.div_add_mod']
  have notBelow : ¬ stack.state < ratio * scale := Nat.not_lt.2 valid.1
  rw [refill, if_neg notBelow]

theorem pop_push (wide : scale ≤ radix) (valid : InRange ratio radix scale stack.state) :
    pop ratio radix segment (push ratio radix segment stack) = stack := by
  simp only [pop, push, Segment.release_absorb]
  exact refill_emit segment wide valid

end Stack

/-- A division of the slots among symbols, with the lookup of the symbol of a slot. -/
structure SlotTable (scale : Nat) (Symbol : Type) where
  start : Symbol → Nat
  freq : Symbol → Nat
  symbolAt : Nat → Symbol
  fits : ∀ symbol, 0 < freq symbol → start symbol + freq symbol ≤ scale
  symbolAt_eq : ∀ symbol slot, start symbol ≤ slot → slot < start symbol + freq symbol →
    symbolAt slot = symbol

namespace SlotTable

variable {scale : Nat} {Symbol : Type} (ratio radix : Nat) (table : SlotTable scale Symbol)

def segment (symbol : Symbol) (occurs : 0 < table.freq symbol) : Segment scale where
  start := table.start symbol
  freq := table.freq symbol
  freq_pos := occurs
  fits := table.fits symbol occurs

def push (table : SlotTable scale Symbol) (symbol : Symbol) (stack : Stack) : Stack :=
  if occurs : 0 < table.freq symbol then
    Ans.push ratio radix (table.segment symbol occurs) stack
  else
    stack

def pop (table : SlotTable scale Symbol) (stack : Stack) : Symbol × Stack :=
  let symbol := table.symbolAt (stack.state % scale)
  (symbol, if occurs : 0 < table.freq symbol then
    Ans.pop ratio radix (table.segment symbol occurs) stack
  else
    stack)

variable {ratio radix}

theorem push_inRange (symbol : Symbol) {stack : Stack} (wide : scale ≤ radix)
    (valid : InRange ratio radix scale stack.state) :
    InRange ratio radix scale (table.push ratio radix symbol stack).state := by
  unfold push
  split
  · exact Ans.push_inRange _ wide valid
  exact valid

private theorem symbolAt_push {symbol : Symbol} (occurs : 0 < table.freq symbol) (stack : Stack) :
    table.symbolAt ((Ans.push ratio radix (table.segment symbol occurs) stack).state % scale)
      = symbol := by
  have remainder := fun x => Nat.mod_lt x occurs
  rw [Ans.push, Segment.absorb_mod]
  apply table.symbolAt_eq
  · exact Nat.le_add_left _ _
  rw [Nat.add_comm]
  exact Nat.add_lt_add_left (remainder _) _

theorem pop_push {symbol : Symbol} {stack : Stack} (wide : scale ≤ radix)
    (occurs : 0 < table.freq symbol) (valid : InRange ratio radix scale stack.state) :
    table.pop ratio radix (table.push ratio radix symbol stack) = (symbol, stack) := by
  rw [push]
  simp only [pop, symbolAt_push, dif_pos occurs, Ans.pop_push _ wide valid]

end SlotTable

section Sequence

variable {Symbol Writer Reader : Type}

/-- Reads the given number of symbols one after the other. -/
def readAll (read : Reader → Symbol × Reader) : Nat → Reader → List Symbol × Reader
  | 0, reader => ([], reader)
  | count + 1, reader =>
    let (symbol, reader) := read reader
    let (symbols, reader) := readAll read count reader
    (symbol :: symbols, reader)

theorem readAll_foldr (write : Symbol → Writer → Writer) (read : Reader → Symbol × Reader)
    (shows : Reader → Writer → Prop) (valid : Writer → Prop) (coded : Symbol → Prop)
    (keeps : ∀ symbol writer, coded symbol → valid writer → valid (write symbol writer))
    (undoes : ∀ symbol writer reader, coded symbol → valid writer →
      shows reader (write symbol writer) → (read reader).1 = symbol ∧ shows (read reader).2 writer)
    {symbols : List Symbol} (allCoded : ∀ symbol ∈ symbols, coded symbol)
    {writer : Writer} (writerValid : valid writer)
    {reader : Reader} (readerShows : shows reader (symbols.foldr write writer)) :
    (readAll read symbols.length reader).1 = symbols := by
  have allValid : ∀ rest : List Symbol, (∀ symbol ∈ rest, coded symbol) →
      valid (rest.foldr write writer) := by
    intro rest restCoded
    induction rest with
    | nil => exact writerValid
    | cons symbol rest ih =>
      have tailCoded := fun other member => restCoded other (mem_cons_of_mem symbol member)
      exact keeps symbol _ (restCoded symbol mem_cons_self) (ih tailCoded)
  induction symbols generalizing reader with
  | nil => rfl
  | cons symbol rest ih =>
    have restCoded := fun other member => allCoded other (mem_cons_of_mem symbol member)
    have undone := undoes symbol _ reader (allCoded symbol mem_cons_self)
      (allValid rest restCoded) readerShows
    have restRead := ih restCoded undone.2
    simp only [length_cons, readAll, undone.1, restRead]

end Sequence

end Eidolon.Library.Ans
