import Eidolon.Net.Rans
import Mathlib.Algebra.Order.BigOperators.Group.List

/-!
# Normalised symbol tables

The adjustment loops bring the frequencies to a total of 256 without losing a symbol,
the running sums are the prefix sums of the frequencies, and the inverse lookup maps
each slot to the symbol whose interval it lies in.
-/

namespace Eidolon.Net.RansSymbolTable

open Library List Nat UInt64

@[simp]
theorem frequencySum_nil : frequencySum [] = 0 :=
  rfl

@[simp]
theorem frequencySum_cons (f : UInt16) (freqs : List UInt16) :
    frequencySum (f :: freqs) = f.toNat + frequencySum freqs := by
  simp [frequencySum]

@[simp]
theorem frequencySum_append (first second : List UInt16) :
    frequencySum (first ++ second) = frequencySum first + frequencySum second := by
  simp [frequencySum]

@[simp]
theorem frequencySum_replicate_zero (count : Nat) : frequencySum (List.replicate count 0) = 0 := by
  simp [frequencySum]

def occurring (freqs : List UInt16) : List Bool :=
  freqs.map fun f => decide (0 < f)

variable {freqs : List UInt16} {f : UInt16} {index : Nat}

theorem frequencySum_modify (found : freqs[index]? = some f) (change : UInt16 → UInt16) :
    frequencySum (freqs.modify index change) + f.toNat = frequencySum freqs + (change f).toNat := by
  induction freqs generalizing index with
  | nil => simp at found
  | cons head tail ih =>
    cases index with
    | zero =>
      simp only [getElem?_cons_zero, Option.some.injEq] at found
      subst head
      simp only [modify_zero_cons, frequencySum_cons]
      omega
    | succ index =>
      simp only [getElem?_cons_succ] at found
      have tailSum := ih found
      simp only [modify_succ_cons, frequencySum_cons]
      omega

theorem occurring_modify (found : freqs[index]? = some f) (change : UInt16 → UInt16)
    (positive : 0 < f) (changedPositive : 0 < change f) :
    occurring (freqs.modify index change) = occurring freqs := by
  induction freqs generalizing index with
  | nil => simp at found
  | cons head tail ih =>
    cases index with
    | zero =>
      simp only [getElem?_cons_zero, Option.some.injEq] at found
      subst head
      simp [occurring, positive, changedPositive]
    | succ index =>
      simp only [getElem?_cons_succ] at found
      have tailSame := ih found
      simp only [occurring] at tailSame ⊢
      simp only [modify_succ_cons, map_cons, tailSame]

theorem getElem?_le_frequencySum (found : freqs[index]? = some f) :
    f.toNat ≤ frequencySum freqs := by
  have changed := frequencySum_modify found fun _ => 0
  simp only [UInt16.toNat_zero] at changed
  omega

/-- The scan returns its start value or an entry above the floor, and keeps the start
value only when no entry is above the floor and above that value. -/
theorem largestFrequency_spec (floor : UInt16) (offset : Nat) (freqs : List UInt16)
    (best : Nat × UInt16) :
    (∃ position, (largestFrequency floor offset freqs best).1 = offset + position ∧
        freqs[position]? = some (largestFrequency floor offset freqs best).2 ∧
        floor < (largestFrequency floor offset freqs best).2) ∨
      (largestFrequency floor offset freqs best = best ∧
        ∀ f ∈ freqs, ¬ (best.2 < f ∧ floor < f)) := by
  induction freqs generalizing offset best with
  | nil => exact Or.inr ⟨rfl, fun f member => absurd member not_mem_nil⟩
  | cons f freqs ih =>
    simp only [largestFrequency]
    split
    · rename_i better
      left
      rcases ih (offset + 1) (offset, f) with
        ⟨position, index, found, above⟩ | ⟨unchanged, _⟩
      · exact ⟨position + 1, by omega, by simpa using found, above⟩
      rw [unchanged]
      exact ⟨0, rfl, rfl, better.2⟩
    rename_i notBetter
    rcases ih (offset + 1) best with
      ⟨position, index, found, above⟩ | ⟨unchanged, none⟩
    · exact Or.inl ⟨position + 1, by omega, by simpa using found, above⟩
    refine Or.inr ⟨unchanged, fun other member => ?_⟩
    rcases mem_cons.1 member with equal | member
    · exact equal ▸ notBetter
    exact none other member

theorem largestFrequency_found {floor : UInt16} (above : ∃ f ∈ freqs, floor < f) :
    freqs[(largestFrequency floor 0 freqs (0, 0)).1]? =
        some (largestFrequency floor 0 freqs (0, 0)).2 ∧
      floor < (largestFrequency floor 0 freqs (0, 0)).2 := by
  rcases largestFrequency_spec floor 0 freqs (0, 0) with
    ⟨position, index, found, large⟩ | ⟨_, none⟩
  · rw [zero_add] at index
    exact ⟨index ▸ found, large⟩
  obtain ⟨f, member, large⟩ := above
  have positive : 0 < f := by
    rw [UInt16.lt_iff_toNat_lt] at large ⊢
    simp only [UInt16.toNat_zero]
    omega
  exact absurd ⟨positive, large⟩ (none f member)

private theorem exists_aboveOne (freqs : List UInt16)
    (crowded : freqs.length < frequencySum freqs) : ∃ f ∈ freqs, 1 < f := by
  induction freqs with
  | nil => simp at crowded
  | cons f freqs ih =>
    by_cases large : 1 < f
    · exact ⟨f, mem_cons_self, large⟩
    rw [UInt16.lt_iff_toNat_lt] at large
    simp only [UInt16.toNat_one] at large
    simp only [length_cons, frequencySum_cons] at crowded
    obtain ⟨other, member, above⟩ := ih (by omega)
    exact ⟨other, mem_cons_of_mem f member, above⟩

private theorem exists_positive (positive : 0 < frequencySum freqs) : ∃ f ∈ freqs, 0 < f := by
  induction freqs with
  | nil => simp at positive
  | cons f freqs ih =>
    by_cases occurs : 0 < f
    · exact ⟨f, mem_cons_self, occurs⟩
    rw [UInt16.lt_iff_toNat_lt] at occurs
    simp only [UInt16.toNat_zero] at occurs
    simp only [frequencySum_cons] at positive
    obtain ⟨other, member, above⟩ := ih (by omega)
    exact ⟨other, mem_cons_of_mem f member, above⟩

theorem decrementLargest_spec (excess : Nat) {freqs : List UInt16}
    (crowded : freqs.length + excess ≤ frequencySum freqs) :
    frequencySum (decrementLargest excess freqs) = frequencySum freqs - excess ∧
      occurring (decrementLargest excess freqs) = occurring freqs := by
  induction excess generalizing freqs with
  | zero => exact ⟨rfl, rfl⟩
  | succ excess ih =>
    obtain ⟨found, large⟩ :=
      largestFrequency_found (exists_aboveOne freqs (by omega))
    have notSmall := UInt16.not_le.2 large
    rw [UInt16.lt_iff_toNat_lt, UInt16.toNat_one] at large
    have oneLess : ((largestFrequency 1 0 freqs (0, 0)).2 - 1).toNat =
        (largestFrequency 1 0 freqs (0, 0)).2.toNat - 1 := by
      rw [UInt16.toNat_sub_of_le _ _ (by rw [UInt16.le_iff_toNat_le, UInt16.toNat_one]; omega),
        UInt16.toNat_one]
    have sum := frequencySum_modify found (· - 1)
    have same := occurring_modify found (· - 1)
      (by rw [UInt16.lt_iff_toNat_lt, UInt16.toNat_zero]; omega)
      (by rw [UInt16.lt_iff_toNat_lt, UInt16.toNat_zero, oneLess]; omega)
    have rest := @ih (freqs.modify (largestFrequency 1 0 freqs (0, 0)).1 (· - 1))
      (by rw [length_modify]; omega)
    simp only [decrementLargest, notSmall, if_false, rest.1, rest.2, same, and_true]
    omega

theorem incrementLargest_spec (missing : Nat) (positive : 0 < frequencySum freqs)
    (small : frequencySum freqs + missing < 2 ^ 16) :
    frequencySum (incrementLargest missing freqs) = frequencySum freqs + missing ∧
      occurring (incrementLargest missing freqs) = occurring freqs := by
  induction missing generalizing freqs with
  | zero => exact ⟨rfl, rfl⟩
  | succ missing ih =>
    obtain ⟨found, large⟩ := largestFrequency_found (exists_positive positive)
    have bounded := getElem?_le_frequencySum found
    have oneMore : ((largestFrequency 0 0 freqs (0, 0)).2 + 1).toNat =
        (largestFrequency 0 0 freqs (0, 0)).2.toNat + 1 := by
      rw [UInt16.toNat_add, UInt16.toNat_one]
      omega
    have sum := frequencySum_modify found (· + 1)
    have same := occurring_modify found (· + 1) large
      (by rw [UInt16.lt_iff_toNat_lt, UInt16.toNat_zero, oneMore]; omega)
    have rest := @ih (freqs.modify (largestFrequency 0 0 freqs (0, 0)).1 (· + 1))
      (by omega) (by omega)
    simp only [incrementLargest, rest.1, rest.2, same, and_true]
    omega

theorem adjustToScale_spec (short : freqs.length ≤ 256) (positive : 0 < frequencySum freqs) :
    frequencySum (adjustToScale freqs) = ransScaleSum ∧
      occurring (adjustToScale freqs) = occurring freqs := by
  by_cases above : ransScaleSum < frequencySum freqs
  · have decremented := @decrementLargest_spec
      (frequencySum freqs - ransScaleSum) freqs (by simp only [ransScaleSum] at *; omega)
    have nothingMissing : ransScaleSum - frequencySum freqs = 0 := by omega
    simp only [adjustToScale, nothingMissing, incrementLargest, decremented, and_true]
    omega
  have nothingExcess : frequencySum freqs - ransScaleSum = 0 := by omega
  have incremented := incrementLargest_spec (ransScaleSum - frequencySum freqs)
    positive (by simp only [ransScaleSum] at *; omega)
  simp only [adjustToScale, nothingExcess, decrementLargest, incremented, and_true]
  omega

/-- A raw count within the total is scaled to at most 256, and not to zero unless it is
zero itself. -/
theorem scaledFrequency_pos_iff {totalRaw raw : UInt32} (within : raw ≤ totalRaw) :
    0 < scaledFrequency totalRaw raw ↔ 0 < raw := by
  unfold scaledFrequency
  split
  · rename_i positive
    simp only [positive, iff_true]
    rw [UInt16.lt_iff_toNat_lt]
    rw [UInt32.le_iff_toNat_le] at within
    rw [UInt32.lt_iff_toNat_lt] at positive
    have rawSmall := raw.toNat_lt
    simp only [UInt32.toNat_zero] at positive
    have product : (raw.toUInt64 * UInt64.ofNat ransScaleSum).toNat = raw.toNat * 256 := by
      rw [UInt64.toNat_mul, UInt32.toNat_toUInt64]
      simp only [ransScaleSum, toNat_ofNat']
      omega
    have quotient : (raw.toUInt64 * UInt64.ofNat ransScaleSum / totalRaw.toUInt64).toNat ≤ 256 := by
      rw [UInt64.toNat_div, product, UInt32.toNat_toUInt64]
      exact Nat.div_le_of_le_mul (Nat.mul_le_mul_right 256 within)
    generalize raw.toUInt64 * UInt64.ofNat ransScaleSum / totalRaw.toUInt64 = scaled at quotient
    rw [UInt64.toNat_toUInt16, UInt16.toNat_zero]
    have atLeastOne : 1 ≤ (max scaled 1).toNat ∧ (max scaled 1).toNat ≤ 256 := by
      rw [UInt64.max_def]
      split
      · simp
      rename_i more
      rw [le_iff_toNat_le, toNat_one] at more
      omega
    omega
  rename_i zero
  simp only [zero, iff_false]
  decide

def slotsBefore (freqs : List UInt16) (symbol : Nat) : Nat :=
  frequencySum (freqs.take symbol)

theorem slotsBefore_le (freqs : List UInt16) (symbol : Nat) :
    slotsBefore freqs symbol ≤ frequencySum freqs := by
  have parts := frequencySum_append (freqs.take symbol) (freqs.drop symbol)
  rw [take_append_drop] at parts
  simp only [slotsBefore]
  omega

variable {symbol : Nat}

theorem slotsBefore_succ (found : freqs[symbol]? = some f) :
    slotsBefore freqs (symbol + 1) = slotsBefore freqs symbol + f.toNat := by
  simp only [slotsBefore, take_add_one, found, Option.toList_some, frequencySum_append,
    frequencySum_cons, frequencySum_nil, add_zero]

theorem cumulativeFrequencies_getElem? (runningSum : UInt16) (freqs : List UInt16)
    (small : runningSum.toNat + frequencySum freqs < 2 ^ 16) (inside : symbol ≤ freqs.length) :
    (cumulativeFrequencies runningSum freqs)[symbol]? =
      some (UInt16.ofNat (runningSum.toNat + slotsBefore freqs symbol)) := by
  induction freqs generalizing runningSum symbol with
  | nil =>
    have first : symbol = 0 := le_zero.1 inside
    subst first
    simp [cumulativeFrequencies, slotsBefore]
  | cons f freqs ih =>
    cases symbol with
    | zero => simp [cumulativeFrequencies, slotsBefore]
    | succ symbol =>
      simp only [frequencySum_cons] at small
      have added : (runningSum + f).toNat = runningSum.toNat + f.toNat := by
        rw [UInt16.toNat_add]
        omega
      have tail := ih (runningSum + f) (by omega) (le_of_succ_le_succ inside)
      simp only [cumulativeFrequencies, getElem?_cons_succ, tail, added, slotsBefore,
        take_succ_cons, frequencySum_cons, add_assoc]

theorem fillSlots_getElem? (slots : List UInt8) (start stop : Nat) (symbol : UInt8)
    {slot : Nat} (inside : slot < slots.length) :
    (fillSlots slots start stop symbol)[slot]? =
      if start ≤ slot ∧ slot < stop then some symbol else slots[slot]? := by
  simp only [fillSlots, getElem?_mapIdx, getElem?_eq_getElem inside, Option.map_some]
  split <;> rfl

/-- Filling from a symbol on leaves the slots before it, and gives the slots of every
later symbol to that symbol. -/
theorem fillSymbols_spec {freqs : List UInt16} (total : frequencySum freqs = ransScaleSum)
    {cumFreqs : List UInt16}
    (prefixSums : ∀ symbol < freqs.length,
      (cumFreqs.getD symbol 0).toNat = slotsBefore freqs symbol)
    {before : List UInt16} (rest : List UInt16) (split : freqs = before ++ rest)
    (slots : List UInt8) (allSlots : slots.length = ransScaleSum) :
    (∀ slot, slot < slotsBefore freqs before.length →
        (fillSymbols cumFreqs before.length rest slots)[slot]? = slots[slot]?) ∧
      (∀ symbol f slot, before.length ≤ symbol → freqs[symbol]? = some f →
        slotsBefore freqs symbol ≤ slot → slot < slotsBefore freqs symbol + f.toNat →
        (fillSymbols cumFreqs before.length rest slots)[slot]? = some (UInt8.ofNat symbol)) := by
  induction rest generalizing before slots with
  | nil =>
    refine ⟨fun _ _ => rfl, fun symbol f slot later found => ?_⟩
    rw [split, append_nil, getElem?_eq_none later] at found
    exact absurd found (by simp)
  | cons head rest ih =>
    have headFound : freqs[before.length]? = some head := by
      rw [split]
      simp
    have headInside : before.length < freqs.length := by
      rw [split]
      simp
    have next := slotsBefore_succ headFound
    have nextSmall := slotsBefore_le freqs (before.length + 1)
    have start : min (cumFreqs.getD before.length 0).toNat ransScaleSum =
        slotsBefore freqs before.length := by
      rw [prefixSums before.length headInside]
      omega
    have stop : min (slotsBefore freqs before.length + head.toNat) ransScaleSum =
        slotsBefore freqs before.length + head.toNat := by
      omega
    have tail := @ih (before ++ [head]) (by simpa using split)
      (fillSlots slots (slotsBefore freqs before.length)
        (slotsBefore freqs before.length + head.toNat) (UInt8.ofNat before.length))
      (by simpa [fillSlots] using allSlots)
    rw [length_append, length_singleton] at tail
    simp only [fillSymbols, start, stop]
    constructor
    · intro slot early
      rw [tail.1 slot (by omega), fillSlots_getElem? _ _ _ _ (by omega), if_neg (by omega)]
    intro symbol f slot later found low high
    rcases eq_or_lt_of_le later with equal | later
    · subst equal
      rw [headFound] at found
      cases found
      rw [tail.1 slot (by omega), fillSlots_getElem? _ _ _ _ (by omega), if_pos (by omega)]
    exact tail.2 symbol f slot later found low high

/-- What `from_frequencies` promises of a table. -/
structure Normalized (table : RansSymbolTable) : Prop where
  total : frequencySum table.freqs = ransScaleSum
  startOf_eq : ∀ symbol, (table.startOf symbol).toNat = slotsBefore table.freqs symbol.toNat
  slotToSymbol_eq : ∀ symbol slot,
    (table.startOf symbol).toNat ≤ slot →
    slot < (table.startOf symbol).toNat + (table.freqOf symbol).toNat →
    table.slotToSymbol.getD slot 0 = symbol

variable {table : RansSymbolTable}

theorem Normalized.fits (normalized : table.Normalized) (symbol : UInt8) :
    (table.startOf symbol).toNat + (table.freqOf symbol).toNat ≤ ransScaleSum := by
  have inside : symbol.toNat < table.freqs.length := by
    rw [table.freqs_length]
    exact symbol.toNat_lt
  have found := getElem?_eq_getElem inside
  have next := slotsBefore_succ found
  have small := slotsBefore_le table.freqs (symbol.toNat + 1)
  rw [normalized.total, next, ← normalized.startOf_eq] at small
  simpa only [freqOf, getD_eq_getElem?_getD, found, Option.getD_some] using small

variable {used : List UInt16} (short : used.length ≤ 256)

theorem ofAdjusted_freqOf (symbol : UInt8) :
    (ofAdjusted used short).freqOf symbol = used.getD symbol.toNat 0 := by
  simp only [freqOf, ofAdjusted, getD_eq_getElem?_getD, getElem?_append]
  split
  · rfl
  rename_i past
  rw [getElem?_eq_none (Nat.le_of_not_lt past), getElem?_replicate]
  split <;> rfl

private theorem ofAdjusted_slotsBefore (inside : symbol ≤ used.length) :
    slotsBefore (ofAdjusted used short).freqs symbol = slotsBefore used symbol := by
  simp only [slotsBefore, ofAdjusted, take_append_of_le_length inside]

private theorem ofAdjusted_cumFreqs (total : frequencySum used = ransScaleSum)
    (inside : symbol ≤ 256) :
    ((ofAdjusted used short).cumFreqs.getD symbol 0).toNat =
      slotsBefore (ofAdjusted used short).freqs symbol := by
  have freqsLength := (ofAdjusted used short).freqs_length
  have freqsTotal : frequencySum (ofAdjusted used short).freqs = ransScaleSum := by
    simp [ofAdjusted, total]
  have bounded := slotsBefore_le (ofAdjusted used short).freqs symbol
  have found := cumulativeFrequencies_getElem? 0 (ofAdjusted used short).freqs
    (by simp only [UInt16.toNat_zero, freqsTotal, ransScaleSum]; omega)
    (le_trans inside (le_of_eq freqsLength.symm))
  rw [getD_eq_getElem?_getD]
  change ((cumulativeFrequencies 0 (ofAdjusted used short).freqs)[symbol]?.getD 0).toNat = _
  rw [found, Option.getD_some, UInt16.toNat_ofNat', UInt16.toNat_zero, zero_add]
  simp only [freqsTotal, ransScaleSum] at bounded
  omega

theorem ofAdjusted_normalized (total : frequencySum used = ransScaleSum) :
    (ofAdjusted used short).Normalized := by
  have startOf_eq : ∀ symbol : UInt8, ((ofAdjusted used short).startOf symbol).toNat =
      slotsBefore (ofAdjusted used short).freqs symbol.toNat :=
    fun symbol => ofAdjusted_cumFreqs short total (le_of_lt symbol.toNat_lt)
  refine ⟨by simp [ofAdjusted, total], startOf_eq, ?_⟩
  intro symbol slot low high
  rw [ofAdjusted_freqOf] at high
  have inside : symbol.toNat < used.length := by
    by_contra past
    rw [getD_eq_getElem?_getD, getElem?_eq_none (Nat.le_of_not_lt past)] at high
    simp only [Option.getD_none, UInt16.toNat_zero] at high
    omega
  rw [startOf_eq, ofAdjusted_slotsBefore short (le_of_lt inside)] at low high
  have prefixSums : ∀ symbol < used.length,
      ((ofAdjusted used short).cumFreqs.getD symbol 0).toNat = slotsBefore used symbol := by
    intro symbol early
    rw [ofAdjusted_cumFreqs short total (by omega), ofAdjusted_slotsBefore short (by omega)]
  have found : used[symbol.toNat]? = some (used.getD symbol.toNat 0) := by
    rw [getD_eq_getElem?_getD, getElem?_eq_getElem inside, Option.getD_some]
  have filled := (@fillSymbols_spec _ total _ prefixSums [] used rfl
    (List.replicate ransScaleSum 0) (by simp)).2
    symbol.toNat _ slot (zero_le _) found low high
  rw [getD_eq_getElem?_getD]
  change ((fillSymbols (ofAdjusted used short).cumFreqs 0 used
    (List.replicate ransScaleSum 0))[slot]?.getD 0) = symbol
  rw [length_nil] at filled
  rw [filled, Option.getD_some, UInt8.ofNat_toNat]

variable {rawFreqs : List UInt32}

private theorem toNat_rawSum (fits : (rawFreqs.map UInt32.toNat).sum < 2 ^ 32) :
    rawFreqs.sum.toNat = (rawFreqs.map UInt32.toNat).sum := by
  induction rawFreqs with
  | nil => rfl
  | cons raw rawFreqs ih =>
    simp only [map_cons, sum_cons] at fits ⊢
    rw [UInt32.toNat_add, ih (by omega)]
    omega

theorem occurring_scaledFrequency (fits : (rawFreqs.map UInt32.toNat).sum < 2 ^ 32) :
    occurring (rawFreqs.map (scaledFrequency rawFreqs.sum)) =
      rawFreqs.map fun raw => decide (0 < raw) := by
  simp only [occurring, map_map]
  apply map_congr_left
  intro raw member
  have within : raw ≤ rawFreqs.sum := by
    rw [UInt32.le_iff_toNat_le, toNat_rawSum fits]
    exact le_sum_of_mem (mem_map_of_mem member)
  simp only [Function.comp, scaledFrequency_pos_iff within]

private theorem frequencySum_pos (positive : ∃ f ∈ freqs, 0 < f) : 0 < frequencySum freqs := by
  obtain ⟨f, member, occurs⟩ := positive
  obtain ⟨index, found⟩ := mem_iff_getElem?.1 member
  have bounded := getElem?_le_frequencySum found
  rw [UInt16.lt_iff_toNat_lt, UInt16.toNat_zero] at occurs
  omega

/-- The frequencies that end up in the table: they sum to 256 and are positive exactly
for the symbols with a positive raw count. -/
theorem adjustToScale_scaledFrequency (short : rawFreqs.length ≤ 256)
    (fits : (rawFreqs.map UInt32.toNat).sum < 2 ^ 32) (positive : rawFreqs.sum ≠ 0) :
    frequencySum (adjustToScale (rawFreqs.map (scaledFrequency rawFreqs.sum))) = ransScaleSum ∧
      occurring (adjustToScale (rawFreqs.map (scaledFrequency rawFreqs.sum))) =
        rawFreqs.map fun raw => decide (0 < raw) := by
  have sameSymbols := occurring_scaledFrequency fits
  have someRaw : ∃ raw ∈ rawFreqs, 0 < raw := by
    by_contra none
    apply positive
    rw [← UInt32.toNat_inj, toNat_rawSum fits, UInt32.toNat_zero, sum_eq_zero_iff]
    intro count member
    obtain ⟨raw, rawMember, rfl⟩ := mem_map.1 member
    have notPositive : ¬ 0 < raw := fun occurs => none ⟨raw, rawMember, occurs⟩
    rw [UInt32.lt_iff_toNat_lt, UInt32.toNat_zero] at notPositive
    omega
  obtain ⟨raw, member, occurs⟩ := someRaw
  have scaledPositive : 0 < frequencySum (rawFreqs.map (scaledFrequency rawFreqs.sum)) := by
    apply frequencySum_pos
    refine ⟨_, mem_map_of_mem member, (scaledFrequency_pos_iff ?_).2 occurs⟩
    rw [UInt32.le_iff_toNat_le, toNat_rawSum fits]
    exact le_sum_of_mem (mem_map_of_mem member)
  have adjusted := adjustToScale_spec (by simpa using short) scaledPositive
  exact ⟨adjusted.1, adjusted.2.trans sameSymbols⟩

theorem fromFrequencies_normalized (fits : (rawFreqs.map UInt32.toNat).sum < 2 ^ 32)
    (built : fromFrequencies rawFreqs = .ok table) : table.Normalized := by
  unfold fromFrequencies at built
  split at built
  · rename_i admissible
    simp only at built
    split at built
    · cases built
    rename_i positive
    cases built
    exact ofAdjusted_normalized _ (adjustToScale_scaledFrequency admissible.2 fits positive).1
  cases built

theorem fromFrequencies_freqOf_pos (fits : (rawFreqs.map UInt32.toNat).sum < 2 ^ 32)
    (built : fromFrequencies rawFreqs = .ok table) {symbol : UInt8}
    (counted : rawFreqs.getD symbol.toNat 0 ≠ 0) : 0 < table.freqOf symbol := by
  unfold fromFrequencies at built
  split at built
  · rename_i admissible
    simp only at built
    split at built
    · cases built
    rename_i positive
    cases built
    have inside : symbol.toNat < rawFreqs.length := by
      by_contra past
      rw [getD_eq_getElem?_getD, getElem?_eq_none (Nat.le_of_not_lt past)] at counted
      exact counted rfl
    have sameSymbols := (adjustToScale_scaledFrequency admissible.2 fits positive).2
    rw [ofAdjusted_freqOf]
    have atSymbol := congrArg (·[symbol.toNat]?) sameSymbols
    simp only [occurring, getElem?_map, getElem?_eq_getElem inside,
      Option.map_some, Option.map_eq_some_iff] at atSymbol
    obtain ⟨f, found, sameSign⟩ := atSymbol
    rw [getD_eq_getElem?_getD, getElem?_eq_getElem inside, Option.getD_some] at counted
    rw [getD_eq_getElem?_getD, found, Option.getD_some]
    have rawPositive : 0 < rawFreqs[symbol.toNat] := by
      rw [UInt32.lt_iff_toNat_lt, UInt32.toNat_zero]
      rw [ne_eq, ← UInt32.toNat_inj, UInt32.toNat_zero] at counted
      omega
    simpa [rawPositive] using sameSign
  cases built

theorem exists_fromFrequencies {rawFreqs : List UInt32} (short : rawFreqs.length ≤ 256)
    (positive : rawFreqs.sum ≠ 0) : ∃ table, fromFrequencies rawFreqs = .ok table := by
  have nonempty : rawFreqs ≠ [] := by
    intro empty
    subst empty
    exact positive rfl
  unfold fromFrequencies
  rw [dif_pos ⟨nonempty, short⟩]
  simp only [positive, if_false]
  exact ⟨_, rfl⟩

/-! ## What a table says of the raw counts -/

/-- The table of some raw counts: its frequencies sum to the scale, are positive exactly where
the counts are, and give each slot to the one symbol whose interval holds it. -/
structure Represents (rawFreqs : List UInt32) (table : RansSymbolTable) : Prop where
  total : frequencySum table.freqs = ransScaleSum
  positive : ∀ symbol, 0 < table.freqs.getD symbol 0 ↔ 0 < rawFreqs.getD symbol 0
  cumulative : ∀ symbol ≤ 256,
    (table.cumFreqs.getD symbol 0).toNat = slotsBefore table.freqs symbol
  slots : ∀ slot < ransScaleSum, ∀ symbol : UInt8,
    (slotsBefore table.freqs symbol.toNat ≤ slot ∧
        slot < slotsBefore table.freqs (symbol.toNat + 1)) ↔
      symbol = table.slotToSymbol.getD slot 0

theorem exists_interval {slot : Nat} (freqs : List UInt16) (count : Nat)
    (inside : slot < slotsBefore freqs count) :
    ∃ symbol < count, slotsBefore freqs symbol ≤ slot ∧ slot < slotsBefore freqs (symbol + 1) := by
  induction count with
  | zero => exact absurd inside (not_lt_zero slot)
  | succ count ih =>
    by_cases earlier : slot < slotsBefore freqs count
    · obtain ⟨symbol, before, interval⟩ := ih earlier
      exact ⟨symbol, by omega, interval⟩
    exact ⟨count, lt_succ_self count, by omega, inside⟩

theorem Normalized.slots_iff (normalized : table.Normalized) {slot : Nat} (inside : slot < ransScaleSum)
    (symbol : UInt8) :
    (slotsBefore table.freqs symbol.toNat ≤ slot ∧
        slot < slotsBefore table.freqs (symbol.toNat + 1)) ↔
      symbol = table.slotToSymbol.getD slot 0 := by
  have owner (owner : UInt8) (low : slotsBefore table.freqs owner.toNat ≤ slot)
      (high : slot < slotsBefore table.freqs (owner.toNat + 1)) :
      table.slotToSymbol.getD slot 0 = owner := by
    have listed : owner.toNat < table.freqs.length := by
      rw [table.freqs_length]
      exact owner.toNat_lt
    have next := slotsBefore_succ (getElem?_eq_getElem listed)
    apply normalized.slotToSymbol_eq
    · rw [normalized.startOf_eq]
      exact low
    rw [normalized.startOf_eq, freqOf, getD_eq_getElem?_getD,
      getElem?_eq_getElem listed, Option.getD_some, ← next]
    exact high
  constructor
  · rintro ⟨low, high⟩
    exact (owner symbol low high).symm
  have whole : slotsBefore table.freqs 256 = ransScaleSum := by
    rw [slotsBefore, take_of_length_le (le_of_eq table.freqs_length), normalized.total]
  obtain ⟨found, small, low, high⟩ :=
    exists_interval table.freqs 256 (lt_of_lt_of_eq inside whole.symm)
  have same : (UInt8.ofNat found).toNat = found := by
    rw [UInt8.toNat_ofNat']
    omega
  rw [← same] at low high
  intro isSymbol
  rw [isSymbol, owner _ low high]
  exact ⟨low, high⟩

theorem ofAdjusted_represents_iff (total : frequencySum used = ransScaleSum) :
    Represents rawFreqs (ofAdjusted used short) ↔
      ∀ symbol, 0 < used.getD symbol 0 ↔ 0 < rawFreqs.getD symbol 0 := by
  have freqs (symbol : Nat) : (ofAdjusted used short).freqs.getD symbol 0 = used.getD symbol 0 := by
    simp only [ofAdjusted, getD_eq_getElem?_getD, getElem?_append]
    split
    · rfl
    rename_i past
    rw [getElem?_eq_none (Nat.le_of_not_lt past), getElem?_replicate]
    split <;> rfl
  have normalized := ofAdjusted_normalized short total
  constructor
  · intro represents symbol
    rw [← freqs]
    exact represents.positive symbol
  intro positive
  refine ⟨normalized.total, ?_, ?_, ?_⟩
  · intro symbol
    rw [freqs]
    exact positive symbol
  · intro symbol inside
    exact ofAdjusted_cumFreqs short total inside
  intro slot inside symbol
  exact normalized.slots_iff inside symbol

/-- The sum of the counts wraps to zero, or no positive count is scaled to a multiple of
65536, which would be cut to zero. -/
def NoneVanishes (rawFreqs : List UInt32) : Prop :=
  rawFreqs.sum = 0 ∨ ∀ raw ∈ rawFreqs, 0 < raw →
    max (256 * raw.toNat / rawFreqs.sum.toNat) 1 % 65536 ≠ 0

theorem toNat_scaledFrequency {totalRaw raw : UInt32} (occurs : 0 < raw) :
    (scaledFrequency totalRaw raw).toNat = max (256 * raw.toNat / totalRaw.toNat) 1 % 65536 := by
  have rawSmall := raw.toNat_lt
  have product : (raw.toUInt64 * UInt64.ofNat ransScaleSum).toNat = 256 * raw.toNat := by
    rw [UInt64.toNat_mul, UInt32.toNat_toUInt64]
    simp only [ransScaleSum, toNat_ofNat']
    omega
  rw [scaledFrequency, if_pos occurs, UInt64.toNat_toUInt16, UInt64.max_def]
  split
  · rename_i atMost
    rw [le_iff_toNat_le, UInt64.toNat_div, product, UInt32.toNat_toUInt64,
      toNat_one] at atMost
    rw [max_eq_right atMost, toNat_one]
  rename_i more
  rw [le_iff_toNat_le, UInt64.toNat_div, product, UInt32.toNat_toUInt64,
    toNat_one] at more
  rw [max_eq_left (by omega), UInt64.toNat_div, product, UInt32.toNat_toUInt64]

theorem incrementLargest_first (missing count : Nat) (first : UInt16) :
    incrementLargest missing (first :: List.replicate count 0) =
      (first + UInt16.ofNat missing) :: List.replicate count 0 := by
  have keeps (offset : Nat) (best : UInt16) :
      largestFrequency 0 offset (List.replicate count 0) (0, best) = (0, best) := by
    rcases largestFrequency_spec 0 offset (List.replicate count 0) (0, best) with
      ⟨position, _, found, above⟩ | ⟨unchanged, _⟩
    · have zero := eq_of_mem_replicate (mem_of_getElem? found)
      rw [zero] at above
      exact absurd above (by decide)
    exact unchanged
  induction missing generalizing first with
  | zero => exact congrArg (· :: List.replicate count 0) (UInt16.add_zero first).symm
  | succ missing ih =>
    have isFirst : (largestFrequency 0 0 (first :: List.replicate count 0) (0, 0)).1 = 0 := by
      rw [largestFrequency]
      split <;> rw [keeps]
    simp only [incrementLargest, isFirst, modify_zero_cons, ih]
    rw [UInt16.ofNat_add, UInt16.ofNat_one, UInt16.add_assoc, UInt16.add_comm 1]

theorem adjustToScale_zero (count : Nat) :
    adjustToScale (List.replicate (count + 1) 0) = 256 :: List.replicate count 0 := by
  rw [adjustToScale, frequencySum_replicate_zero, Nat.zero_sub, decrementLargest,
    replicate_succ, Nat.sub_zero, incrementLargest_first]
  rfl

theorem frequencySum_eq_zero_iff : frequencySum freqs = 0 ↔ ∀ f ∈ freqs, f = 0 := by
  rw [frequencySum, sum_eq_zero_iff]
  simp only [mem_map, forall_exists_index, and_imp, forall_apply_eq_imp_iff₂,
    ← UInt16.toNat_inj, UInt16.toNat_zero]

private theorem sum_eq_head {raw : UInt32} {rest : List UInt32} (zero : ∀ other ∈ rest, other = 0) :
    (raw :: rest).sum = raw := by
  rw [sum_cons, sum_eq_zero zero, UInt32.add_zero]

theorem sameSymbols_iff (sameLength : used.length = rawFreqs.length) :
    (∀ symbol, 0 < used.getD symbol 0 ↔ 0 < rawFreqs.getD symbol 0) ↔
      occurring used = rawFreqs.map fun raw => decide (0 < raw) := by
  rw [occurring, List.ext_getElem?_iff]
  refine forall_congr' fun symbol => ?_
  rw [getElem?_map, getElem?_map, getD_eq_getElem?_getD, getD_eq_getElem?_getD]
  by_cases inside : symbol < used.length
  · rw [getElem?_eq_getElem inside, getElem?_eq_getElem (sameLength ▸ inside)]
    simp
  rw [getElem?_eq_none (by omega), getElem?_eq_none (by omega)]
  simp

theorem noneVanishes_iff (counted : rawFreqs.sum ≠ 0) :
    NoneVanishes rawFreqs ↔ occurring (rawFreqs.map (scaledFrequency rawFreqs.sum)) =
      rawFreqs.map fun raw => decide (0 < raw) := by
  rw [NoneVanishes, or_iff_right counted, occurring, map_map, map_inj_left]
  refine forall₂_congr fun raw member => ?_
  rw [Function.comp_apply, decide_eq_decide]
  by_cases occurs : 0 < raw
  · rw [UInt16.lt_iff_toNat_lt, toNat_scaledFrequency occurs, UInt16.toNat_zero,
      pos_iff_ne_zero]
    simp only [occurs, forall_const, iff_true]
  rw [scaledFrequency, if_neg occurs]
  simp only [occurs, IsEmpty.forall_iff, iff_false, true_iff]
  exact UInt16.lt_irrefl 0

theorem not_sameSymbols_of_sum_eq_zero (counted : rawFreqs.sum ≠ 0)
    (vanished : frequencySum (rawFreqs.map (scaledFrequency rawFreqs.sum)) = 0) :
    frequencySum (adjustToScale (rawFreqs.map (scaledFrequency rawFreqs.sum))) = ransScaleSum ∧
      occurring (adjustToScale (rawFreqs.map (scaledFrequency rawFreqs.sum))) ≠
        rawFreqs.map fun raw => decide (0 < raw) := by
  rcases rawFreqs with _ | ⟨raw, rest⟩
  · exact absurd rfl counted
  have all : (raw :: rest).map (scaledFrequency (raw :: rest).sum) =
      List.replicate (rest.length + 1) 0 := by
    rw [eq_replicate_iff, length_map]
    exact ⟨rfl, frequencySum_eq_zero_iff.mp vanished⟩
  rw [all, adjustToScale_zero]
  refine ⟨by rw [frequencySum_cons, frequencySum_replicate_zero]; rfl, ?_⟩
  intro same
  rw [occurring, map_cons, map_cons, map_replicate, List.cons.injEq] at same
  have restZero : ∀ other ∈ rest, other = 0 := by
    intro other member
    have marked := mem_map_of_mem (f := fun raw : UInt32 => decide (0 < raw)) member
    rw [← same.2] at marked
    have notPositive := eq_of_mem_replicate marked
    rw [decide_eq_decide, UInt32.lt_iff_toNat_lt, UInt32.toNat_zero] at notPositive
    rw [← UInt32.toNat_inj, UInt32.toNat_zero]
    have never : ¬ (0 : UInt16) < 0 := UInt16.lt_irrefl 0
    by_contra nonzero
    exact never (notPositive.mp (pos_of_ne_zero nonzero))
  have sum := @sum_eq_head raw rest restZero
  have rawPositive : 0 < raw := of_decide_eq_true (same.1.symm.trans (by decide))
  have first : scaledFrequency raw raw = 0 := by
    rw [map_cons, replicate_succ, List.cons.injEq, sum] at all
    exact all.1
  have scaled := @toNat_scaledFrequency raw raw rawPositive
  rw [UInt32.lt_iff_toNat_lt, UInt32.toNat_zero] at rawPositive
  rw [first, Nat.mul_div_cancel _ rawPositive] at scaled
  exact absurd scaled (by decide)

/-- A table represents the counts exactly if none of them vanishes. -/
theorem fromFrequencies_represents_iff (nonempty : rawFreqs ≠ []) (short : rawFreqs.length ≤ 256) :
    (∀ table, fromFrequencies rawFreqs = .ok table → Represents rawFreqs table) ↔
      NoneVanishes rawFreqs := by
  by_cases counted : rawFreqs.sum = 0
  · refine iff_of_true ?_ (Or.inl counted)
    intro table built
    rw [fromFrequencies, dif_pos ⟨nonempty, short⟩, if_pos counted] at built
    cases built
  have sameLength : (adjustToScale (rawFreqs.map (scaledFrequency rawFreqs.sum))).length =
      rawFreqs.length := by
    rw [length_adjustToScale, length_map]
  have built : fromFrequencies rawFreqs =
      .ok (ofAdjusted (adjustToScale (rawFreqs.map (scaledFrequency rawFreqs.sum)))
        (sameLength ▸ short)) := by
    rw [fromFrequencies, dif_pos ⟨nonempty, short⟩, if_neg counted]
  rw [built]
  simp only [Except.ok.injEq, forall_eq']
  rw [noneVanishes_iff counted]
  rcases Nat.eq_zero_or_pos (frequencySum (rawFreqs.map (scaledFrequency rawFreqs.sum))) with
    vanished | positive
  · obtain ⟨total, differs⟩ := not_sameSymbols_of_sum_eq_zero counted vanished
    rw [ofAdjusted_represents_iff _ total, sameSymbols_iff sameLength]
    refine iff_of_false differs ?_
    intro same
    apply counted
    apply sum_eq_zero
    intro raw member
    rw [occurring, map_map, map_inj_left] at same
    have marked := same raw member
    rw [Function.comp_apply, decide_eq_decide,
      frequencySum_eq_zero_iff.mp vanished _ (mem_map_of_mem member)] at marked
    have notPositive := mt marked.mpr (UInt16.lt_irrefl 0)
    rw [UInt32.lt_iff_toNat_lt, UInt32.toNat_zero, not_lt, le_zero] at notPositive
    rw [← UInt32.toNat_inj, notPositive, UInt32.toNat_zero]
  obtain ⟨total, same⟩ := adjustToScale_spec (by rw [length_map]; exact short) positive
  rw [ofAdjusted_represents_iff _ total, sameSymbols_iff sameLength, same]

theorem fromFrequencies_represents_iff_pair : [3, 1] ≠ ([] : List UInt32) ∧ [3, 1].length ≤ 256 ∧
      ((∀ table, fromFrequencies [3, 1] = .ok table → Represents [3, 1] table) ↔
        NoneVanishes [3, 1]) :=
  ⟨by decide, by decide, fromFrequencies_represents_iff (by decide) (by decide)⟩

/-- The counts sum to 1 modulo `2 ^ 32`, so that the first two are scaled to `2 ^ 39`. -/
theorem not_represents_overflow :
    ¬ ∀ table, fromFrequencies [2147483648, 2147483648, 1] = .ok table →
      Represents [2147483648, 2147483648, 1] table := by
  intro represents
  obtain ⟨table, built⟩ := @exists_fromFrequencies [2147483648, 2147483648, 1] (by decide)
    (by decide)
  have first : (fromFrequencies [2147483648, 2147483648, 1]).toOption.map
      (fun table => table.freqs.getD 0 0) = some 0 := by
    decide +kernel
  rw [built] at first
  have occurs := ((represents table built).positive 0).mpr (by decide)
  have zero : table.freqs.getD 0 0 = 0 := Option.some.inj first
  rw [zero] at occurs
  exact absurd occurs (by decide)

end Eidolon.Net.RansSymbolTable
