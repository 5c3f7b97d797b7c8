import Mathlib.Data.List.Basic
import Mathlib.Data.List.Flatten

/-!
# Streams of framed items

A stream is the items one after another, each as `write` puts it.  A reader takes one
item off the front of what is left, or stops.  When it undoes `write` in front of any
continuation, reading a stream gives its items and goes on behind them.
-/

namespace Eidolon.Library

open List

namespace Framing

universe u v

variable {α : Type u} {β : Type v}

def readAll (read : List β → Option (α × List β)) : Nat → List β → List α
  | 0, _ => []
  | turns + 1, stream =>
    match read stream with
    | some (item, rest) => item :: readAll read turns rest
    | none => []

/-- The reader takes exactly the written item off any stream that starts with it. -/
def Undoes (read : List β → Option (α × List β)) (write : α → List β) (item : α) : Prop :=
  ∀ rest, read (write item ++ rest) = some (item, rest)

variable {read : List β → Option (α × List β)} {write : α → List β} {items : List α}

theorem readAll_flatMap_append (undoes : ∀ item ∈ items, Undoes read write item) (turns : Nat)
    (tail : List β) :
    readAll read (items.length + turns) (items.flatMap write ++ tail) =
      items ++ readAll read turns tail := by
  induction items with
  | nil => rw [length_nil, Nat.zero_add, flatMap_nil, nil_append, nil_append]
  | cons item items ih =>
    have rest := ih fun other member =>
      undoes other (mem_cons_of_mem item member)
    have turn : (item :: items).length + turns = (items.length + turns) + 1 := by
      rw [length_cons]
      omega
    rw [turn, flatMap_cons, append_assoc, readAll, undoes item mem_cons_self, cons_append, ← rest]

theorem isPrefix_readAll (undoes : ∀ item ∈ items, Undoes read write item) {turns : Nat}
    (enough : items.length ≤ turns) (tail : List β) :
    items <+: readAll read turns (items.flatMap write ++ tail) := by
  have split : turns = items.length + (turns - items.length) := by
    omega
  rw [split, readAll_flatMap_append undoes]
  exact prefix_append _ _

theorem forall_mem_readAll {good : α → Prop}
    (reads : ∀ stream item rest, read stream = some (item, rest) → good item)
    (turns : Nat) (stream : List β) : ∀ item ∈ readAll read turns stream, good item := by
  induction turns generalizing stream with
  | zero =>
    intro item member
    cases member
  | succ turns ih =>
    intro item member
    rw [readAll] at member
    rcases front : read stream with _ | pair
    · rw [front] at member
      cases member
    rw [front] at member
    rcases List.mem_cons.mp member with first | later
    · rw [first]
      exact reads stream pair.1 pair.2 front
    exact ih pair.2 item later

theorem length_le_flatMap (nonempty : ∀ item ∈ items, 0 < (write item).length) :
    items.length ≤ (items.flatMap write).length := by
  induction items with
  | nil => exact Nat.zero_le _
  | cons item items ih =>
    have first := nonempty item mem_cons_self
    have rest := ih fun other member =>
      nonempty other (mem_cons_of_mem item member)
    rw [flatMap_cons, length_append, length_cons]
    omega

/-- The items that are written completely before a place of the stream. -/
def wholeBefore (write : α → List β) : List α → Nat → List α
  | [], _ => []
  | item :: items, cut =>
    if (write item).length ≤ cut then
      item :: wholeBefore write items (cut - (write item).length)
    else
      []

theorem wholeBefore_isPrefix (write : α → List β) (items : List α) (cut : Nat) :
    wholeBefore write items cut <+: items := by
  induction items generalizing cut with
  | nil => exact prefix_refl []
  | cons item items ih =>
    rw [wholeBefore]
    split
    · exact (prefix_cons_inj item).mpr (ih _)
    exact nil_prefix

theorem length_wholeBefore_le (write : α → List β) (items : List α) (cut : Nat) :
    ((wholeBefore write items cut).flatMap write).length ≤ cut := by
  induction items generalizing cut with
  | nil => exact Nat.zero_le cut
  | cons item items ih =>
    rw [wholeBefore]
    split
    · have rest := ih (cut - (write item).length)
      rw [flatMap_cons, length_append]
      omega
    exact Nat.zero_le cut

theorem isPrefix_wholeBefore {front : List α} {cut : Nat} (isPrefix : front <+: items)
    (fits : (front.flatMap write).length ≤ cut) : front <+: wholeBefore write items cut := by
  induction items generalizing front cut with
  | nil =>
    rw [List.prefix_nil.mp isPrefix]
    exact nil_prefix
  | cons item items ih =>
    rcases front with _ | ⟨head, front⟩
    · exact nil_prefix
    obtain ⟨same, rest⟩ := List.cons_prefix_cons.mp isPrefix
    rw [flatMap_cons, length_append, same] at fits
    rw [wholeBefore, if_pos (by omega), same]
    exact (prefix_cons_inj item).mpr (ih rest (by omega))

theorem readAll_take (undoes : ∀ item ∈ items, Undoes read write item)
    (stops : ∀ item ∈ items, ∀ cut < (write item).length, read ((write item).take cut) = none)
    (stopsAtEnd : read [] = none) {turns cut : Nat}
    (enough : (wholeBefore write items cut).length ≤ turns) :
    readAll read turns ((items.flatMap write).take cut) = wholeBefore write items cut := by
  induction items generalizing turns cut with
  | nil =>
    rw [flatMap_nil, take_nil]
    cases turns with
    | zero => rfl
    | succ turns => rw [readAll, stopsAtEnd]; rfl
  | cons item items ih =>
    rw [wholeBefore] at enough ⊢
    rw [flatMap_cons]
    by_cases whole : (write item).length ≤ cut
    · rw [if_pos whole] at enough ⊢
      rw [take_append, take_of_length_le whole]
      cases turns with
      | zero => exact absurd enough (Nat.not_succ_le_zero _)
      | succ turns =>
        rw [readAll, undoes item mem_cons_self]
        exact congrArg (List.cons item) (ih
          (fun other here => undoes other (mem_cons_of_mem item here))
          (fun other here => stops other (mem_cons_of_mem item here))
          (Nat.le_of_succ_le_succ enough))
    rw [if_neg whole, take_append_of_le_length (by omega)]
    cases turns with
    | zero => rfl
    | succ turns => rw [readAll, stops item mem_cons_self cut (by omega)]

end Framing

end Eidolon.Library
