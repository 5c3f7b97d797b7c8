import Eidolon.Library.Priority

/-!
# Selection of the best

Items are collected up to a capacity, and the first of them in priority order are kept.  What
is kept has a score of at least some bound exactly if enough of the items have.
-/

namespace Eidolon.Library

open List

universe u v

variable {α : Type u} {β : Type v} (capacity : Nat)

/-- Appends an item if there is room for it. -/
def pushUpTo (kept : List α) (item : α) : List α :=
  if kept.length < capacity then kept ++ [item] else kept

theorem foldl_pushUpTo (items kept : List α) :
    items.foldl (pushUpTo capacity) kept = kept ++ items.take (capacity - kept.length) := by
  induction items generalizing kept with
  | nil => rw [foldl_nil, take_nil, append_nil]
  | cons item items ih =>
    rw [foldl_cons, ih, pushUpTo]
    split
    · have remaining : capacity - kept.length = capacity - (kept ++ [item]).length + 1 := by
        rw [length_append, length_singleton]
        omega
      rw [remaining, append_assoc]
      rfl
    have nothing : capacity - kept.length = 0 := by omega
    rw [nothing, take_zero, take_zero]

theorem foldl_pushUpTo_filterMap (pick : β → Option α) (items : List β) (kept : List α) :
    items.foldl (fun kept item => (pick item).elim kept (pushUpTo capacity kept)) kept =
      kept ++ (items.filterMap pick).take (capacity - kept.length) := by
  rw [← foldl_pushUpTo]
  induction items generalizing kept with
  | nil => rfl
  | cons item items ih =>
    rw [foldl_cons, ih]
    cases picked : pick item with
    | none => rw [filterMap_cons_none picked, Option.elim_none]
    | some found => rw [filterMap_cons_some picked, foldl_cons, Option.elim_some]

section Best

variable {before : α → α → Prop} [DecidableRel before]

/-- The first items in priority order, so many of them. -/
def bestOf (before : α → α → Prop) [DecidableRel before] (count : Nat) (items : List α) : List α :=
  (inPriority before items).take count

@[simp]
theorem length_bestOf (count : Nat) (items : List α) :
    (bestOf before count items).length = min count items.length := by
  rw [bestOf, length_take, length_inPriority]

variable {count : Nat} {items : List α}

theorem mem_of_mem_bestOf {item : α} (kept : item ∈ bestOf before count items) : item ∈ items :=
  mem_inPriority.mp (mem_of_mem_take kept)

theorem nodup_bestOf (nodup : items.Nodup) : (bestOf before count items).Nodup :=
  ((inPriority_perm items).nodup_iff.mpr nodup).sublist (take_sublist count _)

theorem bestOf_perm (few : items.length ≤ count) : (bestOf before count items).Perm items := by
  rw [bestOf, take_of_length_le (by rwa [length_inPriority])]
  exact inPriority_perm items

variable (total : ∀ a b, before a b ∨ before b a)
  (transitive : ∀ a b c, before a b → before b c → before a c)

include total transitive

theorem before_of_not_mem_bestOf {kept other : α} (isKept : kept ∈ bestOf before count items)
    (member : other ∈ items) (notKept : other ∉ bestOf before count items) : before kept other := by
  have sorted := inPriority_pairwise total transitive items
  rw [← take_append_drop count (inPriority before items)] at sorted
  have listed : other ∈ inPriority before items := mem_inPriority.mpr member
  rw [← take_append_drop count (inPriority before items)] at listed
  rcases List.mem_append.mp listed with front | rest
  · exact absurd front notKept
  exact (List.pairwise_append.mp sorted).2.2 kept isKept other rest

theorem le_score_bestOf_iff (score : α → Nat) (ranked : ∀ a b, before a b → score b ≤ score a)
    (enough : count ≤ items.length) (bound : Nat) :
    (∀ kept ∈ bestOf before count items, bound ≤ score kept) ↔
      count ≤ items.countP fun item => bound ≤ score item := by
  have sorted := inPriority_pairwise total transitive items
  have counted := (@inPriority_perm _ before _ items).countP_eq
    fun item => decide (bound ≤ score item)
  have length : (bestOf before count items).length = count := by
    rw [length_bestOf, Nat.min_eq_left enough]
  rw [← counted, ← take_append_drop count (inPriority before items), countP_append]
  rw [← take_append_drop count (inPriority before items)] at sorted
  change (∀ kept ∈ bestOf before count items, bound ≤ score kept) ↔
    count ≤ (bestOf before count items).countP _ + _
  constructor
  · intro reach
    have all : (bestOf before count items).countP (fun item => decide (bound ≤ score item)) =
        (bestOf before count items).length :=
      List.countP_eq_length.mpr fun kept isKept => decide_eq_true (reach kept isKept)
    omega
  intro many kept isKept
  by_contra short
  -- nothing behind an item without the score has it
  have rest : ((inPriority before items).drop count).countP
      (fun item => decide (bound ≤ score item)) = 0 := by
    rw [countP_eq_zero]
    intro other dropped
    have order := ranked kept other ((List.pairwise_append.mp sorted).2.2 kept isKept other dropped)
    simp only [decide_eq_true_eq]
    omega
  have fewer : (bestOf before count items).countP (fun item => decide (bound ≤ score item)) <
      (bestOf before count items).length := by
    apply lt_of_le_of_ne countP_le_length
    intro all
    have reached := List.countP_eq_length.mp all kept isKept
    exact short (of_decide_eq_true reached)
  omega

end Best

end Eidolon.Library
