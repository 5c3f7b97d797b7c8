import Mathlib.Data.List.Induction
import Mathlib.Order.Lattice

/-!
# Search with a shrinking bound

Items are tried one after another for a hit below a bound, and every hit found becomes the
bound of the items behind it.  When a lower bound only drops hits that are not below it, the
search ends with the closest hit of all.
-/

namespace Eidolon.Library

open List Option

universe u v w

variable {Item : Type u} {Hit : Type v} {Dist : Type w} [LinearOrder Dist]

namespace ShrinkingSearch

variable (hits : Item → Dist → Option Hit) (distance : Hit → Dist)

def step (state : Dist × Option Hit) (item : Item) : Dist × Option Hit :=
  match hits item state.1 with
  | some hit => if distance hit < state.1 then (distance hit, some hit) else state
  | none => state

def search (limit : Dist) (items : List Item) : Dist × Option Hit :=
  items.foldl (step hits distance) (limit, none)

/-- A lower bound keeps the hits below it, and adds none. -/
def Cuts : Prop :=
  ∀ item bound wider hit, bound ≤ wider → distance hit < bound →
    (hits item bound = some hit ↔ hits item wider = some hit)

def NoneBelow (limit : Dist) (items : List Item) : Prop :=
  ∀ item ∈ items, ∀ hit, hits item limit = some hit → ¬ distance hit < limit

/-- A hit of some item below the limit, and no item has a closer one. -/
structure Closest (hits : Item → Dist → Option Hit) (distance : Hit → Dist) (limit : Dist)
    (items : List Item) (best : Hit) : Prop where
  below : distance best < limit
  hit : ∃ item ∈ items, hits item limit = some best
  least : ∀ item ∈ items, ∀ other, hits item limit = some other →
    distance best ≤ distance other

/-- What a search has found. -/
inductive Found (hits : Item → Dist → Option Hit) (distance : Hit → Dist) (limit : Dist)
    (items : List Item) : Dist × Option Hit → Prop where
  | nothing (noneBelow : NoneBelow hits distance limit items) :
      Found hits distance limit items (limit, none)
  | closest (best : Hit) (closest : Closest hits distance limit items best) :
      Found hits distance limit items (distance best, some best)

variable {hits : Item → Dist → Option Hit} {distance : Hit → Dist} {limit : Dist}
  {items : List Item}

variable {state : Dist × Option Hit}

section

variable (found : Found hits distance limit items state)
include found

theorem Found.bound_le : state.1 ≤ limit := by
  cases found with
  | nothing noneBelow => exact le_refl _
  | closest best closest => exact le_of_lt closest.below

theorem Found.keep {item : Item}
    (nothingCloser : ∀ hit, hits item limit = some hit → ¬ distance hit < state.1) :
    Found hits distance limit (items ++ [item]) state := by
  cases found with
  | nothing noneBelow =>
    refine Found.nothing ?_
    intro other member hit isHit
    rcases List.mem_append.mp member with before | last
    · exact noneBelow other before hit isHit
    rw [List.mem_singleton.mp last] at isHit
    exact nothingCloser hit isHit
  | closest best closest =>
    refine Found.closest best ⟨closest.below, ?_, ?_⟩
    · obtain ⟨holder, member, isHit⟩ := closest.hit
      exact ⟨holder, mem_append_left _ member, isHit⟩
    intro other member hit isHit
    rcases List.mem_append.mp member with before | last
    · exact closest.least other before hit isHit
    rw [List.mem_singleton.mp last] at isHit
    exact le_of_not_gt (nothingCloser hit isHit)

theorem Found.replace {item : Item} {hit : Hit} (isHit : hits item limit = some hit)
    (closer : distance hit < state.1) :
    Found hits distance limit (items ++ [item]) (distance hit, some hit) := by
  refine Found.closest hit ⟨lt_of_lt_of_le closer found.bound_le, ?_, ?_⟩
  · exact ⟨item, mem_append_right _ (mem_singleton_self item), isHit⟩
  intro other member otherHit otherIsHit
  rcases List.mem_append.mp member with before | last
  · cases found with
    | nothing noneBelow =>
      have far := noneBelow other before otherHit otherIsHit
      exact le_of_lt (lt_of_lt_of_le closer (le_of_not_gt far))
    | closest best closest =>
      exact le_of_lt (lt_of_lt_of_le closer (closest.least other before otherHit otherIsHit))
  rw [List.mem_singleton.mp last, isHit] at otherIsHit
  rw [some.inj otherIsHit]

end

theorem found_search (cuts : Cuts hits distance) (limit : Dist) (items : List Item) :
    Found hits distance limit items (search hits distance limit items) := by
  induction items using List.reverseRecOn with
  | nil => exact Found.nothing fun item member => absurd member not_mem_nil
  | append_singleton items item ih =>
    have stepped : search hits distance limit (items ++ [item]) =
        step hits distance (search hits distance limit items) item := by
      rw [search, foldl_append]
      rfl
    rw [stepped]
    generalize search hits distance limit items = state at ih
    have lower := ih.bound_le
    rw [step]
    rcases tried : hits item state.1 with _ | hit
    · refine ih.keep ?_
      intro hit isHit closer
      rw [(cuts item state.1 limit hit lower closer).mpr isHit] at tried
      cases tried
    simp only
    by_cases closer : distance hit < state.1
    · rw [if_pos closer]
      exact ih.replace ((cuts item state.1 limit hit lower closer).mp tried) closer
    rw [if_neg closer]
    refine ih.keep ?_
    intro other isHit otherCloser
    have same := (cuts item state.1 limit other lower otherCloser).mpr isHit
    rw [tried] at same
    rw [some.inj same] at closer
    exact closer otherCloser

theorem search_eq_none_iff (cuts : Cuts hits distance) :
    (search hits distance limit items).2 = none ↔ NoneBelow hits distance limit items := by
  have found := found_search cuts limit items
  generalize search hits distance limit items = state at found
  cases found with
  | nothing noneBelow => exact iff_of_true rfl noneBelow
  | closest best closest =>
    refine iff_of_false (some_ne_none best) ?_
    intro noneBelow
    obtain ⟨item, member, isHit⟩ := closest.hit
    exact noneBelow item member best isHit closest.below

theorem closest_of_search (cuts : Cuts hits distance) {best : Hit}
    (ends : (search hits distance limit items).2 = some best) :
    Closest hits distance limit items best := by
  have found := found_search cuts limit items
  generalize search hits distance limit items = state at found ends
  cases found with
  | nothing noneBelow => cases ends
  | closest best closest =>
    cases ends
    exact closest

end ShrinkingSearch

end Eidolon.Library
