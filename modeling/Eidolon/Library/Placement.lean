import Mathlib.Logic.Function.Basic

/-!
# Identities at places

What stands at the places of a store, each with an identity.  No identity stands at two
places as long as things are moved to free places and what is put in is new.
-/

namespace Eidolon.Library

open Function

universe u v

variable {Place : Type u} {Identity : Type v}

def UniquePlaces (held : Place → Option Identity) : Prop :=
  ∀ place other identity, held place = some identity → held other = some identity → place = other

variable {held after : Place → Option Identity}

theorem UniquePlaces.mono (unique : UniquePlaces held)
    (fewer : ∀ place identity, after place = some identity → held place = some identity) :
    UniquePlaces after := by
  intro place other identity here there
  exact unique place other identity (fewer place identity here) (fewer other identity there)

variable [DecidableEq Place]

theorem uniquePlaces_update_iff (unique : UniquePlaces held) {target : Place}
    (free : held target = none) (identity : Identity) :
    UniquePlaces (Function.update held target (some identity)) ↔
      ∀ place, held place ≠ some identity := by
  have elsewhere : ∀ place other, held place = some other → place ≠ target := by
    intro place other stands same
    rw [same, free] at stands
    cases stands
  constructor
  · intro stillUnique place stands
    have different := elsewhere place identity stands
    apply different
    apply stillUnique place target identity
    · rw [update_of_ne different, stands]
    rw [update_self]
  intro new place other standing here there
  by_cases placeIs : place = target
  · by_cases otherIs : other = target
    · rw [placeIs, otherIs]
    rw [placeIs, update_self] at here
    rw [update_of_ne otherIs, ← here] at there
    exact absurd there (new other)
  rw [update_of_ne placeIs] at here
  by_cases otherIs : other = target
  · rw [otherIs, update_self] at there
    rw [← there] at here
    exact absurd here (new place)
  rw [update_of_ne otherIs] at there
  exact unique place other standing here there

theorem UniquePlaces.remove (unique : UniquePlaces held) (source : Place) :
    UniquePlaces (Function.update held source none) := by
  apply unique.mono
  intro place identity stands
  by_cases isSource : place = source
  · rw [isSource, update_self] at stands
    cases stands
  rwa [update_of_ne isSource] at stands

theorem UniquePlaces.remove_ne (unique : UniquePlaces held) {source : Place}
    {identity : Identity} (stands : held source = some identity) (place : Place) :
    Function.update held source none place ≠ some identity := by
  intro still
  by_cases isSource : place = source
  · rw [isSource, update_self] at still
    cases still
  rw [update_of_ne isSource] at still
  exact isSource (unique place source identity still stands)

end Eidolon.Library
