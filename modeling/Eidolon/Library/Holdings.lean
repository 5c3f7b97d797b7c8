import Mathlib.Logic.Function.Basic

/-!
# What the members of a family hold

Items held by the members of a family (threads by their local states, slots by their
contents), and how a change of one member changes what is held.
-/

namespace Eidolon.Library

open Function

universe u v w

variable {ι : Type u} {σ : Type v} {α : Type w}

def HeldBySome (content : σ → List α) (members : ι → σ) (item : α) : Prop :=
  ∃ index, item ∈ content (members index)

/-- Some member other than the given one has the item. -/
def HeldByOther (content : σ → List α) (members : ι → σ) (apart : ι) (item : α) : Prop :=
  ∃ index, index ≠ apart ∧ item ∈ content (members index)

variable {content : σ → List α} {members : ι → σ} {item : α}

end Eidolon.Library
