import Mathlib.Data.Fintype.Card

/-!
# Acyclic relations

A relation is acyclic if no node is reachable from itself.  Adding an edge keeps it
acyclic unless the edge's target already reaches its source, and the same holds when
another edge into that target is dropped at the same time.
-/

namespace Eidolon.Library

open Relation

universe u

variable {Node : Type u} {edge after : Node → Node → Prop}

/-- No node is reachable from itself. -/
def Acyclic (edge : Node → Node → Prop) : Prop :=
  ∀ node, ¬ TransGen edge node node

namespace Acyclic

theorem mono (acyclic : Acyclic edge) (fewer : ∀ first second, after first second →
    edge first second) : Acyclic after := by
  intro node cycle
  exact acyclic node (TransGen.mono fewer node node cycle)

theorem of_rank (rank : Node → Nat)
    (falls : ∀ first second, edge first second → rank second < rank first) : Acyclic edge := by
  have along : ∀ {first last}, TransGen edge first last → rank last < rank first := by
    intro first last path
    induction path with
    | single step => exact falls _ _ step
    | tail _ step ih => exact Nat.lt_trans (falls _ _ step) ih
  intro node cycle
  exact Nat.lt_irrefl _ (along cycle)

theorem wellFounded [Finite Node] (acyclic : Acyclic edge) :
    WellFounded fun second first => edge first second := by
  let behind : Node → Node → Prop := fun second first => TransGen edge first second
  have irreflexive : Std.Irrefl behind := ⟨acyclic⟩
  have founded : WellFounded behind := Finite.wellFounded_of_trans_of_irrefl behind
  exact Subrelation.wf (fun step => TransGen.single step) founded

theorem transGen_of_added {source target first last : Node}
    (added : ∀ first second, after first second →
      edge first second ∨ (first = source ∧ second = target))
    (path : TransGen after first last) :
    TransGen edge first last ∨
      (ReflTransGen edge first source ∧ ReflTransGen edge target last) := by
  induction path with
  | single step =>
    rcases added _ _ step with old | ⟨rfl, rfl⟩
    · exact .inl (TransGen.single old)
    exact .inr ⟨ReflTransGen.refl, ReflTransGen.refl⟩
  | tail _ step ih =>
    rcases added _ _ step with old | ⟨rfl, rfl⟩
    · rcases ih with before | ⟨before, behind⟩
      · exact .inl (before.tail old)
      exact .inr ⟨before, behind.tail old⟩
    rcases ih with before | ⟨before, _⟩
    · exact .inr ⟨before.to_reflTransGen, ReflTransGen.refl⟩
    exact .inr ⟨before, ReflTransGen.refl⟩

theorem of_added (acyclic : Acyclic edge) {source target : Node}
    (added : ∀ first second, after first second →
      edge first second ∨ (first = source ∧ second = target))
    (apart : ¬ ReflTransGen edge target source) : Acyclic after := by
  intro node cycle
  rcases transGen_of_added added cycle with old | ⟨before, behind⟩
  · exact acyclic node old
  exact apart (behind.trans before)

theorem reflTransGen_of_dropped (acyclic : Acyclic edge) {dropped target last : Node}
    (kept : ∀ first second, edge first second →
      after first second ∨ (first = dropped ∧ second = target))
    (path : ReflTransGen edge target last) : ReflTransGen after target last := by
  induction path with
  | refl => exact ReflTransGen.refl
  | tail before step ih =>
    rcases kept _ _ step with still | ⟨_, rfl⟩
    · exact ih.tail still
    exact absurd (TransGen.tail' before step) (acyclic _)

/-- Moving an edge from one source to another keeps the relation acyclic exactly if its
target does not reach the new source. -/
theorem moved_iff (acyclic : Acyclic edge) {dropped source target : Node}
    (added : ∀ first second, after first second →
      edge first second ∨ (first = source ∧ second = target))
    (kept : ∀ first second, edge first second →
      after first second ∨ (first = dropped ∧ second = target))
    (new : after source target) : Acyclic after ↔ ¬ ReflTransGen edge target source := by
  constructor
  · intro acyclicAfter path
    have still := acyclic.reflTransGen_of_dropped kept path
    exact acyclicAfter source (TransGen.head' new still)
  exact acyclic.of_added added

end Acyclic

end Eidolon.Library
