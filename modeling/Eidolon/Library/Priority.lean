import Mathlib.Data.List.Sort

/-!
# Picking the best of a list, and priority order

A matching or scheduling loop repeatedly scans its candidates for the best one and
removes it.  `firstBest` is that scan: it keeps the first candidate and replaces it
only by a strictly better one.  `inPriority` is what the loop amounts to: the
candidates sorted by an order `before`.  The scan returns the head of the sorted
list, and removing the head leaves the sorted list of the rest.
-/

namespace Eidolon.Library

open List

universe u

variable {α : Type u} (better : α → α → Bool)

def keepBest (best : Option α) (candidate : α) : Option α :=
  match best with
  | none => some candidate
  | some current => if better candidate current then some candidate else some current

def firstBest (candidates : List α) : Option α :=
  candidates.foldl (keepBest better) none

theorem mem_of_firstBest {candidates : List α} {best : α}
    (found : firstBest better candidates = some best) : best ∈ candidates := by
  have among : ∀ (candidates : List α) (start : Option α),
      candidates.foldl (keepBest better) start = some best →
        best ∈ candidates ∨ start = some best := by
    intro candidates
    induction candidates with
    | nil => exact fun start same => .inr same
    | cons candidate rest ih =>
      intro start result
      rcases ih _ result with later | now
      · exact .inl (mem_cons_of_mem _ later)
      unfold keepBest at now
      split at now
      · cases now
        exact .inl mem_cons_self
      split at now
      · cases now
        exact .inl mem_cons_self
      exact .inr now
  exact (among candidates none found).resolve_right fun same => by cases same

variable (before : α → α → Prop)

/-- `better` decides `before` for a later candidate against an earlier one. -/
def Decides (earlier later : α) : Prop :=
  if better later earlier then before later earlier else before earlier later

private theorem foldl_keepBest {better : α → α → Bool} {before : α → α → Prop}
    (transitive : ∀ a b c, before a b → before b c → before a c) :
    ∀ (candidates seen : List α) (best : α), best ∈ seen → (∀ other ∈ seen, before best other) →
      (seen ++ candidates).Pairwise (Decides better before) →
      (∀ other, before other other) →
      ∃ result, candidates.foldl (keepBest better) (some best) = some result ∧
        result ∈ seen ++ candidates ∧
        ∀ other ∈ seen ++ candidates, before result other
  | [], seen, best, member, least, _, _ => by
      refine ⟨best, rfl, by simpa using member, ?_⟩
      simpa using least
  | candidate :: rest, seen, best, member, least, decided, reflexive => by
      have decision : Decides better before best candidate :=
        (pairwise_append.mp decided).2.2 best member candidate (mem_cons_self)
      have shifted : ((seen ++ [candidate]) ++ rest).Pairwise (Decides better before) := by
        simpa using decided
      rw [foldl_cons, keepBest]
      by_cases replaced : better candidate best = true
      · rw [if_pos replaced]
        rw [Decides, if_pos replaced] at decision
        obtain ⟨result, found, among, first⟩ :=
          foldl_keepBest transitive rest (seen ++ [candidate]) candidate (by simp) (by
              intro other otherMember
              rcases mem_append.mp otherMember with old | new
              · exact transitive candidate best other decision (least other old)
              rw [mem_singleton.mp new]
              exact reflexive candidate)
            shifted reflexive
        exact ⟨result, found, by simpa using among, by simpa using first⟩
      rw [if_neg replaced]
      rw [Decides, if_neg replaced] at decision
      obtain ⟨result, found, among, first⟩ :=
        foldl_keepBest transitive rest (seen ++ [candidate]) best (by simp [member]) (by
            intro other otherMember
            rcases mem_append.mp otherMember with old | new
            · exact least other old
            rw [mem_singleton.mp new]
            exact decision)
          shifted reflexive
      exact ⟨result, found, by simpa using among, by simpa using first⟩

theorem firstBest_spec {better : α → α → Bool} {before : α → α → Prop}
    (reflexive : ∀ a, before a a) (transitive : ∀ a b c, before a b → before b c → before a c)
    {candidates : List α} (decided : candidates.Pairwise (Decides better before))
    (nonempty : candidates ≠ []) :
    ∃ best, firstBest better candidates = some best ∧ best ∈ candidates ∧
      ∀ other ∈ candidates, before best other := by
  rcases candidates with _ | ⟨head, tail⟩
  · exact absurd rfl nonempty
  obtain ⟨best, found, member, least⟩ :=
    foldl_keepBest transitive tail [head] head (by simp) (by
        intro other otherMember
        rw [mem_singleton.mp otherMember]
        exact reflexive head)
      (by simpa using decided) reflexive
  exact ⟨best, found, by simpa using member, by simpa using least⟩

private theorem foldl_keepBest_map {β : Type u} (better : β → β → Bool) (key : α → β) :
    ∀ (candidates : List α) (best : Option α),
      (candidates.map key).foldl (keepBest better) (best.map key) =
        (candidates.foldl (keepBest fun a b => better (key a) (key b)) best).map key
  | [], _ => rfl
  | candidate :: rest, best => by
      rw [map_cons, foldl_cons, foldl_cons, ← foldl_keepBest_map better key rest]
      rcases best with _ | current
      · rfl
      simp only [keepBest, Option.map_some]
      split <;> rfl

theorem firstBest_map {β : Type u} (better : β → β → Bool) (key : α → β) (candidates : List α) :
    firstBest better (candidates.map key) =
      (firstBest (fun a b => better (key a) (key b)) candidates).map key :=
  foldl_keepBest_map better key candidates none

private theorem foldl_keepBest_of_greatest (key : α → Nat) (greatest : Nat) :
    ∀ (candidates : List α) (best : α), key best ≤ greatest →
      (∀ candidate ∈ candidates, key candidate ≤ greatest) →
      (∃ candidate ∈ best :: candidates, key candidate = greatest) →
      candidates.foldl (keepBest fun candidate current => decide (key current < key candidate))
          (some best) =
        (best :: candidates).find? fun candidate => decide (key candidate = greatest)
  | [], best, _, _, attained => by
      obtain ⟨candidate, member, equal⟩ := attained
      rw [mem_singleton.mp member] at equal
      rw [foldl_nil, find?_cons_of_pos (by simpa using equal)]
  | candidate :: rest, best, bounded, allBounded, attained => by
      have candidateBounded : key candidate ≤ greatest := allBounded candidate mem_cons_self
      have restBounded : ∀ other ∈ rest, key other ≤ greatest :=
        fun other member => allBounded other (mem_cons_of_mem candidate member)
      rw [foldl_cons, keepBest]
      by_cases replaced : key best < key candidate
      · have notBest : ¬ key best = greatest := by omega
        have attainedLater : ∃ other ∈ candidate :: rest, key other = greatest := by
          obtain ⟨other, member, equal⟩ := attained
          rcases mem_cons.mp member with itself | later
          · rw [itself] at equal
            exact absurd equal notBest
          exact ⟨other, later, equal⟩
        rw [if_pos (by simpa using replaced), find?_cons_of_neg (by simpa using notBest)]
        exact foldl_keepBest_of_greatest key greatest rest candidate candidateBounded restBounded
          attainedLater
      have attainedHere : ∃ other ∈ best :: rest, key other = greatest := by
        obtain ⟨other, member, equal⟩ := attained
        rcases mem_cons.mp member with itself | later
        · exact ⟨best, mem_cons_self, by rw [← itself, equal]⟩
        rcases mem_cons.mp later with next | inRest
        · rw [next] at equal
          exact ⟨best, mem_cons_self, by omega⟩
        exact ⟨other, mem_cons_of_mem best inRest, equal⟩
      rw [if_neg (by simpa using replaced), foldl_keepBest_of_greatest key greatest rest best
        bounded restBounded attainedHere]
      by_cases bestGreatest : key best = greatest
      · rw [find?_cons_of_pos (by simpa using bestGreatest),
          find?_cons_of_pos (by simpa using bestGreatest)]
      have notCandidate : ¬ key candidate = greatest := by omega
      rw [find?_cons_of_neg (by simpa using bestGreatest),
        find?_cons_of_neg (by simpa using bestGreatest),
        find?_cons_of_neg (by simpa using notCandidate)]

theorem firstBest_of_greatest (key : α → Nat) {candidates : List α} {greatest : α}
    (member : greatest ∈ candidates)
    (bounded : ∀ candidate ∈ candidates, key candidate ≤ key greatest) :
    firstBest (fun candidate current => decide (key current < key candidate)) candidates =
      candidates.find? fun candidate => decide (key candidate = key greatest) := by
  cases candidates with
  | nil => exact absurd member not_mem_nil
  | cons first rest =>
    exact foldl_keepBest_of_greatest key (key greatest) rest first (bounded first mem_cons_self)
      (fun candidate inRest => bounded candidate (mem_cons_of_mem first inRest))
      ⟨greatest, member, rfl⟩

@[simp]
theorem firstBest_nil : firstBest better ([] : List α) = none :=
  rfl

def inPriority [DecidableRel before] (candidates : List α) : List α :=
  candidates.insertionSort before

section Sorted

variable {before : α → α → Prop} [DecidableRel before]

@[simp]
theorem inPriority_nil : inPriority before [] = [] :=
  rfl

theorem inPriority_perm (candidates : List α) : (inPriority before candidates).Perm candidates :=
  perm_insertionSort before candidates

@[simp]
theorem length_inPriority (candidates : List α) :
    (inPriority before candidates).length = candidates.length :=
  length_insertionSort before candidates

@[simp]
theorem mem_inPriority {candidates : List α} {candidate : α} :
    candidate ∈ inPriority before candidates ↔ candidate ∈ candidates :=
  mem_insertionSort before

variable (total : ∀ a b, before a b ∨ before b a)
  (transitive : ∀ a b c, before a b → before b c → before a c)

include total transitive

theorem inPriority_pairwise (candidates : List α) :
    (inPriority before candidates).Pairwise before := by
  have : Std.Total before := ⟨total⟩
  have : IsTrans α before := ⟨transitive⟩
  exact pairwise_insertionSort before candidates

/-- The member that comes before all others heads the sorted list, and the rest of
the sorted list is the sorted rest. -/
theorem inPriority_eq_cons {candidates rest : List α} {best : α}
    (antisymmetric : ∀ a ∈ candidates, ∀ b ∈ candidates, before a b → before b a → a = b)
    (split : candidates.Perm (best :: rest)) (least : ∀ other ∈ candidates, before best other) :
    inPriority before candidates = best :: inPriority before rest := by
  have restSorted := inPriority_pairwise total transitive rest
  have joined : (best :: inPriority before rest).Pairwise before := by
    refine pairwise_cons.mpr ⟨?_, restSorted⟩
    intro other member
    have inRest : other ∈ rest := mem_inPriority.mp member
    exact least other (split.mem_iff.mpr (mem_cons_of_mem best inRest))
  have permutation : (inPriority before candidates).Perm (best :: inPriority before rest) :=
    (inPriority_perm candidates).trans (split.trans ((inPriority_perm rest).symm.cons best))
  refine List.Perm.eq_of_pairwise ?_
    (inPriority_pairwise total transitive candidates) joined permutation
  intro a b aMember bMember
  have aIn : a ∈ candidates := mem_inPriority.mp aMember
  have bIn : b ∈ candidates := mem_inPriority.mp (permutation.mem_iff.mpr bMember)
  exact antisymmetric a aIn b bIn

end Sorted

end Eidolon.Library
