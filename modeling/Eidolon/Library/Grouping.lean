import Mathlib.Data.List.Nodup

/-!
# Groups and the index of their members

Members in groups named by keys, with an index from a member to the key of its group.  The
index is kept right by entering and leaving, which write it and one group.
-/

namespace Eidolon.Library

open List Option Function

universe u v

variable {Key : Type u} {Member : Type v}

def Indexes (index : Member → Option Key) (groups : Key → List Member) : Prop :=
  ∀ member key, index member = some key ↔ member ∈ groups key

namespace Indexes

variable {index : Member → Option Key} {groups : Key → List Member} {member : Member} {key : Key}

theorem notMem (indexes : Indexes index groups) (nowhere : index member = none) (key : Key) :
    member ∉ groups key := by
  rw [← indexes member key, nowhere]
  simp

theorem eq_of_mem (indexes : Indexes index groups) {other : Key} (here : member ∈ groups key)
    (there : member ∈ groups other) : key = other := by
  have first := (indexes member key).mpr here
  have second := (indexes member other).mpr there
  rw [first, some.injEq] at second
  exact second

variable [DecidableEq Key] [DecidableEq Member]

section

variable (indexes : Indexes index groups)
include indexes

theorem enter (nowhere : index member = none) {entered : List Member}
    (members : ∀ other, other ∈ entered ↔ other = member ∨ other ∈ groups key) :
    Indexes (Function.update index member (some key)) (Function.update groups key entered) := by
  intro other group
  by_cases sameMember : other = member
  · rw [sameMember, update_self, some.injEq]
    by_cases sameGroup : group = key
    · rw [sameGroup, update_self, members]
      simp
    rw [update_of_ne sameGroup]
    exact iff_of_false (Ne.symm sameGroup) (indexes.notMem nowhere group)
  rw [update_of_ne sameMember, indexes other group]
  by_cases sameGroup : group = key
  · rw [sameGroup, update_self, members]
    simp [sameMember]
  rw [update_of_ne sameGroup]

theorem leave (inside : index member = some key) {left : List Member}
    (members : ∀ other, other ∈ left ↔ other ≠ member ∧ other ∈ groups key) :
    Indexes (Function.update index member none) (Function.update groups key left) := by
  intro other group
  by_cases sameMember : other = member
  · rw [sameMember, update_self]
    by_cases sameGroup : group = key
    · rw [sameGroup, update_self, members]
      simp
    rw [update_of_ne sameGroup, ← indexes member group, inside]
    simp [Ne.symm sameGroup]
  rw [update_of_ne sameMember, indexes other group]
  by_cases sameGroup : group = key
  · rw [sameGroup, update_self, members]
    simp [sameMember]
  rw [update_of_ne sameGroup]

theorem ne_of_enter {entered : List Member}
    (after : Indexes (Function.update index member (some key))
      (Function.update groups key entered)) {other : Key} (inside : index member = some other) :
    other = key := by
  by_contra different
  have stays : member ∈ Function.update groups key entered other := by
    rw [update_of_ne different, ← indexes member other]
    exact inside
  rw [← after member other, update_self, some.injEq] at stays
  exact different stays.symm

theorem eq_nil_of_found (nowhere : index member = none)
    (after : Indexes (Function.update index member (some key))
      (Function.update groups key [member])) : groups key = [] := by
  rw [eq_nil_iff_forall_not_mem]
  intro other inside
  have different : other ≠ member := by
    intro same
    rw [same] at inside
    exact indexes.notMem nowhere key inside
  have indexed := (indexes other key).mpr inside
  rw [← update_of_ne different (some key) index, after other key,
    update_self, mem_singleton] at indexed
  exact different indexed

end

end Indexes

end Eidolon.Library

/-!
## Elements in buckets

A family of lists that together hold every element once, in the list it is placed in.
-/

namespace Eidolon.Library

open List Option Function

universe u v

variable {α : Type u} {β : Type v}

/-- Each bucket holds the elements that are placed in it, once each. -/
structure Bucketed (buckets : β → List α) (place : α → Option β) : Prop where
  nodup : ∀ bucket, (buckets bucket).Nodup
  mem_iff : ∀ bucket element, element ∈ buckets bucket ↔ place element = some bucket

namespace Bucketed

variable {buckets : β → List α} {place : α → Option β}

theorem congr (bucketed : Bucketed buckets place) {other : α → Option β}
    (same : ∀ element, place element = other element) : Bucketed buckets other where
  nodup := bucketed.nodup
  mem_iff bucket element := by
    rw [bucketed.mem_iff, same]

theorem empty : Bucketed (fun _ : β => ([] : List α)) (fun _ => none) where
  nodup _ := nodup_nil
  mem_iff bucket element := by
    constructor
    · intro member
      cases member
    intro placed
    cases placed

theorem nodup_flatMap (bucketed : Bucketed buckets place) {chosen : List β}
    (distinct : chosen.Nodup) : (chosen.flatMap buckets).Nodup := by
  rw [List.nodup_flatMap]
  refine ⟨fun bucket _ => bucketed.nodup bucket, ?_⟩
  refine distinct.imp ?_
  intro first second different element inFirst inSecond
  have firstPlace := (bucketed.mem_iff first element).mp inFirst
  have secondPlace := (bucketed.mem_iff second element).mp inSecond
  rw [firstPlace] at secondPlace
  exact different (some.inj secondPlace)

variable [DecidableEq α] [DecidableEq β] {element : α}

theorem push (bucketed : Bucketed buckets place) (free : place element = none) (bucket : β) :
    Bucketed (Function.update buckets bucket (element :: buckets bucket))
      (Function.update place element (some bucket)) := by
  have notIn : ∀ other, element ∉ buckets other := by
    intro other member
    have placed := (bucketed.mem_iff other element).mp member
    rw [free] at placed
    cases placed
  constructor
  · intro other
    by_cases same : other = bucket
    · rw [same, update_self, nodup_cons]
      exact ⟨notIn bucket, bucketed.nodup bucket⟩
    rw [update_of_ne same]
    exact bucketed.nodup other
  intro other asked
  by_cases same : other = bucket
  · rw [same, update_self, mem_cons]
    by_cases pushed : asked = element
    · rw [pushed, update_self]
      exact iff_of_true (Or.inl rfl) rfl
    rw [update_of_ne pushed, ← bucketed.mem_iff]
    exact or_iff_right pushed
  rw [update_of_ne same]
  by_cases pushed : asked = element
  · rw [pushed, update_self]
    refine iff_of_false (notIn other) ?_
    intro placed
    exact same (some.inj placed).symm
  rw [update_of_ne pushed]
  exact bucketed.mem_iff other asked

theorem erase (bucketed : Bucketed buckets place) {bucket : β} (held : place element = some bucket) :
    Bucketed (Function.update buckets bucket ((buckets bucket).erase element))
      (Function.update place element none) := by
  constructor
  · intro other
    by_cases same : other = bucket
    · rw [same, update_self]
      exact (bucketed.nodup bucket).erase element
    rw [update_of_ne same]
    exact bucketed.nodup other
  intro other asked
  by_cases same : other = bucket
  · rw [same, update_self, (bucketed.nodup bucket).mem_erase_iff, bucketed.mem_iff]
    by_cases erased : asked = element
    · rw [erased, update_self]
      exact iff_of_false (fun both => both.1 rfl) (fun placed => by cases placed)
    rw [update_of_ne erased]
    exact and_iff_right erased
  rw [update_of_ne same]
  by_cases erased : asked = element
  · rw [erased, update_self, bucketed.mem_iff, held]
    refine iff_of_false ?_ (fun placed => by cases placed)
    intro placed
    exact same (some.inj placed).symm
  rw [update_of_ne erased]
  exact bucketed.mem_iff other asked

theorem move (bucketed : Bucketed buckets place) {bucket : β} (held : place element = some bucket)
    (target : β) :
    let erased := Function.update buckets bucket ((buckets bucket).erase element)
    Bucketed (Function.update erased target (element :: erased target))
      (Function.update place element (some target)) := by
  have pushed := (bucketed.erase held).push
    (by rw [update_self] : Function.update place element none element = none) target
  rw [update_idem] at pushed
  exact pushed

end Bucketed

end Eidolon.Library
