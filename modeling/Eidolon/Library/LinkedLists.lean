import Mathlib.Data.List.Nodup
import Mathlib.Data.List.Perm.Subperm
import Mathlib.Logic.Equiv.Basic

/-!
# Linked lists through arrays

Every element has a link to the next element of its list and one to the previous element, and
every list has a head.  One value is no element: it ends the lists in both directions.
-/

namespace Eidolon.Library

open Function List

universe u v w

/-- The links of all elements. -/
structure Links (α : Type u) where
  next : α → α
  prev : α → α

namespace Links

variable {α : Type u}

/-- From this head on, the links go through the list and end behind it. -/
def Threads (links : Links α) (terminal : α) : α → α → List α → Prop
  | _, head, [] => head = terminal
  | before, head, element :: rest =>
    head = element ∧ element ≠ terminal ∧ links.prev element = before ∧
      links.Threads terminal element (links.next element) rest

/-- As far as the links to the next elements are concerned. -/
def Follows (next : α → α) (terminal : α) : α → List α → Prop
  | head, [] => head = terminal
  | head, element :: rest =>
    head = element ∧ element ≠ terminal ∧ Follows next terminal (next element) rest

section Threads

variable {links other : Links α} {terminal before head element : α} {list : List α}

theorem Threads.congr (threads : links.Threads terminal before head list)
    (same : ∀ element ∈ list, other.next element = links.next element ∧
      other.prev element = links.prev element) :
    other.Threads terminal before head list := by
  induction list generalizing before head with
  | nil => exact threads
  | cons first rest ih =>
    obtain ⟨isHead, isElement, isBefore, further⟩ := threads
    obtain ⟨sameNext, samePrev⟩ := same first mem_cons_self
    refine ⟨isHead, isElement, samePrev.trans isBefore, ?_⟩
    rw [sameNext]
    exact ih further fun element member =>
      same element (mem_cons_of_mem first member)

theorem Threads.follows (threads : links.Threads terminal before head list) :
    Follows links.next terminal head list := by
  induction list generalizing before head with
  | nil => exact threads
  | cons first rest ih =>
    obtain ⟨isHead, isElement, _, further⟩ := threads
    exact ⟨isHead, isElement, ih further⟩

theorem Follows.congr {next changed : α → α} (follows : Follows next terminal head list)
    (same : ∀ element ∈ list, changed element = next element) :
    Follows changed terminal head list := by
  induction list generalizing head with
  | nil => exact follows
  | cons first rest ih =>
    obtain ⟨isHead, isElement, further⟩ := follows
    refine ⟨isHead, isElement, ?_⟩
    rw [same first mem_cons_self]
    exact ih further fun element member =>
      same element (mem_cons_of_mem first member)

section

variable (threads : links.Threads terminal before head list)
include threads

theorem Threads.ne_terminal (member : element ∈ list) : element ≠ terminal := by
  induction list generalizing before head with
  | nil => cases member
  | cons first rest ih =>
    obtain ⟨_, isElement, _, further⟩ := threads
    rcases List.mem_cons.mp member with isFirst | inRest
    · rw [isFirst]
      exact isElement
    exact ih further inRest

theorem Threads.head_mem : head = terminal ∨ head ∈ list := by
  cases list with
  | nil => exact .inl threads
  | cons first rest => exact .inr (threads.1 ▸ mem_cons_self)

theorem Threads.next_mem (member : element ∈ list) :
    links.next element = terminal ∨ links.next element ∈ list.tail := by
  induction list generalizing before head with
  | nil => cases member
  | cons first rest ih =>
    obtain ⟨_, _, _, further⟩ := threads
    rcases List.mem_cons.mp member with isFirst | inRest
    · rw [isFirst]
      exact further.head_mem
    exact (ih further inRest).imp_right mem_of_mem_tail

theorem Threads.prev_mem (member : element ∈ list) :
    links.prev element = before ∨ links.prev element ∈ list := by
  induction list generalizing before head with
  | nil => cases member
  | cons first rest ih =>
    obtain ⟨_, _, isBefore, further⟩ := threads
    rcases List.mem_cons.mp member with isFirst | inRest
    · rw [isFirst]
      exact .inl isBefore
    rcases ih further inRest with isFirst | inside
    · rw [isFirst]
      exact .inr mem_cons_self
    exact .inr (mem_cons_of_mem first inside)

end

end Threads

def reset [DecidableEq α] (links : Links α) (terminal element : α) : Links α where
  next := Function.update links.next element terminal
  prev := Function.update links.prev element terminal

section Family

variable {β : Type v}

/-- The links go through all lists of a family, and no element is in two places. -/
structure Woven (links : Links α) (terminal : α) (heads : β → α)
    (lists : β → List α) : Prop where
  threads : ∀ list, links.Threads terminal terminal (heads list) (lists list)
  nodup : ∀ list, (lists list).Nodup
  apart : ∀ list other element, element ∈ lists list → element ∈ lists other → list = other

namespace Woven

variable {links : Links α} {terminal element : α} {heads : β → α} {lists : β → List α}
  {list : β}

theorem empty (links : Links α) (terminal : α) :
    links.Woven terminal (fun _ : β => terminal) (fun _ => []) where
  threads _ := rfl
  nodup _ := nodup_nil
  apart _ _ _ member := by
    cases member

theorem congr (woven : links.Woven terminal heads lists) {otherHeads : β → α}
    {otherLists : β → List α} (sameHeads : ∀ list, otherHeads list = heads list)
    (sameLists : ∀ list, otherLists list = lists list) :
    links.Woven terminal otherHeads otherLists := by
  rw [funext sameHeads, funext sameLists]
  exact woven

theorem head_notMem (woven : links.Woven terminal heads lists) {other : β}
    (different : other ≠ list) (member : element ∈ lists other) : element ≠ heads list := by
  intro isHead
  rcases (woven.threads list).head_mem with isEnd | inside
  · exact (woven.threads other).ne_terminal member (isHead.trans isEnd)
  exact different (woven.apart other list element member (isHead ▸ inside))

theorem rename (woven : links.Woven terminal heads lists) (names : β ≃ β) :
    links.Woven terminal (fun list => heads (names list)) fun list => lists (names list) where
  threads list := woven.threads (names list)
  nodup list := woven.nodup (names list)
  apart _ _ element member also := names.injective (woven.apart _ _ element member also)

theorem shorten [DecidableEq β] (woven : links.Woven terminal heads lists)
    {changed : Links α} {head : α} {shorter : List α}
    (threads : changed.Threads terminal terminal head shorter)
    (sublist : List.Sublist shorter (lists list))
    (same : ∀ other, other ≠ list → ∀ later ∈ lists other,
      changed.next later = links.next later ∧ changed.prev later = links.prev later) :
    changed.Woven terminal (Function.update heads list head)
      (Function.update lists list shorter) where
  threads other := by
    by_cases here : other = list
    · rw [here, update_self, update_self]
      exact threads
    rw [update_of_ne here, update_of_ne here]
    exact (woven.threads other).congr (same other here)
  nodup other := by
    by_cases here : other = list
    · rw [here, update_self]
      exact (woven.nodup list).sublist sublist
    rw [update_of_ne here]
    exact woven.nodup other
  apart := by
    have inside : ∀ other later, later ∈ Function.update lists list shorter other →
        later ∈ lists other := by
      intro other later member
      by_cases here : other = list
      · rw [here, update_self] at member
        exact here ▸ sublist.mem member
      rw [update_of_ne here] at member
      exact member
    intro first second later inFirst inSecond
    exact woven.apart first second later (inside first later inFirst) (inside second later inSecond)

theorem clear (woven : links.Woven terminal heads lists) (given : β → Prop) [DecidablePred given] :
    links.Woven terminal (fun list => if given list then terminal else heads list)
      fun list => if given list then [] else lists list where
  threads list := by
    by_cases isGiven : given list
    · rw [if_pos isGiven, if_pos isGiven]
      rfl
    rw [if_neg isGiven, if_neg isGiven]
    exact woven.threads list
  nodup list := by
    by_cases isGiven : given list
    · rw [if_pos isGiven]
      exact nodup_nil
    rw [if_neg isGiven]
    exact woven.nodup list
  apart list other element member also := by
    by_cases isGiven : given list
    · rw [if_pos isGiven] at member
      cases member
    by_cases otherGiven : given other
    · rw [if_pos otherGiven] at also
      cases also
    rw [if_neg isGiven] at member
    rw [if_neg otherGiven] at also
    exact woven.apart list other element member also

theorem reset [DecidableEq α] (woven : links.Woven terminal heads lists)
    (free : ∀ list, element ∉ lists list) : (links.reset terminal element).Woven terminal heads
      lists where
  threads list := by
    refine (woven.threads list).congr fun later member => ?_
    have different : later ≠ element := fun equal => free list (equal ▸ member)
    exact ⟨update_of_ne different _ _, update_of_ne different _ _⟩
  nodup := woven.nodup
  apart := woven.apart

end Woven

end Family

variable [DecidableEq α]

/-- Puts an element in front of a list with this head. -/
def prepend (links : Links α) (terminal head element : α) : Links α where
  next := Function.update links.next element head
  prev :=
    let cut := Function.update links.prev element terminal
    if head ≠ terminal then Function.update cut head element else cut

/-- Joins the neighbors of an element. -/
def unlink (links : Links α) (terminal element : α) : Links α where
  next :=
    if links.prev element ≠ terminal then
      Function.update links.next (links.prev element) (links.next element)
    else
      links.next
  prev :=
    if links.next element ≠ terminal then
      Function.update links.prev (links.next element) (links.prev element)
    else
      links.prev

def headWithout (links : Links α) (terminal head element : α) : α :=
  if links.prev element ≠ terminal then head else links.next element

section Operations

variable {links : Links α} {terminal before head element other : α} {list rest : List α}

theorem next_prepend (different : other ≠ element) :
    (links.prepend terminal head element).next other = links.next other :=
  update_of_ne different _ _

theorem prev_prepend (different : other ≠ element) (notHead : other ≠ head) :
    (links.prepend terminal head element).prev other = links.prev other := by
  rw [prepend]
  simp only
  split
  · rw [update_of_ne notHead, update_of_ne different]
  rw [update_of_ne different]

theorem next_unlink (apart : other ≠ links.prev element) :
    (links.unlink terminal element).next other = links.next other := by
  rw [unlink]
  split
  · exact update_of_ne apart _ _
  rfl

theorem prev_unlink (apart : other ≠ links.next element) :
    (links.unlink terminal element).prev other = links.prev other := by
  rw [unlink]
  simp only
  split
  · exact update_of_ne apart _ _
  rfl

theorem Threads.prepend (threads : links.Threads terminal terminal head list)
    (isElement : element ≠ terminal) (free : element ∉ list) (distinct : list.Nodup) :
    (links.prepend terminal head element).Threads terminal terminal element (element :: list) := by
  have notHead : element ≠ head := by
    rcases threads.head_mem with isEnd | inside
    · rw [isEnd]
      exact isElement
    exact fun same => free (same ▸ inside)
  have ownNext : (links.prepend terminal head element).next element = head :=
    update_self _ _ _
  have ownPrev : (links.prepend terminal head element).prev element = terminal := by
    rw [Links.prepend]
    simp only
    split
    · rw [update_of_ne notHead, update_self]
    rw [update_self]
  refine ⟨rfl, isElement, ownPrev, ?_⟩
  rw [ownNext]
  rcases list with _ | ⟨first, rest⟩
  · exact threads
  obtain ⟨isHead, firstIsElement, _, further⟩ := threads
  rw [mem_cons, not_or] at free
  rw [nodup_cons] at distinct
  have headPrev : (links.prepend terminal head element).prev first = element := by
    have notTerminal : head ≠ terminal := by
      rw [isHead]
      exact firstIsElement
    rw [Links.prepend]
    simp only
    rw [if_pos notTerminal, ← isHead, update_self]
  refine ⟨isHead, firstIsElement, headPrev, ?_⟩
  rw [next_prepend (Ne.symm free.1)]
  refine further.congr fun later member => ⟨next_prepend ?_, prev_prepend ?_ ?_⟩
  · exact fun same => free.2 (same ▸ member)
  · exact fun same => free.2 (same ▸ member)
  rw [isHead]
  exact fun same => distinct.1 (same ▸ member)

theorem Threads.unlink_first (threads : links.Threads terminal before head (element :: rest))
    (distinct : rest.Nodup) (outside : before ∉ rest) :
    (links.unlink terminal element).Threads terminal before (links.next element) rest := by
  obtain ⟨_, _, isBefore, further⟩ := threads
  rcases rest with _ | ⟨second, rest⟩
  · exact further
  obtain ⟨isNext, secondIsElement, _, beyond⟩ := further
  rw [mem_cons, not_or] at outside
  rw [nodup_cons] at distinct
  have joined : (links.unlink terminal element).prev second = before := by
    have notTerminal : links.next element ≠ terminal := by
      rw [isNext]
      exact secondIsElement
    rw [Links.unlink]
    simp only
    rw [if_pos notTerminal, ← isNext, update_self, isBefore]
  refine ⟨isNext, secondIsElement, joined, ?_⟩
  rw [next_unlink (isBefore ▸ Ne.symm outside.1)]
  refine beyond.congr fun later member => ⟨next_unlink ?_, prev_unlink ?_⟩
  · rw [isBefore]
    exact fun same => outside.2 (same ▸ member)
  rw [isNext]
  exact fun same => distinct.1 (same ▸ member)

theorem Threads.unlink_later {first : α}
    (threads : links.Threads terminal before head (first :: rest)) (member : element ∈ rest)
    (distinct : (first :: rest).Nodup) :
    (links.unlink terminal element).Threads terminal before head (first :: rest.erase element) := by
  induction rest generalizing before head first with
  | nil => cases member
  | cons second rest ih =>
    obtain ⟨isHead, isElement, isBefore, further⟩ := threads
    rw [nodup_cons] at distinct
    have notNext : first ≠ links.next element := by
      rcases further.next_mem member with isEnd | inside
      · rw [isEnd]
        exact isElement
      exact fun same => distinct.1 (same ▸ mem_of_mem_tail inside)
    refine ⟨isHead, isElement, (prev_unlink notNext).trans isBefore, ?_⟩
    by_cases here : second = element
    · subst here
      rw [erase_cons_head]
      have isPrev : links.prev second = first := further.2.2.1
      have joined : (links.unlink terminal second).next first = links.next second := by
        have notTerminal : links.prev second ≠ terminal := by
          rw [isPrev]
          exact isElement
        rw [Links.unlink]
        simp only
        rw [if_pos notTerminal, ← isPrev, update_self]
      rw [joined]
      exact further.unlink_first (List.nodup_cons.mp distinct.2).2
        fun inside => distinct.1 (mem_cons_of_mem second inside)
    have later : element ∈ rest := by
      rcases List.mem_cons.mp member with same | inside
      · exact absurd same.symm here
      exact inside
    have notPrev : first ≠ links.prev element := by
      obtain ⟨_, _, _, beyond⟩ := further
      rcases beyond.prev_mem later with same | inside
      · rw [same]
        exact fun equal => distinct.1 (equal ▸ mem_cons_self)
      exact fun equal => distinct.1 (equal ▸ mem_cons_of_mem second inside)
    rw [erase_cons_tail (by simpa using here), next_unlink notPrev]
    exact ih further later distinct.2

theorem Threads.unlink (threads : links.Threads terminal terminal head list)
    (member : element ∈ list) (distinct : list.Nodup) :
    (links.unlink terminal element).Threads terminal terminal
      (links.headWithout terminal head element) (list.erase element) := by
  rcases list with _ | ⟨first, rest⟩
  · cases member
  have notTerminal : terminal ∉ rest := fun inside =>
    threads.ne_terminal (mem_cons_of_mem first inside) rfl
  by_cases here : first = element
  · subst here
    have isFirst : ¬ links.prev first ≠ terminal := not_not.mpr threads.2.2.1
    rw [erase_cons_head, headWithout, if_neg isFirst]
    exact threads.unlink_first (List.nodup_cons.mp distinct).2 notTerminal
  have later : element ∈ rest := by
    rcases List.mem_cons.mp member with same | inside
    · exact absurd same.symm here
    exact inside
  have notFirst : links.prev element ≠ terminal := by
    obtain ⟨_, isElement, _, further⟩ := threads
    rcases further.prev_mem later with same | inside
    · rw [same]
      exact isElement
    exact fun equal => notTerminal (equal ▸ inside)
  rw [erase_cons_tail (by simpa using here), headWithout, if_pos notFirst]
  exact threads.unlink_later later distinct

end Operations

variable {β : Type v} [DecidableEq β]

namespace Woven

variable {links : Links α} {terminal element : α} {heads : β → α} {lists : β → List α}
  {list : β}

theorem prepend (woven : links.Woven terminal heads lists) (isElement : element ≠ terminal)
    (free : ∀ list, element ∉ lists list) (list : β) :
    (links.prepend terminal (heads list) element).Woven terminal
      (Function.update heads list element)
      (Function.update lists list (element :: lists list)) where
  threads other := by
    by_cases same : other = list
    · rw [same, update_self, update_self]
      exact (woven.threads list).prepend isElement (free list) (woven.nodup list)
    rw [update_of_ne same, update_of_ne same]
    refine (woven.threads other).congr fun later member => ⟨?_, ?_⟩
    · exact next_prepend fun equal => free other (equal ▸ member)
    exact prev_prepend (fun equal => free other (equal ▸ member)) (woven.head_notMem same member)
  nodup other := by
    by_cases same : other = list
    · rw [same, update_self]
      exact List.nodup_cons.mpr ⟨free list, woven.nodup list⟩
    rw [update_of_ne same]
    exact woven.nodup other
  apart := by
    have inside : ∀ other later, later ∈ Function.update lists list (element :: lists list) other →
          (later = element ∧ other = list) ∨ later ∈ lists other := by
      intro other later member
      by_cases same : other = list
      · rw [same, update_self, mem_cons] at member
        rcases member with isNew | inList
        · exact .inl ⟨isNew, same⟩
        exact .inr (same ▸ inList)
      rw [update_of_ne same] at member
      exact .inr member
    intro first second later inFirst inSecond
    rcases inside first later inFirst with ⟨isNew, isFirst⟩ | inFirst
    · rcases inside second later inSecond with ⟨_, isSecond⟩ | inSecond
      · rw [isFirst, isSecond]
      exact absurd (isNew ▸ inSecond) (free second)
    rcases inside second later inSecond with ⟨isNew, _⟩ | inSecond
    · exact absurd (isNew ▸ inFirst) (free first)
    exact woven.apart first second later inFirst inSecond

theorem unlink (woven : links.Woven terminal heads lists) (member : element ∈ lists list) :
    (links.unlink terminal element).Woven terminal
      (Function.update heads list (links.headWithout terminal (heads list) element))
      (Function.update lists list ((lists list).erase element)) := by
  have threads := woven.threads list
  refine woven.shorten (threads.unlink member (woven.nodup list)) erase_sublist ?_
  intro other different later inOther
  have notIn : later ∉ lists list := fun inside =>
    different (woven.apart other list later inOther inside)
  have isElement := (woven.threads other).ne_terminal inOther
  constructor
  · apply next_unlink
    rcases threads.prev_mem member with isEnd | inside
    · rw [isEnd]
      exact isElement
    exact fun equal => notIn (equal ▸ inside)
  apply prev_unlink
  rcases threads.next_mem member with isEnd | inside
  · rw [isEnd]
    exact isElement
  exact fun equal => notIn (equal ▸ mem_of_mem_tail inside)

theorem free_erase (woven : links.Woven terminal heads lists) (member : element ∈ lists list)
    (other : β) : element ∉ Function.update lists list ((lists list).erase element) other := by
  by_cases same : other = list
  · rw [same, update_self]
    exact (woven.nodup list).not_mem_erase
  rw [update_of_ne same]
  exact fun also => same (woven.apart other list element also member)

end Woven

theorem length_le_of_keys {α : Type u} {key : α → Nat} (injective : Function.Injective key)
    {list : List α} (distinct : list.Nodup) {bound : Nat}
    (below : ∀ element ∈ list, key element < bound) : list.length ≤ bound := by
  have inside : list.map key ⊆ List.range bound := by
    intro number member
    obtain ⟨element, isElement, isKey⟩ := mem_map.mp member
    rw [← isKey]
    exact mem_range.mpr (below element isElement)
  have shorter := (subperm_of_subset (distinct.map injective) inside).length_le
  rw [length_map, length_range] at shorter
  exact shorter

/-- Does something at each element of a list.  The link to the next element is read before. -/
def forEach {σ : Type v} (next : σ → α → α) (terminal : α) (body : σ → α → σ) :
    Nat → α → σ → Option σ
  | 0, _, _ => none
  | fuel + 1, current, state =>
    if current = terminal then
      some state
    else
      forEach next terminal body fuel (next state current) (body state current)

/-- The loop does what a fold over the remaining elements does, if what relates the two states
says which element is next. -/
theorem forEach_simulates {σ : Type v} {τ : Type w} {next : σ → α → α} {terminal : α}
    {body : σ → α → σ} {fold : τ → α → τ} (Related : List α → α → σ → τ → Prop)
    (atEnd : ∀ current state abstract, Related [] current state abstract → current = terminal)
    (atElement : ∀ element rest current state abstract,
      Related (element :: rest) current state abstract → current = element ∧ element ≠ terminal ∧
          Related rest (next state element) (body state element) (fold abstract element))
    {list : List α} {fuel : Nat} {current : α} {state : σ} {abstract : τ}
    (start : Related list current state abstract) (enough : list.length < fuel) :
    ∃ last final, forEach next terminal body fuel current state = some final ∧
      Related [] last final (list.foldl fold abstract) := by
  induction list generalizing fuel current state abstract with
  | nil =>
    cases fuel with
    | zero => exact absurd enough (Nat.not_lt_zero _)
    | succ fuel =>
      refine ⟨current, state, ?_, start⟩
      rw [forEach, if_pos (atEnd current state abstract start)]
  | cons element rest ih =>
    cases fuel with
    | zero => exact absurd enough (Nat.not_lt_zero _)
    | succ fuel =>
      obtain ⟨isCurrent, isElement, further⟩ :=
        atElement element rest current state abstract start
      have notEnd : current ≠ terminal := by
        rw [isCurrent]
        exact isElement
      rw [forEach, if_neg notEnd, isCurrent]
      exact ih further (Nat.lt_of_succ_lt_succ enough)

theorem forEach_eq_foldl {σ : Type v} {next : α → α} {terminal : α} {body : σ → α → σ}
    {list : List α} {fuel : Nat} {head : α} (follows : Follows next terminal head list)
    (enough : list.length < fuel) (state : σ) :
    forEach (fun _ => next) terminal body fuel head state = some (list.foldl body state) := by
  obtain ⟨_, final, done, _, same⟩ := forEach_simulates (fun rest current state abstract =>
      Follows next terminal current rest ∧ state = abstract)
    (fun current _ _ related => related.1)
    (fun element rest current state abstract related => by
      obtain ⟨⟨isCurrent, isElement, further⟩, same⟩ := related
      exact ⟨isCurrent, isElement, further, by rw [same]⟩)
    ⟨follows, rfl⟩ enough
  rw [done, same]

end Links

end Eidolon.Library
