import Mathlib.Data.List.Range
import Eidolon.Library.KeyedList

/-!
# Sorted tables

Lists with strictly increasing keys: insertion of a new item, insertion up to a capacity,
and the sweep over two tables with one pointer into each.
-/

namespace Eidolon.Library

open List

universe u v w

namespace SortedTable

variable {α : Type u} {κ : Type v} {β : Type w}

/-- The keys increase strictly. -/
def Sorted [LT κ] (key : α → κ) (items : List α) : Prop :=
  (items.map key).Pairwise (· < ·)

theorem sorted_replace [DecidableEq κ] [LT κ] {key : α → κ} {items : List α} {wanted : κ}
    {changed : α} (sorted : Sorted key items) (same : key changed = wanted) :
    Sorted key (KeyedList.replace key items wanted changed) := by
  rw [Sorted, KeyedList.map_replace same]
  exact sorted

section Insertion

variable [LT κ] [DecidableLT κ]

def insert (key : α → κ) (item : α) : List α → List α
  | [] => [item]
  | head :: rest =>
    if key item < key head then item :: head :: rest
    else head :: insert key item rest

@[simp]
theorem length_insert (key : α → κ) (item : α) (items : List α) :
    (insert key item items).length = items.length + 1 := by
  induction items with
  | nil => rfl
  | cons head rest ih =>
    rw [insert]
    split
    · rfl
    rw [length_cons, ih, length_cons]

variable {key : α → κ} {items : List α}

theorem mem_insert {item other : α} :
    other ∈ insert key item items ↔ other = item ∨ other ∈ items := by
  induction items with
  | nil =>
    rw [insert]
    simp
  | cons head rest ih =>
    rw [insert]
    split
    · rw [mem_cons]
    rw [mem_cons, ih, mem_cons]
    exact or_left_comm

variable [DecidableEq κ]

theorem find_insert {item : α} (free : KeyedList.find key items (key item) = none) (wanted : κ) :
    KeyedList.find key (insert key item items) wanted =
      if key item = wanted then some item else KeyedList.find key items wanted := by
  induction items with
  | nil => rw [insert, KeyedList.find_cons]
  | cons head rest ih =>
    rw [KeyedList.find_cons] at free
    have apart : key head ≠ key item := by
      intro same
      rw [if_pos same] at free
      cases free
    rw [if_neg apart] at free
    rw [insert]
    split
    · rw [KeyedList.find_cons]
    rw [KeyedList.find_cons, KeyedList.find_cons, ih free]
    by_cases here : key head = wanted
    · rw [if_pos here, if_pos here, if_neg fun same => apart (here.trans same.symm)]
    rw [if_neg here, if_neg here]

/-- Overwrites the item with the same key, or inserts a new one if there is room. -/
def insertUpTo (capacity : Nat) (key : α → κ) (items : List α) (item : α) : List α :=
  match KeyedList.find key items (key item) with
  | some _ => KeyedList.replace key items (key item) item
  | none => if items.length < capacity then insert key item items else items

theorem length_insertUpTo_le {capacity : Nat} {item : α} (fits : items.length ≤ capacity) :
    (insertUpTo capacity key items item).length ≤ capacity := by
  rw [insertUpTo]
  split
  · have sameKeys := congrArg List.length
      (@KeyedList.map_replace α κ _ key items (key item) item rfl)
    rw [length_map, length_map] at sameKeys
    rw [sameKeys]
    exact fits
  split
  · rename_i room
    rw [length_insert]
    exact room
  exact fits

theorem find_foldl_insertUpTo {capacity : Nat} {table : List α} (distinct : (items.map key).Nodup)
    (new : ∀ item ∈ items, KeyedList.find key table (key item) = none) (wanted : κ) :
    KeyedList.find key (items.foldl (insertUpTo capacity key) table) wanted =
      (KeyedList.find key table wanted).or
        (KeyedList.find key (items.take (capacity - table.length)) wanted) := by
  induction items generalizing table with
  | nil =>
    rw [take_nil]
    exact (Option.or_none).symm
  | cons item rest ih =>
    rw [map_cons, nodup_cons] at distinct
    have free := new item mem_cons_self
    have restNew : ∀ later ∈ rest, KeyedList.find key table (key later) = none :=
      fun later member => new later (mem_cons_of_mem _ member)
    rw [foldl_cons]
    by_cases room : table.length < capacity
    · have taken : insertUpTo capacity key table item = insert key item table := by
        rw [insertUpTo, free]
        exact if_pos room
      have stillNew : ∀ later ∈ rest,
          KeyedList.find key (insert key item table) (key later) = none := by
        intro later member
        have apart : key item ≠ key later := by
          intro same
          exact distinct.1 (mem_map.mpr ⟨later, member, same.symm⟩)
        rw [find_insert free, if_neg apart]
        exact restNew later member
      have remaining : capacity - table.length = capacity - (insert key item table).length + 1 := by
        rw [length_insert]
        omega
      rw [taken, ih distinct.2 stillNew, find_insert free, remaining,
        take_succ_cons, KeyedList.find_cons]
      by_cases here : key item = wanted
      · rw [if_pos here, if_pos here, ← here, free]
        rfl
      rw [if_neg here, if_neg here]
    have full : insertUpTo capacity key table item = table := by
      rw [insertUpTo, free]
      exact if_neg room
    have noRoom : capacity - table.length = 0 := by
      omega
    rw [full, ih distinct.2 restNew, noRoom, take_zero, take_zero]

end Insertion

section Order

variable [LE κ] [LT κ] [Std.IsLinearOrder κ] [Std.LawfulOrderLT κ]

theorem lt_of_not_lt_of_ne {first second : κ} (notLess : ¬ first < second)
    (different : first ≠ second) : second < first := by
  apply Std.not_le.mp
  intro below
  exact different (Std.le_antisymm below (Std.not_lt.mp notLess))

variable [DecidableEq κ] [DecidableLT κ] {key : α → κ}

theorem sorted_insert {item : α} {items : List α} (sorted : Sorted key items)
    (free : KeyedList.find key items (key item) = none) : Sorted key (insert key item items) := by
  induction items with
  | nil => exact pairwise_singleton _ _
  | cons head rest ih =>
    rw [Sorted, map_cons, pairwise_cons] at sorted
    rw [KeyedList.find_eq_none_iff] at free
    have restFree : KeyedList.find key rest (key item) = none :=
      KeyedList.find_eq_none_iff.mpr fun other member => free other (mem_cons_of_mem _ member)
    rw [insert]
    split
    · rename_i before
      rw [Sorted, map_cons, pairwise_cons, map_cons, pairwise_cons]
      refine ⟨?_, sorted⟩
      intro other member
      rcases List.mem_cons.mp member with first | later
      · rw [first]
        exact before
      exact Std.lt_trans before (sorted.1 other later)
    rename_i notBefore
    rw [Sorted, map_cons, pairwise_cons]
    refine ⟨?_, ih sorted.2 restFree⟩
    intro other member
    obtain ⟨present, inserted, same⟩ := mem_map.mp member
    rw [← same]
    rcases mem_insert.mp inserted with itself | already
    · rw [itself]
      exact lt_of_not_lt_of_ne notBefore (Ne.symm (free head mem_cons_self))
    exact sorted.1 _ (mem_map.mpr ⟨present, already, rfl⟩)

theorem sorted_insertUpTo {capacity : Nat} {items : List α} {item : α} (sorted : Sorted key items) :
    Sorted key (insertUpTo capacity key items item) := by
  rw [insertUpTo]
  split
  · exact sorted_replace sorted rfl
  rename_i free
  split
  · exact sorted_insert sorted free
  exact sorted

/-- Walks through two tables with one pointer into each, and handles the items of the first
whose key the second does not have. -/
def sweep (key : α → κ) (leave : β → α → β) (result : β) (first second : List α) : β :=
  match first, second with
  | [], _ => result
  | item :: first, [] => sweep key leave (leave result item) first []
  | item :: first, other :: second =>
    if key item < key other then sweep key leave (leave result item) first (other :: second)
    else if key other < key item then sweep key leave result (item :: first) second
    else sweep key leave result first second
termination_by first.length + second.length

theorem sweep_eq_foldl (leave : β → α → β) (result : β) {first second : List α}
    (sortedFirst : Sorted key first) (sortedSecond : Sorted key second) :
    sweep key leave result first second =
      (first.filter fun item => (KeyedList.find key second (key item)).isNone).foldl leave
        result := by
  induction result, first, second using sweep.induct key leave with
  | case1 result second =>
    rw [sweep]
    rfl
  | case2 result item first ih =>
    rw [Sorted, map_cons, pairwise_cons] at sortedFirst
    rw [sweep, ih sortedFirst.2 sortedSecond, filter_cons_of_pos (by rfl), foldl_cons]
  | case3 result item first other second before ih =>
    rw [Sorted, map_cons, pairwise_cons] at sortedFirst
    have missing : KeyedList.find key (other :: second) (key item) = none := by
      rw [KeyedList.find_eq_none_iff]
      intro present member same
      rw [Sorted, map_cons, pairwise_cons] at sortedSecond
      rcases List.mem_cons.mp member with here | later
      · rw [← same, here] at before
        exact Std.lt_irrefl before
      have after := sortedSecond.1 _ (mem_map.mpr ⟨present, later, rfl⟩)
      rw [same] at after
      exact Std.lt_irrefl (Std.lt_trans before after)
    rw [sweep, if_pos before, ih sortedFirst.2 sortedSecond,
      filter_cons_of_pos (by rw [missing]; rfl), foldl_cons]
  | case4 result item first other second notBefore after ih =>
    have behind : ∀ present ∈ item :: first, key other < key present := by
      intro present member
      rw [Sorted, map_cons, pairwise_cons] at sortedFirst
      rcases List.mem_cons.mp member with here | later
      · rw [here]
        exact after
      exact Std.lt_trans after (sortedFirst.1 _ (mem_map.mpr ⟨present, later, rfl⟩))
    rw [Sorted, map_cons, pairwise_cons] at sortedSecond
    rw [sweep, if_neg notBefore, if_pos after, ih sortedFirst sortedSecond.2]
    congr 1
    apply filter_congr
    intro present member
    have apart : key other ≠ key present := by
      intro same
      have less := behind present member
      rw [same] at less
      exact Std.lt_irrefl less
    rw [KeyedList.find_cons, if_neg apart]
  | case5 result item first other second notBefore notAfter ih =>
    have same : key other = key item := by
      by_contra different
      exact notBefore (lt_of_not_lt_of_ne notAfter different)
    rw [Sorted, map_cons, pairwise_cons] at sortedFirst sortedSecond
    rw [sweep, if_neg notBefore, if_neg notAfter, ih sortedFirst.2 sortedSecond.2,
      filter_cons_of_neg (by simp [KeyedList.find_cons, same])]
    congr 1
    apply filter_congr
    intro present member
    have apart : key other ≠ key present := by
      intro equal
      have less := sortedFirst.1 _ (mem_map.mpr ⟨present, member, rfl⟩)
      rw [← same, equal] at less
      exact Std.lt_irrefl less
    rw [KeyedList.find_cons, if_neg apart]

end Order

end SortedTable

end Eidolon.Library

/-!
## Lists in the order of a key

A list whose keys do not decrease can be read key by key: the entries of a range of keys are
the entries of its first key, then those of the next one, and so on.
-/

namespace Eidolon.Library

open List

universe u

variable {α : Type u} {key : α → Nat}

def KeyOrdered (key : α → Nat) (entries : List α) : Prop :=
  entries.Pairwise fun earlier later => key earlier ≤ key later

namespace KeyOrdered

theorem nil : KeyOrdered key ([] : List α) :=
  List.Pairwise.nil

variable {entries : List α}

section

variable (ordered : KeyOrdered key entries)
include ordered

theorem append_singleton {last : α} (latest : ∀ earlier ∈ entries, key earlier ≤ key last) :
    KeyOrdered key (entries ++ [last]) := by
  refine pairwise_append.mpr ⟨ordered, pairwise_singleton _ _, ?_⟩
  intro earlier member other otherMember
  rw [mem_singleton.mp otherMember]
  exact latest earlier member

theorem filter_lt_append (start bound : Nat) (inRange : start ≤ bound) :
    (entries.filter fun entry => decide (start ≤ key entry ∧ key entry < bound)) ++
        (entries.filter fun entry => decide (key entry = bound)) =
      entries.filter fun entry => decide (start ≤ key entry ∧ key entry < bound + 1) := by
  induction entries with
  | nil => rfl
  | cons first rest ih =>
    rcases List.pairwise_cons.mp ordered with ⟨least, restOrdered⟩
    have splitRest := ih restOrdered
    rcases Nat.lt_trichotomy (key first) bound with below | here | above
    · have notHere : ¬ key first = bound := Nat.ne_of_lt below
      by_cases atLeast : start ≤ key first
      · have belowNext : start ≤ key first ∧ key first < bound + 1 := ⟨atLeast, by omega⟩
        rw [filter_cons_of_pos (by simpa using ⟨atLeast, below⟩),
          filter_cons_of_neg (by simpa using notHere),
          filter_cons_of_pos (by simpa using belowNext), cons_append, splitRest]
      rw [filter_cons_of_neg (by simp [atLeast]), filter_cons_of_neg (by simpa using notHere),
        filter_cons_of_neg (by simp [atLeast]), splitRest]
    · -- no entry after one with the key has a smaller key
      have noneBelow : ∀ entries : List α, (∀ entry ∈ entries, bound ≤ key entry) →
          (entries.filter fun entry =>
            decide (start ≤ key entry ∧ key entry < bound)) = [] := by
        intro entries atLeast
        rw [filter_eq_nil_iff]
        intro entry member
        have atLeastHere := atLeast entry member
        simp only [decide_eq_true_eq, not_and, not_lt]
        exact fun _ => atLeastHere
      have restAtLeast : ∀ entry ∈ rest, bound ≤ key entry := by
        intro entry member
        rw [← here]
        exact least entry member
      rw [noneBelow rest restAtLeast, nil_append] at splitRest
      rw [noneBelow (first :: rest) (by simpa [here] using restAtLeast), nil_append,
        filter_cons_of_pos (by simpa using here),
        filter_cons_of_pos (by simp only [decide_eq_true_eq]; omega), splitRest]
    rw [filter_cons_of_neg (by simp only [decide_eq_true_eq]; omega),
      filter_cons_of_neg (by simp only [decide_eq_true_eq]; omega),
      filter_cons_of_neg (by simp only [decide_eq_true_eq]; omega), splitRest]

theorem flatMap_filter (start count : Nat) : (List.range' start count).flatMap
        (fun bound => entries.filter fun entry => decide (key entry = bound)) =
      entries.filter fun entry => decide (start ≤ key entry ∧ key entry < start + count) := by
  induction count with
  | zero =>
    rw [range'_zero, flatMap_nil, eq_comm, filter_eq_nil_iff]
    simp only [decide_eq_true_eq]
    omega
  | succ count ih =>
    rw [range'_concat, flatMap_append, ih, flatMap_singleton,
      Nat.one_mul, filter_lt_append ordered start (start + count) (Nat.le_add_right start count)]
    rfl

theorem le_of_getLast? {last : α} (isLast : entries.getLast? = some last) {entry : α}
    (member : entry ∈ entries) :
    key entry ≤ key last := by
  obtain ⟨earlier, split⟩ := getLast?_eq_some_iff.mp isLast
  rw [split] at member ordered
  rcases mem_append.mp member with before | itself
  · exact (pairwise_append.mp ordered).2.2 entry before last (mem_singleton_self last)
  rw [mem_singleton.mp itself]

end

end KeyOrdered

end Eidolon.Library
