import Eidolon.Server.WorkStealing

/-!
# Every job runs once

The jobs that were pushed and have not been returned are in the slots from the top to a
last index that the owner's place in a call determines, or in the hands of the owner or
of a thief who has yet to clear its slot.  This holds as long as the owner does not write
to a slot that a thief has yet to clear, and the indices do not wrap around.
-/

namespace Eidolon.Server

open Function Library List Nat UInt64

namespace OwnerState

/-- The index before which the slots hold jobs. -/
def last (owner : OwnerState) (bottom : Nat) : Nat :=
  match owner with
  | .popFence lowered => lowered.toNat + 1
  | .popReadTopAgain lowered => lowered.toNat + 1
  | .popSwap lowered _ => lowered.toNat + 1
  | .popExchange top _ => top.toNat
  | .popFinish top _ _ => top.toNat + 1
  | .popRestore top => top.toNat
  | _ => bottom

/-- The last element, when it is out of its slot and not yet won or lost. -/
def exchanging : OwnerState → Option (UInt64 × UInt64)
  | .popExchange top value => some (top, value)
  | _ => none

def unpublished : OwnerState → Option UInt64
  | .pushPublish _ bottom => some bottom
  | _ => none

def storing : OwnerState → Option UInt64
  | .pushStore _ bottom => some bottom
  | _ => none

def reserved : OwnerState → Option UInt64
  | .popSwap lowered top => if top < lowered then some lowered else none
  | _ => none

def holds (owner : OwnerState) (top value : UInt64) : Nat :=
  match owner with
  | .popExchange expected held => if top = expected ∧ held = value then 1 else 0
  | .popFinish _ held won => if won = true ∧ held = value then 1 else 0
  | _ => 0

end OwnerState

def ThiefState.holds (thief : ThiefState) (value : UInt64) : Nat :=
  match thief with
  | .clear _ held => if held = value then 1 else 0
  | _ => 0

def ThiefState.clearing : ThiefState → Option UInt64
  | .clear top _ => some top
  | _ => none

variable (deque : ChaseLevDeque) (owner : OwnerState)

def OwnerFits : Prop :=
  match owner with
  | .idle => deque.top.toNat ≤ deque.bottom.toNat
  | .pushReadBottom _ => deque.top.toNat ≤ deque.bottom.toNat
  | .popReadBottom => deque.top.toNat ≤ deque.bottom.toNat
  | .pushReadTop _ bottom => bottom = deque.bottom ∧ deque.top.toNat ≤ deque.bottom.toNat
  | .popReadTop bottom => bottom = deque.bottom ∧ deque.top.toNat ≤ deque.bottom.toNat
  | .pushStore _ bottom =>
    bottom = deque.bottom ∧ deque.top.toNat ≤ deque.bottom.toNat ∧
      deque.bottom.toNat < deque.top.toNat + deque.capacity.toNat
  | .pushPublish value bottom =>
    bottom = deque.bottom ∧ deque.top.toNat ≤ deque.bottom.toNat ∧
      deque.bottom.toNat < deque.top.toNat + deque.capacity.toNat ∧
        deque.slotAt bottom.toNat = value
  | .popLower bottom =>
    bottom = deque.bottom ∧ deque.top.toNat ≤ deque.bottom.toNat ∧ 0 < deque.bottom.toNat
  | .popFence lowered =>
    lowered = deque.bottom ∧ deque.top.toNat ≤ deque.bottom.toNat + 1 ∧
      deque.bottom.toNat + 1 < 2 ^ 64
  | .popReadTopAgain lowered =>
    lowered = deque.bottom ∧ deque.top.toNat ≤ deque.bottom.toNat + 1 ∧
      deque.bottom.toNat + 1 < 2 ^ 64
  | .popSwap lowered top =>
    lowered = deque.bottom ∧ top.toNat ≤ deque.bottom.toNat ∧
      top.toNat ≤ deque.top.toNat ∧ deque.top.toNat ≤ deque.bottom.toNat + 1 ∧
        deque.bottom.toNat + 1 < 2 ^ 64 ∧
          (top.toNat < deque.bottom.toNat → deque.top.toNat ≤ deque.bottom.toNat)
  | .popExchange top _ =>
    top = deque.bottom ∧ deque.bottom.toNat ≤ deque.top.toNat ∧
      deque.top.toNat ≤ deque.bottom.toNat + 1 ∧ deque.bottom.toNat + 1 < 2 ^ 64 ∧
        deque.slotAt top.toNat = emptySlot
  | .popFinish top _ _ =>
    top = deque.bottom ∧ deque.top.toNat = deque.bottom.toNat + 1 ∧ deque.bottom.toNat + 1 < 2 ^ 64
  | .popRestore top => top = deque.top ∧ deque.top.toNat = deque.bottom.toNat + 1

def Readable (top value : UInt64) : Prop :=
  (top.toNat < owner.last deque.bottom.toNat ∧ deque.slotAt top.toNat = value) ∨
    owner.exchanging = some (top, value)

def Occupied (index : Nat) : Prop :=
  (deque.top.toNat ≤ index ∧ index < owner.last deque.bottom.toNat) ∨
    ∃ bottom, owner.unpublished = some bottom ∧ bottom.toNat = index

def BelowReserved (top : UInt64) : Prop :=
  ∀ index, owner.reserved = some index → top.toNat < index.toNat

/-- How a thief's knowledge stands to the deque: what it has read is the job at the top
for as long as the top does not move, and a slot that it has yet to clear holds no job. -/
def ThiefFits (thief : ThiefState) : Prop :=
  match thief with
  | .idle => True
  | .readTop => True
  | .fence top => top.toNat ≤ deque.top.toNat
  | .readBottom top => top.toNat ≤ deque.top.toNat
  | .readSlot top =>
    top.toNat ≤ deque.top.toNat ∧ BelowReserved owner top ∧
      (deque.top = top → ∃ value, Readable deque owner top value)
  | .exchange top value =>
    top.toNat ≤ deque.top.toNat ∧ BelowReserved owner top ∧
      (deque.top = top → Readable deque owner top value) ∧ value ≠ emptySlot
  | .clear top value =>
    top.toNat < deque.top.toNat ∧ value ≠ emptySlot ∧ ∀ index, Occupied deque owner index →
        index % deque.capacity.toNat ≠ top.toNat % deque.capacity.toNat

/-- What a thief knows outlives a change that moves the top only past it, keeps the job at
the top and fills no slot that the thief has yet to clear. -/
theorem ThiefFits.mono {deque changed : ChaseLevDeque} {owner next : OwnerState}
    {thief : ThiefState} (fits : ThiefFits deque owner thief)
    (top : deque.top.toNat ≤ changed.top.toNat) (capacity : changed.capacity = deque.capacity)
    (reserved : ∀ index, next.reserved = some index →
      owner.reserved = some index ∨ deque.top.toNat < index.toNat)
    (readable : ∀ top value, changed.top = top → top.toNat ≤ deque.top.toNat →
      BelowReserved owner top →
        deque.top = top ∧ (Readable deque owner top value → Readable changed next top value))
    (occupied : ∀ top value, thief = .clear top value → ∀ index, Occupied changed next index →
      Occupied deque owner index ∨
        index % deque.capacity.toNat ≠ top.toNat % deque.capacity.toNat) :
    ThiefFits changed next thief := by
  have stillBelow : ∀ top : UInt64, top.toNat ≤ deque.top.toNat → BelowReserved owner top →
      BelowReserved next top := by
    intro top behind below index isReserved
    rcases reserved index isReserved with before | ahead
    · exact below index before
    exact lt_of_le_of_lt behind ahead
  cases thief with
  | idle => trivial
  | readTop => trivial
  | readSlot top =>
    rcases fits with ⟨behind, below, atTop⟩
    refine ⟨le_trans behind ‹_›, stillBelow top behind below, fun same => ?_⟩
    rcases atTop (readable top 0 same behind below).1 with ⟨value, job⟩
    exact ⟨value, (readable top value same behind below).2 job⟩
  | exchange top value =>
    rcases fits with ⟨behind, below, atTop, real⟩
    refine ⟨le_trans behind ‹_›, stillBelow top behind below, fun same => ?_, real⟩
    have kept := readable top value same behind below
    exact kept.2 (atTop kept.1)
  | clear top value =>
    rcases fits with ⟨behind, real, apart⟩
    refine ⟨lt_of_lt_of_le behind ‹_›, real, fun index isOccupied => ?_⟩
    rw [capacity]
    rcases occupied top value rfl index isOccupied with before | already
    · exact apart index before
    exact already
  | _ => exact le_trans fits ‹_›

namespace DequeSystem

variable {thieves : Nat} (system : DequeSystem thieves)

def pushedValues : List UInt64 :=
  system.history.filterMap DequeOutcome.pushed

def returnedValues : List UInt64 :=
  system.history.filterMap DequeOutcome.returned

/-- The index before which the slots hold jobs. -/
def last (system : DequeSystem thieves) : Nat :=
  system.owner.last system.deque.bottom.toNat

def stored (value : UInt64) : Nat :=
  (valuesBetween system.deque.slotAt system.deque.top.toNat system.last).count value

def held (value : UInt64) : Nat :=
  system.owner.holds system.deque.top value + ∑ thief, (system.thief thief).holds value

structure Coherent (system : DequeSystem thieves) : Prop where
  owner : OwnerFits system.deque system.owner
  thief : ∀ thief, ThiefFits system.deque system.owner (system.thief thief)
  room : system.last ≤ system.deque.top.toNat + system.deque.capacity.toNat
  counted : ∀ value, value ≠ emptySlot →
    system.pushedValues.count value =
      system.returnedValues.count value + system.stored value + system.held value

def Quiet : Prop :=
  system.owner = .idle ∧ ∀ thief, system.thief thief = .idle

/-- No job is returned more often than it was pushed, and when no call is in progress the
pushed jobs are those returned and those in the slots. -/
def ConservesJobs : Prop :=
  ∀ value, value ≠ emptySlot → system.returnedValues.count value ≤ system.pushedValues.count value ∧
      (system.Quiet → system.pushedValues.count value =
        system.returnedValues.count value + system.deque.remaining.count value)

/-- The owner does not write to a slot that a thief has yet to clear, and publishing a job
does not wrap the bottom index around. -/
def ActionFits (action : DequeAction thieves) : Prop :=
  match action with
  | .owner =>
    (∀ bottom ∈ system.owner.storing, ∀ thief, ∀ top ∈ (system.thief thief).clearing,
      system.deque.place bottom ≠ system.deque.place top) ∧
        ∀ bottom ∈ system.owner.unpublished, bottom.toNat + 1 < 2 ^ 64
  | _ => True

-- The value an option holds is looked at, not every machine integer.
local instance (priority := 2000) {meets : UInt64 → Prop} [DecidablePred meets]
    (value : Option UInt64) : Decidable (∀ index ∈ value, meets index) :=
  Option.decidableForallMem value

instance (system : DequeSystem thieves) (action : DequeAction thieves) :
    Decidable (system.ActionFits action) := by
  cases action with
  | owner => exact instDecidableAnd
  | _ => exact instDecidableTrue

variable (outcome : Option DequeOutcome)

def pushes (value : UInt64) : Nat :=
  (outcome.toList.filterMap DequeOutcome.pushed).count value

def returns (value : UInt64) : Nat :=
  (outcome.toList.filterMap DequeOutcome.returned).count value

variable (history : List DequeOutcome)

theorem count_pushed_append (value : UInt64) :
    ((outcome.toList ++ history).filterMap DequeOutcome.pushed).count value =
      pushes outcome value + (history.filterMap DequeOutcome.pushed).count value := by
  rw [filterMap_append, count_append, pushes]

theorem count_returned_append (value : UInt64) :
    ((outcome.toList ++ history).filterMap DequeOutcome.returned).count value =
      returns outcome value + (history.filterMap DequeOutcome.returned).count value := by
  rw [filterMap_append, count_append, returns]

theorem returns_pop_taken {value wanted : UInt64} (real : wanted ≠ emptySlot) :
    returns (some (.pop (taken value))) wanted = if value = wanted then 1 else 0 := by
  unfold returns taken
  by_cases empty : value = emptySlot
  · rw [if_neg (not_not.mpr empty), if_neg (fun same => real (same.symm.trans empty))]
    rfl
  rw [if_pos empty]
  change List.count wanted [value] = _
  rw [count_singleton]
  simp only [beq_iff_eq]

def withOwner (result : ChaseLevDeque × OwnerState × Option DequeOutcome) :
    DequeSystem thieves where
  deque := result.1
  owner := result.2.1
  thief := system.thief
  history := result.2.2.toList ++ system.history

def withThief (thief : Fin thieves) (result : ChaseLevDeque × ThiefState × Option DequeOutcome) :
    DequeSystem thieves where
  deque := result.1
  owner := system.owner
  thief := Function.update system.thief thief result.2.1
  history := result.2.2.toList ++ system.history

theorem step_thief (thief : Fin thieves) : system.step (.thief thief) =
      system.withThief thief (system.deque.thiefStep (system.thief thief)) :=
  rfl

end DequeSystem

structure SameView (deque changed : ChaseLevDeque) (owner next : OwnerState) : Prop where
  top : changed.top = deque.top
  capacity : changed.capacity = deque.capacity
  slotAt : ∀ index, changed.slotAt index = deque.slotAt index
  last : next.last changed.bottom.toNat = owner.last deque.bottom.toNat
  exchanging : next.exchanging = owner.exchanging
  unpublished : next.unpublished = owner.unpublished
  reserved : ∀ index, next.reserved = some index →
    owner.reserved = some index ∨ deque.top.toNat < index.toNat

theorem SameView.thiefFits {deque changed : ChaseLevDeque} {owner next : OwnerState}
    (same : SameView deque changed owner next) {thief : ThiefState}
    (fits : ThiefFits deque owner thief) : ThiefFits changed next thief := by
  refine fits.mono (by rw [same.top]) same.capacity same.reserved ?_ ?_
  · intro top value here _ _
    refine ⟨by rw [← same.top]; exact here, ?_⟩
    rw [Readable, Readable, same.last, same.slotAt, same.exchanging]
    exact id
  intro top value _ index isOccupied
  rw [Occupied, same.top, same.last, same.unpublished] at isOccupied
  exact .inl isOccupied

namespace DequeSystem

variable {thieves : Nat} {system : DequeSystem thieves}

theorem Coherent.withOwner (coherent : system.Coherent) {deque : ChaseLevDeque}
    {owner : OwnerState} {outcome : Option DequeOutcome} (fits : OwnerFits deque owner)
    (thief : ∀ thief, ThiefFits deque owner (system.thief thief))
    (room : owner.last deque.bottom.toNat ≤ deque.top.toNat + deque.capacity.toNat)
    (counts : ∀ value, value ≠ emptySlot →
      pushes outcome value + (system.stored value + system.owner.holds system.deque.top value) =
        returns outcome value + ((valuesBetween deque.slotAt deque.top.toNat
            (owner.last deque.bottom.toNat)).count value + owner.holds deque.top value)) :
    (system.withOwner (deque, owner, outcome)).Coherent := by
  constructor
  · exact fits
  · exact thief
  · exact room
  intro value real
  have counted := coherent.counted value real
  have exchanged := counts value real
  change ((outcome.toList ++ system.history).filterMap DequeOutcome.pushed).count value =
    ((outcome.toList ++ system.history).filterMap DequeOutcome.returned).count value +
      (valuesBetween deque.slotAt deque.top.toNat (owner.last deque.bottom.toNat)).count value +
        (owner.holds deque.top value + ∑ thief, (system.thief thief).holds value)
  rw [count_pushed_append, count_returned_append]
  rw [pushedValues, returnedValues, held] at counted
  omega

theorem Coherent.withOwner_of_same (coherent : system.Coherent) {deque : ChaseLevDeque}
    {owner : OwnerState} {outcome : Option DequeOutcome}
    (same : SameView system.deque deque system.owner owner) (fits : OwnerFits deque owner)
    (counts : ∀ value, value ≠ emptySlot →
      pushes outcome value + system.owner.holds system.deque.top value =
        returns outcome value + owner.holds deque.top value) :
    (system.withOwner (deque, owner, outcome)).Coherent := by
  refine coherent.withOwner fits (fun thief => same.thiefFits (coherent.thief thief)) ?_ ?_
  · have room := coherent.room
    rw [same.last, same.top, same.capacity]
    exact room
  intro value real
  have exchanged := counts value real
  rw [same.last, same.top, funext same.slotAt]
  rw [same.top] at exchanged
  rw [stored, last]
  omega

section Owner

variable {deque : ChaseLevDeque} {thief : Fin thieves → ThiefState} {history : List DequeOutcome}

theorem toNat_add_one {index : UInt64} (small : index.toNat + 1 < 2 ^ 64) :
    (index + 1).toNat = index.toNat + 1 := by
  exact mod_eq_of_lt small

theorem Coherent.fits {place : OwnerState}
    (coherent : Coherent ⟨deque, place, thief, history⟩) : OwnerFits deque place :=
  coherent.owner

variable {bottom : UInt64}

theorem coherent_pushReadTop {value : UInt64}
    (coherent : Coherent ⟨deque, .pushReadTop value bottom, thief, history⟩) :
    (step ⟨deque, .pushReadTop value bottom, thief, history⟩ .owner).Coherent := by
  rcases coherent.fits with ⟨rfl, order⟩
  change (withOwner _ (if deque.capacity ≤ deque.bottom - deque.top then _ else _)).Coherent
  have sub : (deque.bottom - deque.top).toNat = deque.bottom.toNat - deque.top.toNat :=
    UInt64.toNat_sub_of_le _ _ (UInt64.le_iff_toNat_le.mpr order)
  split
  · exact coherent.withOwner_of_same
      ⟨rfl, rfl, fun _ => rfl, rfl, rfl, rfl, fun _ none => by cases none⟩ order
      (fun _ _ => rfl)
  rename_i room
  rw [le_iff_toNat_le] at room
  have inside : deque.bottom.toNat < deque.top.toNat + deque.capacity.toNat := by
    omega
  exact coherent.withOwner_of_same
    ⟨rfl, rfl, fun _ => rfl, rfl, rfl, rfl, fun _ none => by cases none⟩
    ⟨rfl, order, inside⟩ (fun _ _ => rfl)

theorem coherent_popReadTop (coherent : Coherent ⟨deque, .popReadTop bottom, thief, history⟩) :
    (step ⟨deque, .popReadTop bottom, thief, history⟩ .owner).Coherent := by
  rcases coherent.fits with ⟨rfl, order⟩
  change (withOwner _ (if deque.bottom = 0 ∧ deque.top = 0 then _ else _)).Coherent
  split
  · exact coherent.withOwner_of_same
      ⟨rfl, rfl, fun _ => rfl, rfl, rfl, rfl, fun _ none => by cases none⟩ order
      (fun _ _ => rfl)
  rename_i notBoth
  have positive : 0 < deque.bottom.toNat := by
    by_contra zero
    apply notBoth
    rw [← UInt64.toNat_inj, ← UInt64.toNat_inj, UInt64.toNat_zero]
    omega
  exact coherent.withOwner_of_same
    ⟨rfl, rfl, fun _ => rfl, rfl, rfl, rfl, fun _ none => by cases none⟩
    ⟨rfl, order, positive⟩ (fun _ _ => rfl)

theorem coherent_popLower (coherent : Coherent ⟨deque, .popLower bottom, thief, history⟩) :
    (step ⟨deque, .popLower bottom, thief, history⟩ .owner).Coherent := by
  rcases coherent.fits with ⟨rfl, order, positive⟩
  have small := deque.bottom.toNat_lt
  have one_le : (1 : UInt64) ≤ deque.bottom := by
    exact positive
  have lowered : (deque.bottom - 1).toNat = deque.bottom.toNat - 1 := by
    rw [UInt64.toNat_sub_of_le _ _ one_le, UInt64.toNat_one]
  refine coherent.withOwner_of_same
    ⟨rfl, rfl, fun _ => rfl, ?_, rfl, rfl, fun _ none => by cases none⟩
    ⟨rfl, ?_, ?_⟩ (fun _ _ => rfl)
  · change (deque.bottom - 1).toNat + 1 = deque.bottom.toNat
    omega
  · change deque.top.toNat ≤ (deque.bottom - 1).toNat + 1
    omega
  change (deque.bottom - 1).toNat + 1 < 2 ^ 64
  omega

variable {lowered : UInt64}

theorem coherent_popReadTopAgain
    (coherent : Coherent ⟨deque, .popReadTopAgain lowered, thief, history⟩) :
    (step ⟨deque, .popReadTopAgain lowered, thief, history⟩ .owner).Coherent := by
  rcases coherent.fits with ⟨rfl, order, small⟩
  change (withOwner _ (if deque.top ≤ deque.bottom then _ else _)).Coherent
  split
  · rename_i here
    have order := le_iff_toNat_le.mp here
    refine coherent.withOwner_of_same ⟨rfl, rfl, fun _ => rfl, rfl, rfl, rfl, ?_⟩
      ⟨rfl, order, le_refl _, by omega, small, fun _ => order⟩ (fun _ _ => rfl)
    intro index isReserved
    change (if deque.top < deque.bottom then some deque.bottom else none) = some index at isReserved
    split at isReserved
    · rename_i before
      cases isReserved
      exact .inr (lt_iff_toNat_lt.mp before)
    cases isReserved
  rename_i passed
  have beyond := mt UInt64.le_iff_toNat_le.mpr passed
  have next : deque.top.toNat = deque.bottom.toNat + 1 := by
    omega
  exact coherent.withOwner_of_same
    ⟨rfl, rfl, fun _ => rfl, next, rfl, rfl, fun _ none => by cases none⟩
    ⟨rfl, next⟩ (fun _ _ => rfl)

theorem coherent_popFinish {top value : UInt64} {won : Bool}
    (coherent : Coherent ⟨deque, .popFinish top value won, thief, history⟩) :
    (step ⟨deque, .popFinish top value won, thief, history⟩ .owner).Coherent := by
  rcases coherent.fits with ⟨rfl, order, small⟩
  have next := toNat_add_one small
  refine coherent.withOwner_of_same
    ⟨rfl, rfl, fun _ => rfl, next, rfl, rfl, fun _ none => by cases none⟩ ?_ ?_
  · change deque.top.toNat ≤ (deque.bottom + 1).toNat
    omega
  intro wanted real
  rcases won with _ | _
  · rfl
  have returned := @returns_pop_taken value wanted real
  change 0 + (if true = true ∧ value = wanted then 1 else 0) =
    returns (some (.pop (taken value))) wanted + 0
  rw [returned]
  simp only [true_and, zero_add, add_zero]

theorem coherent_popRestore {top : UInt64}
    (coherent : Coherent ⟨deque, .popRestore top, thief, history⟩) :
    (step ⟨deque, .popRestore top, thief, history⟩ .owner).Coherent := by
  rcases coherent.fits with ⟨rfl, order⟩
  exact coherent.withOwner_of_same
    ⟨rfl, rfl, fun _ => rfl, rfl, rfl, rfl, fun _ none => by cases none⟩ (le_refl _)
    (fun _ _ => rfl)

theorem coherent_pushStore {value : UInt64}
    (coherent : Coherent ⟨deque, .pushStore value bottom, thief, history⟩)
    (cleared : ∀ other, ∀ top ∈ (thief other).clearing, deque.place bottom ≠ deque.place top) :
    (step ⟨deque, .pushStore value bottom, thief, history⟩ .owner).Coherent := by
  rcases coherent.fits with ⟨rfl, order, inside⟩
  have untouched : ∀ index, deque.top.toNat ≤ index → index < deque.bottom.toNat →
      (deque.store deque.bottom value).slotAt index = deque.slotAt index := by
    intro index lower upper
    exact deque.slotAt_store_of_ne (mod_ne_mod upper (by omega))
  refine coherent.withOwner ⟨rfl, order, inside, deque.slotAt_store_self _ _⟩ ?_ coherent.room ?_
  · intro other
    refine (coherent.thief other).mono (le_refl _) rfl (fun _ none => by cases none) ?_ ?_
    · intro top stolen here _ _
      refine ⟨here, fun job => ?_⟩
      rcases job with ⟨below, found⟩ | none
      · refine .inl ⟨below, (untouched top.toNat ?_ below).trans found⟩
        exact le_of_eq (congrArg UInt64.toNat here)
      cases none
    intro top stolen knows index isOccupied
    rcases isOccupied with before | ⟨bottom, written, rfl⟩
    · exact .inl (.inl before)
    cases written
    have apart := cleared other top (congrArg ThiefState.clearing knows)
    rw [deque.place_eq, deque.place_eq] at apart
    exact .inr apart
  intro wanted _
  have same : valuesBetween (deque.store deque.bottom value).slotAt deque.top.toNat
      deque.bottom.toNat = valuesBetween deque.slotAt deque.top.toNat deque.bottom.toNat :=
    valuesBetween_congr untouched
  change _ = 0 + ((valuesBetween (deque.store deque.bottom value).slotAt deque.top.toNat
    deque.bottom.toNat).count wanted + 0)
  rw [same]
  rfl

theorem coherent_pushPublish {value : UInt64}
    (coherent : Coherent ⟨deque, .pushPublish value bottom, thief, history⟩)
    (small : bottom.toNat + 1 < 2 ^ 64) :
    (step ⟨deque, .pushPublish value bottom, thief, history⟩ .owner).Coherent := by
  rcases coherent.fits with ⟨rfl, order, inside, written⟩
  have next : (deque.bottom + 1).toNat = deque.bottom.toNat + 1 := toNat_add_one small
  refine coherent.withOwner ?_ ?_ ?_ ?_
  · change deque.top.toNat ≤ (deque.bottom + 1).toNat
    omega
  · intro other
    refine (coherent.thief other).mono (le_refl _) rfl (fun _ none => by cases none) ?_ ?_
    · intro top stolen here _ _
      refine ⟨here, fun job => ?_⟩
      rcases job with ⟨below, found⟩ | none
      · refine .inl ⟨?_, found⟩
        change top.toNat < deque.bottom.toNat at below
        change top.toNat < (deque.bottom + 1).toNat
        omega
      cases none
    intro top stolen _ index isOccupied
    rcases isOccupied with ⟨lower, upper⟩ | ⟨bottom, none, _⟩
    · change index < (deque.bottom + 1).toNat at upper
      by_cases newest : index = deque.bottom.toNat
      · exact .inl (.inr ⟨deque.bottom, rfl, newest.symm⟩)
      refine .inl (.inl ⟨lower, ?_⟩)
      change index < deque.bottom.toNat
      omega
    cases none
  · change (deque.bottom + 1).toNat ≤ deque.top.toNat + deque.capacity.toNat
    omega
  intro wanted _
  have grown : (valuesBetween deque.slotAt deque.top.toNat
      (deque.bottom.toNat + 1)).count wanted = _ := count_valuesBetween_last order wanted
  rw [written] at grown
  change List.count wanted [value] + ((valuesBetween deque.slotAt deque.top.toNat
    deque.bottom.toNat).count wanted + 0) = 0 + ((valuesBetween deque.slotAt
      deque.top.toNat (deque.bottom + 1).toNat).count wanted + 0)
  rw [next, count_singleton]
  simp only [beq_iff_eq]
  omega

theorem coherent_popSwap_many {top : UInt64}
    (coherent : Coherent ⟨deque, .popSwap lowered top, thief, history⟩) (many : top ≠ lowered) :
    (step ⟨deque, .popSwap lowered top, thief, history⟩ .owner).Coherent := by
  rcases coherent.fits with ⟨rfl, ordered, _, _, small, ahead⟩
  have room : deque.bottom.toNat + 1 ≤ deque.top.toNat + deque.capacity.toNat := coherent.room
  have below : top.toNat < deque.bottom.toNat :=
    lt_of_le_of_ne ordered fun same => many (UInt64.toNat_inj.mp same)
  have order := ahead below
  have isReserved : OwnerState.reserved (.popSwap deque.bottom top) = some deque.bottom :=
    if_pos (lt_iff_toNat_lt.mpr below)
  have untouched : ∀ index, deque.top.toNat ≤ index → index < deque.bottom.toNat →
      (deque.store deque.bottom emptySlot).slotAt index = deque.slotAt index := by
    intro index lower upper
    exact deque.slotAt_store_of_ne (mod_ne_mod upper (by omega))
  change (withOwner _ (if top = deque.bottom then _ else _)).Coherent
  rw [if_neg many]
  refine coherent.withOwner order ?_ ?_ ?_
  · intro other
    refine (coherent.thief other).mono (le_refl _) rfl (fun _ none => by cases none) ?_ ?_
    · intro stolenTop stolen here _ belowReserved
      refine ⟨here, fun job => ?_⟩
      have inside : stolenTop.toNat < deque.bottom.toNat := belowReserved deque.bottom isReserved
      rcases job with ⟨_, found⟩ | none
      · refine .inl ⟨inside, (untouched stolenTop.toNat ?_ inside).trans found⟩
        exact le_of_eq (congrArg UInt64.toNat here)
      cases none
    intro _ _ _ index isOccupied
    rcases isOccupied with ⟨lower, upper⟩ | ⟨bottom, none, _⟩
    · exact .inl (.inl ⟨lower, lt_succ_of_lt upper⟩)
    cases none
  · change deque.bottom.toNat ≤ deque.top.toNat + deque.capacity.toNat
    omega
  intro wanted real
  have shrunk : (valuesBetween deque.slotAt deque.top.toNat
      (deque.bottom.toNat + 1)).count wanted = _ := count_valuesBetween_last order wanted
  have same : valuesBetween (deque.store deque.bottom emptySlot).slotAt deque.top.toNat
      deque.bottom.toNat = valuesBetween deque.slotAt deque.top.toNat deque.bottom.toNat :=
    valuesBetween_congr untouched
  have returned := @returns_pop_taken (deque.load deque.bottom) wanted real
  change 0 + ((valuesBetween deque.slotAt deque.top.toNat
    (deque.bottom.toNat + 1)).count wanted + 0) =
      returns (some (.pop (taken (deque.load deque.bottom)))) wanted +
        ((valuesBetween (deque.store deque.bottom emptySlot).slotAt deque.top.toNat
          deque.bottom.toNat).count wanted + 0)
  rw [returned, same, deque.load_eq]
  omega

theorem coherent_popSwap_last
    (coherent : Coherent ⟨deque, .popSwap lowered lowered, thief, history⟩) :
    (step ⟨deque, .popSwap lowered lowered, thief, history⟩ .owner).Coherent := by
  rcases coherent.fits with ⟨rfl, _, behind, order, small, _⟩
  have atTop : ∀ index, deque.top.toNat ≤ index → index < deque.bottom.toNat + 1 →
      index = deque.bottom.toNat := by
    omega
  change (withOwner _ (if deque.bottom = deque.bottom then _ else _)).Coherent
  rw [if_pos rfl]
  refine coherent.withOwner
    ⟨rfl, behind, order, small, deque.slotAt_store_self deque.bottom emptySlot⟩ ?_ ?_ ?_
  · intro other
    refine (coherent.thief other).mono (le_refl _) rfl (fun _ none => by cases none) ?_ ?_
    · intro top stolen here _ _
      refine ⟨here, fun job => ?_⟩
      rcases job with ⟨below, found⟩ | none
      · have same : top = deque.bottom :=
          UInt64.toNat_inj.mp (atTop top.toNat (le_of_eq (congrArg UInt64.toNat here)) below)
        refine .inr ?_
        rw [← found, same, ← deque.load_eq]
        rfl
      cases none
    intro _ _ _ index isOccupied
    rcases isOccupied with ⟨lower, upper⟩ | ⟨bottom, none, _⟩
    · exact absurd (lt_of_le_of_lt lower upper) (not_lt.mpr behind)
    cases none
  · change deque.bottom.toNat ≤ deque.top.toNat + deque.capacity.toNat
    omega
  intro wanted _
  have nothing : valuesBetween (deque.store deque.bottom emptySlot).slotAt deque.top.toNat
      deque.bottom.toNat = [] := valuesBetween_of_le behind
  change 0 + ((valuesBetween deque.slotAt deque.top.toNat
    (deque.bottom.toNat + 1)).count wanted + 0) =
      0 + ((valuesBetween (deque.store deque.bottom emptySlot).slotAt deque.top.toNat
        deque.bottom.toNat).count wanted +
          if deque.top = deque.bottom ∧ deque.load deque.bottom = wanted then 1 else 0)
  rw [nothing, deque.load_eq]
  by_cases here : deque.top = deque.bottom
  · have single : (valuesBetween deque.slotAt deque.top.toNat
        (deque.bottom.toNat + 1)).count wanted = _ :=
      count_valuesBetween_last (le_of_eq (congrArg UInt64.toNat here)) wanted
    rw [single, valuesBetween_of_le behind, count_nil]
    simp only [here, true_and, zero_add, add_zero]
  have gone : deque.bottom.toNat + 1 ≤ deque.top.toNat := by
    have differ := mt UInt64.toNat_inj.mp here
    omega
  rw [valuesBetween_of_le gone, count_nil, if_neg fun both => here both.1]

theorem coherent_popExchange {top value : UInt64}
    (coherent : Coherent ⟨deque, .popExchange top value, thief, history⟩) :
    (step ⟨deque, .popExchange top value, thief, history⟩ .owner).Coherent := by
  rcases coherent.fits with ⟨rfl, behind, order, small, _⟩
  have next := toNat_add_one small
  have nothing : valuesBetween deque.slotAt deque.top.toNat deque.bottom.toNat = [] :=
    valuesBetween_of_le behind
  change (withOwner _ (if deque.top = deque.bottom then _ else _)).Coherent
  split
  · rename_i won
    have topBefore := congrArg UInt64.toNat won
    refine coherent.withOwner ⟨rfl, next, small⟩ ?_ ?_ ?_
    · intro other
      refine (coherent.thief other).mono ?_ rfl (fun _ none => by cases none) ?_ ?_
      · change deque.top.toNat ≤ (deque.bottom + 1).toNat
        omega
      · intro stolenTop stolen here known _
        change stolenTop.toNat ≤ deque.top.toNat at known
        change deque.bottom + 1 = stolenTop at here
        rw [← here] at known
        omega
      intro _ _ _ index isOccupied
      rcases isOccupied with ⟨lower, upper⟩ | ⟨bottom, none, _⟩
      · change (deque.bottom + 1).toNat ≤ index at lower
        change index < deque.bottom.toNat + 1 at upper
        omega
      cases none
    · change deque.bottom.toNat + 1 ≤ (deque.bottom + 1).toNat + deque.capacity.toNat
      omega
    intro wanted _
    have after : valuesBetween deque.slotAt (deque.bottom + 1).toNat
        (deque.bottom.toNat + 1) = [] := valuesBetween_of_le (le_of_eq next.symm)
    change 0 + ((valuesBetween deque.slotAt deque.top.toNat deque.bottom.toNat).count wanted +
        if deque.top = deque.bottom ∧ value = wanted then 1 else 0) =
          0 + ((valuesBetween deque.slotAt (deque.bottom + 1).toNat
            (deque.bottom.toNat + 1)).count wanted +
              if true = true ∧ value = wanted then 1 else 0)
    rw [nothing, after]
    simp only [won, true_and]
  rename_i lost
  have past : deque.top.toNat = deque.bottom.toNat + 1 := by
    have differ := mt UInt64.toNat_inj.mp lost
    omega
  refine coherent.withOwner ⟨rfl, past, small⟩ ?_ ?_ ?_
  · intro other
    refine (coherent.thief other).mono (le_refl _) rfl (fun _ none => by cases none) ?_ ?_
    · intro stolenTop stolen here _ _
      refine ⟨here, fun job => ?_⟩
      have known := congrArg UInt64.toNat here
      change deque.top.toNat = stolenTop.toNat at known
      rcases job with ⟨below, _⟩ | same
      · change stolenTop.toNat < deque.bottom.toNat at below
        omega
      cases same
      exact absurd here lost
    intro _ _ _ index isOccupied
    rcases isOccupied with ⟨lower, upper⟩ | ⟨bottom, none, _⟩
    · change deque.top.toNat ≤ index at lower
      change index < deque.bottom.toNat + 1 at upper
      omega
    cases none
  · change deque.bottom.toNat + 1 ≤ deque.top.toNat + deque.capacity.toNat
    omega
  intro wanted _
  have after : valuesBetween deque.slotAt deque.top.toNat
      (deque.bottom.toNat + 1) = [] := valuesBetween_of_le (le_of_eq past.symm)
  change 0 + ((valuesBetween deque.slotAt deque.top.toNat deque.bottom.toNat).count wanted +
      if deque.top = deque.bottom ∧ value = wanted then 1 else 0) =
        0 + ((valuesBetween deque.slotAt deque.top.toNat (deque.bottom.toNat + 1)).count wanted +
            if false = true ∧ value = wanted then 1 else 0)
  rw [nothing, after, if_neg fun both => lost both.1, if_neg fun both => Bool.false_ne_true both.1]

end Owner

theorem Coherent.owner_step (coherent : system.Coherent) (fits : system.ActionFits .owner) :
    (system.step .owner).Coherent := by
  rcases system with ⟨deque, owner, thief, history⟩
  cases owner with
  | idle =>
    exact coherent.withOwner_of_same
      ⟨rfl, rfl, fun _ => rfl, rfl, rfl, rfl, fun _ none => by cases none⟩ coherent.owner
      (fun _ _ => rfl)
  | pushReadTop value bottom => exact coherent_pushReadTop coherent
  | pushStore value bottom => exact coherent_pushStore coherent (fits.1 bottom rfl)
  | pushPublish value bottom => exact coherent_pushPublish coherent (fits.2 bottom rfl)
  | popReadTop bottom => exact coherent_popReadTop coherent
  | popLower bottom => exact coherent_popLower coherent
  | popFence lowered =>
    exact coherent.withOwner_of_same
      ⟨rfl, rfl, fun _ => rfl, rfl, rfl, rfl, fun _ none => by cases none⟩ coherent.owner
      (fun _ _ => rfl)
  | popReadTopAgain lowered => exact coherent_popReadTopAgain coherent
  | popSwap lowered top =>
    by_cases single : top = lowered
    · rw [single] at coherent ⊢
      exact coherent_popSwap_last coherent
    exact coherent_popSwap_many coherent single
  | popExchange top value => exact coherent_popExchange coherent
  | popFinish top value won => exact coherent_popFinish coherent
  | popRestore top => exact coherent_popRestore coherent
  | _ =>
    exact coherent.withOwner_of_same
      ⟨rfl, rfl, fun _ => rfl, rfl, rfl, rfl, fun _ none => by cases none⟩
      ⟨rfl, coherent.owner⟩ (fun _ _ => rfl)

theorem Coherent.begin (coherent : system.Coherent) (idle : system.owner = .idle)
    {next : OwnerState} (fits : OwnerFits system.deque next)
    (same : SameView system.deque system.deque system.owner next)
    (holdsNothing : ∀ value, next.holds system.deque.top value = 0) :
    Coherent { system with owner := next } := by
  refine @Coherent.withOwner_of_same _ _ coherent system.deque next none same fits ?_
  intro value _
  rw [idle, holdsNothing]
  rfl

theorem Coherent.withThief (coherent : system.Coherent) {thief : Fin thieves}
    {deque : ChaseLevDeque} {state : ThiefState} {outcome : Option DequeOutcome}
    (owner : OwnerFits deque system.owner) (knows : ThiefFits deque system.owner state)
    (others : ∀ other, ThiefFits system.deque system.owner (system.thief other) →
      ThiefFits deque system.owner (system.thief other))
    (room : system.owner.last deque.bottom.toNat ≤ deque.top.toNat + deque.capacity.toNat)
    (counts : ∀ value, value ≠ emptySlot → pushes outcome value + (system.stored value +
          system.owner.holds system.deque.top value + (system.thief thief).holds value) =
        returns outcome value + ((valuesBetween deque.slotAt deque.top.toNat
            (system.owner.last deque.bottom.toNat)).count value +
              system.owner.holds deque.top value + state.holds value)) :
    (system.withThief thief (deque, state, outcome)).Coherent := by
  constructor
  · exact owner
  · intro other
    change ThiefFits deque system.owner (Function.update system.thief thief state other)
    by_cases same : other = thief
    · rw [same, update_self]
      exact knows
    rw [update_of_ne same]
    exact others other (coherent.thief other)
  · exact room
  intro value real
  have counted := coherent.counted value real
  have exchanged := counts value real
  have hands := sum_update (fun thief => ThiefState.holds thief value) system.thief thief state
  change ((outcome.toList ++ system.history).filterMap DequeOutcome.pushed).count value =
    ((outcome.toList ++ system.history).filterMap DequeOutcome.returned).count value +
      (valuesBetween deque.slotAt deque.top.toNat
        (system.owner.last deque.bottom.toNat)).count value +
        (system.owner.holds deque.top value +
          ∑ other, (Function.update system.thief thief state other).holds value)
  rw [count_pushed_append, count_returned_append]
  rw [pushedValues, returnedValues, held] at counted
  omega

theorem Coherent.withThief_of_look (coherent : system.Coherent) {thief : Fin thieves}
    {state : ThiefState} {outcome : Option DequeOutcome}
    (knows : ThiefFits system.deque system.owner state)
    (counts : ∀ value, pushes outcome value + (system.thief thief).holds value =
      returns outcome value + state.holds value) :
    (system.withThief thief (system.deque, state, outcome)).Coherent := by
  refine coherent.withThief coherent.owner knows (fun _ before => before) coherent.room ?_
  intro value _
  have exchanged := counts value
  rw [stored, last]
  omega

end DequeSystem

section Look

variable {deque : ChaseLevDeque} {owner : OwnerState}

theorem OwnerFits.lt_last (fits : OwnerFits deque owner) {index : Nat}
    (lower : deque.top.toNat ≤ index) (upper : index < deque.bottom.toNat) :
    index < owner.last deque.bottom.toNat := by
  cases owner with
  | popFence lowered => exact lt_succ_of_lt (fits.1 ▸ upper)
  | popReadTopAgain lowered => exact lt_succ_of_lt (fits.1 ▸ upper)
  | popSwap lowered top => exact lt_succ_of_lt (fits.1 ▸ upper)
  | popExchange top value => exact fits.1 ▸ upper
  | popFinish top value won => exact lt_succ_of_lt (fits.1 ▸ upper)
  | popRestore top =>
    rcases fits with ⟨_, past⟩
    omega
  | _ => exact upper

theorem OwnerFits.reserved_eq (fits : OwnerFits deque owner) {index : UInt64}
    (isReserved : owner.reserved = some index) : index = deque.bottom := by
  cases owner with
  | popSwap lowered top =>
    rcases fits with ⟨rfl, _⟩
    change (if top < deque.bottom then some deque.bottom else none) = some index at isReserved
    split at isReserved
    · exact (Option.some.inj isReserved).symm
    cases isReserved
  | _ => cases isReserved

/-- A job that is still at the top can be taken from there: the owner's indices stay in
order and the top does not wrap around. -/
theorem OwnerFits.advance (fits : OwnerFits deque owner) {value : UInt64}
    (job : Readable deque owner deque.top value) (below : BelowReserved owner deque.top) :
    deque.top.toNat + 1 < 2 ^ 64 ∧ ((deque.top + 1).toNat = deque.top.toNat + 1 →
      OwnerFits { deque with top := deque.top + 1 } owner) := by
  have small := deque.bottom.toNat_lt
  have before (looking : owner.exchanging = none) :
      deque.top.toNat < owner.last deque.bottom.toNat := by
    rcases job with ⟨inside, _⟩ | same
    · exact inside
    · rw [looking] at same
      cases same
  cases owner with
  | popFence lowered =>
    rcases fits with ⟨rfl, order, room⟩
    have inside : deque.top.toNat < deque.bottom.toNat + 1 := before rfl
    exact ⟨by omega, fun next => ⟨rfl, next.trans_le inside, room⟩⟩
  | popReadTopAgain lowered =>
    rcases fits with ⟨rfl, order, room⟩
    have inside : deque.top.toNat < deque.bottom.toNat + 1 := before rfl
    exact ⟨by omega, fun next => ⟨rfl, next.trans_le inside, room⟩⟩
  | popSwap lowered top =>
    rcases fits with ⟨rfl, ordered, behind, order, room, _⟩
    have inside : deque.top.toNat < deque.bottom.toNat + 1 := before rfl
    refine ⟨by omega, fun next => ⟨rfl, ordered, ?_, next.trans_le inside, room, ?_⟩⟩
    · change top.toNat ≤ (deque.top + 1).toNat
      omega
    intro many
    have isReserved : OwnerState.reserved (.popSwap deque.bottom top) =
        some deque.bottom := if_pos (lt_iff_toNat_lt.mpr many)
    exact next.trans_le (below deque.bottom isReserved)
  | popExchange top held =>
    rcases fits with ⟨rfl, behind, order, room, cleared⟩
    rcases job with ⟨inside, _⟩ | same
    · change deque.top.toNat < deque.bottom.toNat at inside
      omega
    have here : deque.bottom = deque.top := congrArg Prod.fst (Option.some.inj same)
    have topBefore := congrArg UInt64.toNat here
    refine ⟨by omega, fun next => ⟨rfl, ?_, ?_, room, cleared⟩⟩
    · change deque.bottom.toNat ≤ (deque.top + 1).toNat
      omega
    change (deque.top + 1).toNat ≤ deque.bottom.toNat + 1
    omega
  | popFinish top held won =>
    rcases fits with ⟨rfl, past, _⟩
    have inside : deque.top.toNat < deque.bottom.toNat + 1 := before rfl
    omega
  | popRestore top =>
    rcases fits with ⟨rfl, _⟩
    exact absurd (before rfl) (lt_irrefl _)
  | pushReadTop value bottom =>
    rcases fits with ⟨rfl, _⟩
    have inside : deque.top.toNat < deque.bottom.toNat := before rfl
    exact ⟨by omega, fun next => ⟨rfl, next.trans_le inside⟩⟩
  | popReadTop bottom =>
    rcases fits with ⟨rfl, _⟩
    have inside : deque.top.toNat < deque.bottom.toNat := before rfl
    exact ⟨by omega, fun next => ⟨rfl, next.trans_le inside⟩⟩
  | popLower bottom =>
    rcases fits with ⟨rfl, _, positive⟩
    have inside : deque.top.toNat < deque.bottom.toNat := before rfl
    exact ⟨by omega, fun next => ⟨rfl, next.trans_le inside, positive⟩⟩
  | pushStore value bottom =>
    rcases fits with ⟨rfl, _, room⟩
    have inside : deque.top.toNat < deque.bottom.toNat := before rfl
    refine ⟨by omega, fun next => ⟨rfl, next.trans_le inside, ?_⟩⟩
    change deque.bottom.toNat < (deque.top + 1).toNat + deque.capacity.toNat
    omega
  | pushPublish value bottom =>
    rcases fits with ⟨rfl, _, room, written⟩
    have inside : deque.top.toNat < deque.bottom.toNat := before rfl
    refine ⟨by omega, fun next => ⟨rfl, next.trans_le inside, ?_, written⟩⟩
    change deque.bottom.toNat < (deque.top + 1).toNat + deque.capacity.toNat
    omega
  | _ =>
    have inside : deque.top.toNat < deque.bottom.toNat := before rfl
    exact ⟨by omega, fun next => next.trans_le inside⟩

theorem OwnerFits.clear (fits : OwnerFits deque owner) {top : UInt64}
    (apart : ∀ index, Occupied deque owner index →
      index % deque.capacity.toNat ≠ top.toNat % deque.capacity.toNat) :
    OwnerFits (deque.store top emptySlot) owner := by
  cases owner with
  | pushPublish value bottom =>
    rcases fits with ⟨rfl, order, room, written⟩
    refine ⟨rfl, order, room, ?_⟩
    rw [deque.slotAt_store_of_ne (apart _ (.inr ⟨deque.bottom, rfl, rfl⟩))]
    exact written
  | popExchange expected value =>
    rcases fits with ⟨rfl, behind, order, room, cleared⟩
    refine ⟨rfl, behind, order, room, ?_⟩
    rw [deque.slotAt_store]
    split
    · rfl
    exact cleared
  | _ => exact fits

theorem OwnerFits.unpublished_eq (fits : OwnerFits deque owner) {bottom : UInt64}
    (unpublished : owner.unpublished = some bottom) :
    owner.exchanging = none ∧ owner.last deque.bottom.toNat = bottom.toNat ∧
      bottom.toNat < deque.top.toNat + deque.capacity.toNat := by
  cases owner with
  | pushPublish pushed published =>
    cases unpublished
    rcases fits with ⟨rfl, _, room, _⟩
    exact ⟨rfl, rfl, room⟩
  | _ => cases unpublished

theorem OwnerState.eq_of_exchanging {top value : UInt64}
    (exchanging : owner.exchanging = some (top, value)) : owner = .popExchange top value := by
  cases owner with
  | popExchange expected held =>
    cases exchanging
    rfl
  | _ => cases exchanging

theorem OwnerFits.holds_eq (fits : OwnerFits deque owner)
    (inside : deque.top.toNat < owner.last deque.bottom.toNat) (top value : UInt64) :
    owner.holds top value = owner.holds deque.top value := by
  cases owner with
  | popExchange expected held =>
    rcases fits with ⟨rfl, behind, _⟩
    exact absurd inside (not_lt.mpr behind)
  | _ => rfl

end Look

namespace DequeSystem

variable {thieves : Nat} {system : DequeSystem thieves}

theorem Coherent.exchange (coherent : system.Coherent) {thief : Fin thieves} {value : UInt64}
    (knows : system.thief thief = .exchange system.deque.top value) :
    (system.withThief thief ({ system.deque with top := system.deque.top + 1 },
      .clear system.deque.top value, none)).Coherent := by
  have fits := coherent.thief thief
  rw [knows] at fits
  rcases fits with ⟨_, below, atTop, real⟩
  have job := atTop rfl
  rcases coherent.owner.advance job below with ⟨small, advances⟩
  have next := toNat_add_one small
  have room : system.owner.last system.deque.bottom.toNat ≤
      system.deque.top.toNat + system.deque.capacity.toNat := coherent.room
  refine coherent.withThief (advances next) ⟨?_, real, ?_⟩ ?_ ?_ ?_
  · change system.deque.top.toNat < (system.deque.top + 1).toNat
    omega
  · intro index isOccupied
    have beyond : system.deque.top.toNat < index ∧
        index < system.deque.top.toNat + system.deque.capacity.toNat := by
      rcases isOccupied with ⟨lower, upper⟩ | ⟨bottom, unpublished, rfl⟩
      · change (system.deque.top + 1).toNat ≤ index at lower
        change index < system.owner.last system.deque.bottom.toNat at upper
        omega
      rcases coherent.owner.unpublished_eq unpublished with ⟨none, last_eq, inside⟩
      rcases job with ⟨ahead, _⟩ | some
      · exact ⟨last_eq ▸ ahead, inside⟩
      rw [none] at some
      cases some
    exact (mod_ne_mod beyond.1 beyond.2).symm
  · intro other before
    refine before.mono ?_ rfl (fun _ isReserved => .inl isReserved) ?_ ?_
    · change system.deque.top.toNat ≤ (system.deque.top + 1).toNat
      omega
    · intro top stolen here behind _
      change system.deque.top + 1 = top at here
      rw [← here] at behind
      omega
    intro _ _ _ index isOccupied
    rcases isOccupied with ⟨lower, upper⟩ | unpublished
    · change (system.deque.top + 1).toNat ≤ index at lower
      exact .inl (.inl ⟨by omega, upper⟩)
    exact .inl (.inr unpublished)
  · change system.owner.last system.deque.bottom.toNat ≤
      (system.deque.top + 1).toNat + system.deque.capacity.toNat
    omega
  intro wanted _
  rw [knows]
  change 0 + ((valuesBetween system.deque.slotAt system.deque.top.toNat
      (system.owner.last system.deque.bottom.toNat)).count wanted +
        system.owner.holds system.deque.top wanted + 0) =
    0 + ((valuesBetween system.deque.slotAt (system.deque.top + 1).toNat
      (system.owner.last system.deque.bottom.toNat)).count wanted +
        system.owner.holds (system.deque.top + 1) wanted +
          if value = wanted then 1 else 0)
  rw [next]
  rcases job with ⟨inside, found⟩ | exchanging
  · have shrunk : (valuesBetween system.deque.slotAt system.deque.top.toNat
        (system.owner.last system.deque.bottom.toNat)).count wanted = _ :=
      count_valuesBetween_first inside wanted
    rw [shrunk, found, coherent.owner.holds_eq inside (system.deque.top + 1)]
    omega
  have place := OwnerState.eq_of_exchanging exchanging
  have moved : system.deque.top + 1 ≠ system.deque.top := by
    intro same
    rw [same] at next
    omega
  rw [place]
  change 0 + ((valuesBetween system.deque.slotAt system.deque.top.toNat
      system.deque.top.toNat).count wanted +
        (if system.deque.top = system.deque.top ∧ value = wanted then 1 else 0) + 0) =
    0 + ((valuesBetween system.deque.slotAt (system.deque.top.toNat + 1)
      system.deque.top.toNat).count wanted +
        (if system.deque.top + 1 = system.deque.top ∧ value = wanted then 1 else 0) +
          if value = wanted then 1 else 0)
  rw [valuesBetween_of_le (le_refl _), valuesBetween_of_le (le_succ _)]
  simp only [moved, true_and, false_and, if_false]
  omega

theorem Coherent.clear (coherent : system.Coherent) {thief : Fin thieves} {top value : UInt64}
    (knows : system.thief thief = .clear top value) :
    (system.withThief thief (system.deque.store top emptySlot, .idle,
      some (.steal (.success value)))).Coherent := by
  have fits := coherent.thief thief
  rw [knows] at fits
  rcases fits with ⟨_, real, apart⟩
  have untouched : ∀ index, system.deque.top.toNat ≤ index →
      index < system.owner.last system.deque.bottom.toNat →
        (system.deque.store top emptySlot).slotAt index = system.deque.slotAt index :=
    fun index lower upper =>
      system.deque.slotAt_store_of_ne (apart index (.inl ⟨lower, upper⟩))
  refine coherent.withThief (coherent.owner.clear apart) trivial ?_ coherent.room ?_
  · intro other before
    refine before.mono (le_refl _) rfl (fun _ isReserved => .inl isReserved) ?_
      (fun _ _ _ _ isOccupied => .inl isOccupied)
    intro otherTop stolen here _ _
    refine ⟨here, fun job => job.imp_left fun inside => ⟨inside.1, ?_⟩⟩
    refine (untouched otherTop.toNat ?_ inside.1).trans inside.2
    exact le_of_eq (congrArg UInt64.toNat here)
  intro wanted _
  have same : valuesBetween (system.deque.store top emptySlot).slotAt
      system.deque.top.toNat (system.owner.last system.deque.bottom.toNat) =
      valuesBetween system.deque.slotAt system.deque.top.toNat
        (system.owner.last system.deque.bottom.toNat) := valuesBetween_congr untouched
  rw [knows]
  change 0 + ((valuesBetween system.deque.slotAt system.deque.top.toNat
      (system.owner.last system.deque.bottom.toNat)).count wanted +
        system.owner.holds system.deque.top wanted + if value = wanted then 1 else 0) =
    List.count wanted [value] +
      ((valuesBetween (system.deque.store top emptySlot).slotAt system.deque.top.toNat
        (system.owner.last system.deque.bottom.toNat)).count wanted +
          system.owner.holds system.deque.top wanted + 0)
  rw [same, count_singleton]
  simp only [beq_iff_eq]
  omega

theorem Coherent.thief_step (coherent : system.Coherent) (thief : Fin thieves) :
    (system.step (.thief thief)).Coherent := by
  have fits := coherent.thief thief
  rw [step_thief]
  cases knows : system.thief thief with
  | idle => exact coherent.withThief_of_look trivial fun _ => by rw [knows]; rfl
  | readTop => exact coherent.withThief_of_look (le_refl _) fun _ => by rw [knows]; rfl
  | fence top =>
    rw [knows] at fits
    exact coherent.withThief_of_look fits fun _ => by rw [knows]; rfl
  | readBottom top =>
    rw [knows] at fits
    change (system.withThief thief (if system.deque.bottom ≤ top then _ else _)).Coherent
    split
    · exact coherent.withThief_of_look trivial fun _ => by rw [knows]; rfl
    rename_i passed
    have inside : top.toNat < system.deque.bottom.toNat := by
      have beyond := mt UInt64.le_iff_toNat_le.mpr passed
      omega
    refine coherent.withThief_of_look ⟨fits, ?_, ?_⟩ fun _ => by rw [knows]; rfl
    · intro index isReserved
      rw [coherent.owner.reserved_eq isReserved]
      exact inside
    intro here
    have lower := le_of_eq (congrArg UInt64.toNat here)
    exact ⟨_, .inl ⟨coherent.owner.lt_last lower inside, rfl⟩⟩
  | readSlot top =>
    rw [knows] at fits
    rcases fits with ⟨behind, below, atTop⟩
    change (system.withThief thief (if system.deque.load top = emptySlot then _ else _)).Coherent
    split
    · exact coherent.withThief_of_look trivial fun _ => by rw [knows]; rfl
    rename_i real
    refine coherent.withThief_of_look ⟨behind, below, ?_, real⟩ fun _ => by
      rw [knows]; rfl
    intro here
    rcases atTop here with ⟨value, inside | exchanging⟩
    · exact .inl ⟨inside.1, (system.deque.load_eq top).symm⟩
    have ownerFits := coherent.owner
    rw [OwnerState.eq_of_exchanging exchanging] at ownerFits
    rcases ownerFits with ⟨_, _, _, _, cleared⟩
    rw [system.deque.load_eq] at real
    exact absurd cleared real
  | exchange top value =>
    change (system.withThief thief (if system.deque.top = top then _ else _)).Coherent
    split
    · rename_i won
      subst won
      exact coherent.exchange knows
    exact coherent.withThief_of_look trivial fun _ => by rw [knows]; rfl
  | clear top value => exact coherent.clear knows

theorem coherent_start {deque : ChaseLevDeque} {capacity : UInt64}
    (built : ChaseLevDeque.withCapacity capacity = .ok deque) :
    (start deque : DequeSystem thieves).Coherent := by
  have fresh : deque.top = 0 ∧ deque.bottom = 0 := by
    unfold ChaseLevDeque.withCapacity at built
    split at built
    · cases built
    cases built
    exact ⟨rfl, rfl⟩
  have top_eq : deque.top.toNat = 0 := by
    rw [fresh.1]
    rfl
  have bottom_eq : deque.bottom.toNat = 0 := by
    rw [fresh.2]
    rfl
  constructor
  · change deque.top.toNat ≤ deque.bottom.toNat
    omega
  · intro thief
    trivial
  · change deque.bottom.toNat ≤ deque.top.toNat + deque.capacity.toNat
    omega
  intro value _
  have nothing : valuesBetween deque.slotAt deque.top.toNat deque.bottom.toNat = [] :=
    valuesBetween_of_le (by omega)
  change 0 = 0 + (valuesBetween deque.slotAt deque.top.toNat deque.bottom.toNat).count value +
    (0 + ∑ thief : Fin thieves, ThiefState.holds .idle value)
  have hands : (∑ _thief : Fin thieves, ThiefState.holds .idle value) = 0 :=
    Finset.sum_eq_zero fun _ _ => rfl
  rw [nothing, hands]
  rfl

theorem Coherent.step (coherent : system.Coherent) {action : DequeAction thieves}
    (fits : system.ActionFits action) : (system.step action).Coherent := by
  cases action with
  | push value =>
    change Coherent (if system.owner = .idle then _ else _)
    split
    · rename_i idle
      have order := coherent.owner
      rw [idle] at order
      refine @Coherent.begin _ _ coherent idle (.pushReadBottom value) order ?_ fun _ => rfl
      rw [idle]
      exact ⟨rfl, rfl, fun _ => rfl, rfl, rfl, rfl, fun _ none => by cases none⟩
    exact coherent
  | pop =>
    change Coherent (if system.owner = .idle then _ else _)
    split
    · rename_i idle
      have order := coherent.owner
      rw [idle] at order
      refine @Coherent.begin _ _ coherent idle .popReadBottom order ?_ fun _ => rfl
      rw [idle]
      exact ⟨rfl, rfl, fun _ => rfl, rfl, rfl, rfl, fun _ none => by cases none⟩
    exact coherent
  | owner => exact coherent.owner_step fits
  | steal thief =>
    change Coherent (if system.thief thief = .idle then _ else _)
    split
    · rename_i idle
      refine @Coherent.withThief_of_look _ _ coherent thief .readTop none trivial ?_
      intro value
      rw [idle]
      rfl
    exact coherent
  | thief thief => exact coherent.thief_step thief

theorem Coherent.conservesJobs (coherent : system.Coherent) : system.ConservesJobs := by
  intro value real
  have counted := coherent.counted value real
  refine ⟨by omega, fun quiet => ?_⟩
  rcases quiet with ⟨ownerIdle, thievesIdle⟩
  have hands : system.held value = 0 := by
    rw [held, ownerIdle, Finset.sum_eq_zero]
    · rfl
    intro thief _
    rw [thievesIdle]
    rfl
  have slots : system.stored value = system.deque.remaining.count value := by
    rw [stored, last, ownerIdle]
    rfl
  omega

/-- As long as no slot is written that a thief has yet to clear and the indices do not
wrap around, no job is lost and none is returned twice, however the steps interleave. -/
theorem jobs_conserved (capacity : UInt64) (deque : ChaseLevDeque)
    (actions : List (DequeAction thieves))
    (built : ChaseLevDeque.withCapacity capacity = .ok deque)
    (fits : EachStep step ActionFits (start deque) actions) :
    Throughout step ConservesJobs (start deque) actions := by
  have throughout : Throughout step Coherent (start deque) actions :=
    throughout_of_eachStep (fun _ _ coherent meets => coherent.step meets)
      (coherent_start built) fits
  exact throughout.imp fun _ coherent => coherent.conservesJobs

def singleSlot : ChaseLevDeque where
  capacity := 1
  mask := 0
  top := 0
  bottom := 0
  slots := [emptySlot]
  capacity_pos := by decide
  capacity_power := by decide
  mask_eq := by decide
  length_slots := rfl

/-- A push takes four accesses, and a steal that succeeds takes six. -/
def pushing (value : UInt64) : List (DequeAction 1) :=
  .push value :: List.replicate 4 .owner

def stealing : List (DequeAction 1) :=
  .steal 0 :: List.replicate 6 (.thief 0)

theorem singleSlot_built : ChaseLevDeque.withCapacity 1 = .ok singleSlot :=
  rfl

theorem jobs_conserved_stolen :
    EachStep step ActionFits (start singleSlot) (pushing 5 ++ stealing ++ pushing 6) ∧
      Throughout step ConservesJobs (start singleSlot) (pushing 5 ++ stealing ++ pushing 6) := by
  have fits : EachStep step ActionFits (start singleSlot) (pushing 5 ++ stealing ++ pushing 6) := by
    decide +kernel
  exact ⟨fits, jobs_conserved 1 singleSlot _ singleSlot_built fits⟩

/-- The owner pushes the next job into the slot that a thief has won but not yet cleared;
the thief then clears it, and the job is in no slot and was returned by no call. -/
theorem not_jobs_conserved_late_clear : ChaseLevDeque.withCapacity 1 = .ok singleSlot ∧
      ¬ Throughout step ConservesJobs (start singleSlot)
        (pushing 5 ++ stealing.take 6 ++ pushing 6 ++ [.thief 0]) := by
  refine ⟨rfl, fun always => ?_⟩
  have quiet : Quiet (run step (start singleSlot)
      (pushing 5 ++ stealing.take 6 ++ pushing 6 ++ [.thief 0])) := by
    constructor
    · decide +kernel
    decide +kernel
  have counted := (always.run 6 (by decide)).2 quiet
  revert counted
  decide +kernel

end DequeSystem

end Eidolon.Server
