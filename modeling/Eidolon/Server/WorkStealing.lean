import Eidolon.Library.IndexRange
import Eidolon.Library.Run

/-!
# The work-stealing deque

A ring of slots with one owner, who pushes and pops at the bottom, and any number of
thieves, who steal at the top.  Every atomic load, store, swap, exchange and fence of a
call is one step, and the steps of the owner and of the thieves interleave in any order.
-/

namespace Eidolon.Server

open Library List

def emptySlot : UInt64 := 0xFFFFFFFFFFFFFFFF

def defaultDequeCapacity : UInt64 := 4096

inductive WorkStealingError where
  | queueFull
  | invalidCapacity
  | workerError
  deriving DecidableEq

inductive StealResult where
  | empty
  | abort
  | success (value : UInt64)
  deriving DecidableEq

structure ChaseLevDeque where
  capacity : UInt64
  mask : UInt64
  top : UInt64
  bottom : UInt64
  slots : List UInt64
  capacity_pos : capacity ≠ 0
  capacity_power : capacity &&& (capacity - 1) = 0
  mask_eq : mask = capacity - 1
  length_slots : slots.length = capacity.toNat
  deriving DecidableEq

namespace ChaseLevDeque

def withCapacity (capacity : UInt64) : Except WorkStealingError ChaseLevDeque :=
  if invalid : capacity = 0 ∨ capacity &&& (capacity - 1) ≠ 0 then
    .error .invalidCapacity
  else
    .ok
      { capacity := capacity
        mask := capacity - 1
        top := 0
        bottom := 0
        slots := List.replicate capacity.toNat emptySlot
        capacity_pos := (not_or.mp invalid).1
        capacity_power := not_not.mp (not_or.mp invalid).2
        mask_eq := rfl
        length_slots := length_replicate }

variable (deque : ChaseLevDeque)

def place (index : UInt64) : Nat :=
  (index &&& deque.mask).toNat

def load (index : UInt64) : UInt64 :=
  deque.slots.getD (deque.place index) emptySlot

def store (index value : UInt64) : ChaseLevDeque :=
  { deque with
    slots := deque.slots.set (deque.place index) value
    length_slots := by rw [length_set, deque.length_slots] }

def len : Nat :=
  deque.bottom.toNat - deque.top.toNat

end ChaseLevDeque

inductive OwnerState where
  | idle
  | pushReadBottom (value : UInt64)
  | pushReadTop (value bottom : UInt64)
  | pushStore (value bottom : UInt64)
  | pushPublish (value bottom : UInt64)
  | popReadBottom
  | popReadTop (bottom : UInt64)
  | popLower (bottom : UInt64)
  | popFence (lowered : UInt64)
  | popReadTopAgain (lowered : UInt64)
  | popSwap (lowered top : UInt64)
  | popExchange (top value : UInt64)
  | popFinish (top value : UInt64) (won : Bool)
  | popRestore (top : UInt64)
  deriving DecidableEq

inductive ThiefState where
  | idle
  | readTop
  | fence (top : UInt64)
  | readBottom (top : UInt64)
  | readSlot (top : UInt64)
  | exchange (top value : UInt64)
  | clear (top value : UInt64)
  deriving DecidableEq

inductive DequeOutcome where
  | push (value : UInt64) (result : Except WorkStealingError Unit)
  | pop (result : Option UInt64)
  | steal (result : StealResult)

def taken (value : UInt64) : Option UInt64 :=
  if value ≠ emptySlot then some value else none

namespace ChaseLevDeque

def ownerStep (deque : ChaseLevDeque) (owner : OwnerState) :
    ChaseLevDeque × OwnerState × Option DequeOutcome :=
  match owner with
  | .idle => (deque, .idle, none)
  | .pushReadBottom value => (deque, .pushReadTop value deque.bottom, none)
  | .pushReadTop value bottom =>
    if deque.capacity ≤ bottom - deque.top then
      (deque, .idle, some (.push value (.error .queueFull)))
    else
      (deque, .pushStore value bottom, none)
  | .pushStore value bottom => (deque.store bottom value, .pushPublish value bottom, none)
  | .pushPublish value bottom =>
    ({ deque with bottom := bottom + 1 }, .idle, some (.push value (.ok ())))
  | .popReadBottom => (deque, .popReadTop deque.bottom, none)
  | .popReadTop bottom =>
    if bottom = 0 ∧ deque.top = 0 then
      (deque, .idle, some (.pop none))
    else
      (deque, .popLower bottom, none)
  | .popLower bottom => ({ deque with bottom := bottom - 1 }, .popFence (bottom - 1), none)
  | .popFence lowered => (deque, .popReadTopAgain lowered, none)
  | .popReadTopAgain lowered =>
    if deque.top ≤ lowered then
      (deque, .popSwap lowered deque.top, none)
    else
      (deque, .popRestore deque.top, none)
  | .popSwap lowered top =>
    let value := deque.load lowered
    let swapped := deque.store lowered emptySlot
    -- the last element is raced for with the thieves
    if top = lowered then
      (swapped, .popExchange top value, none)
    else
      (swapped, .idle, some (.pop (taken value)))
  | .popExchange top value =>
    if deque.top = top then
      ({ deque with top := top + 1 }, .popFinish top value true, none)
    else
      (deque, .popFinish top value false, none)
  | .popFinish top value won =>
    ({ deque with bottom := top + 1 }, .idle, some (.pop (if won then taken value else none)))
  | .popRestore top => ({ deque with bottom := top }, .idle, some (.pop none))

def thiefStep (deque : ChaseLevDeque) (thief : ThiefState) :
    ChaseLevDeque × ThiefState × Option DequeOutcome :=
  match thief with
  | .idle => (deque, .idle, none)
  | .readTop => (deque, .fence deque.top, none)
  | .fence top => (deque, .readBottom top, none)
  | .readBottom top =>
    if deque.bottom ≤ top then
      (deque, .idle, some (.steal .empty))
    else
      (deque, .readSlot top, none)
  | .readSlot top =>
    if deque.load top = emptySlot then
      (deque, .idle, some (.steal .abort))
    else
      (deque, .exchange top (deque.load top), none)
  | .exchange top value =>
    if deque.top = top then
      ({ deque with top := top + 1 }, .clear top value, none)
    else
      (deque, .idle, some (.steal .abort))
  | .clear top value => (deque.store top emptySlot, .idle, some (.steal (.success value)))

end ChaseLevDeque

structure DequeSystem (thieves : Nat) where
  deque : ChaseLevDeque
  owner : OwnerState
  thief : Fin thieves → ThiefState
  history : List DequeOutcome

/-- A call begins or one access of a running call is made. -/
inductive DequeAction (thieves : Nat) where
  | push (value : UInt64)
  | pop
  | owner
  | steal (thief : Fin thieves)
  | thief (thief : Fin thieves)
  deriving DecidableEq

namespace DequeSystem

variable {thieves : Nat}

def start (deque : ChaseLevDeque) : DequeSystem thieves where
  deque := deque
  owner := .idle
  thief := fun _ => .idle
  history := []

def step (system : DequeSystem thieves) (action : DequeAction thieves) : DequeSystem thieves :=
  match action with
  | .push value =>
    if system.owner = .idle then
      { system with owner := .pushReadBottom value }
    else system
  | .pop =>
    if system.owner = .idle then
      { system with owner := .popReadBottom }
    else system
  | .owner =>
    let (deque, owner, outcome) := system.deque.ownerStep system.owner
    { system with
      deque := deque
      owner := owner
      history := outcome.toList ++ system.history }
  | .steal thief =>
    if system.thief thief = .idle then
      { system with thief := Function.update system.thief thief .readTop }
    else system
  | .thief thief =>
    let (deque, state, outcome) := system.deque.thiefStep (system.thief thief)
    { system with
      deque := deque
      thief := Function.update system.thief thief state
      history := outcome.toList ++ system.history }

end DequeSystem

def DequeOutcome.pushed : DequeOutcome → Option UInt64
  | .push value (.ok _) => some value
  | _ => none

def DequeOutcome.returned : DequeOutcome → Option UInt64
  | .pop result => result
  | .steal (.success value) => some value
  | _ => none

namespace ChaseLevDeque

variable (deque : ChaseLevDeque)

theorem capacity_toNat_pos : 0 < deque.capacity.toNat := by
  have notZero := deque.capacity_pos
  rw [Ne, ← UInt64.toNat_inj, UInt64.toNat_zero] at notZero
  omega

theorem place_eq (index : UInt64) : deque.place index = index.toNat % deque.capacity.toNat := by
  have positive := deque.capacity_toNat_pos
  have one_le : (1 : UInt64) ≤ deque.capacity :=
    positive
  have masked : deque.mask.toNat = deque.capacity.toNat - 1 := by
    rw [deque.mask_eq, UInt64.toNat_sub_of_le _ _ one_le, UInt64.toNat_one]
  have power : deque.capacity.toNat &&& (deque.capacity.toNat - 1) = 0 := by
    have same := congrArg UInt64.toNat deque.capacity_power
    rw [UInt64.toNat_and, UInt64.toNat_sub_of_le _ _ one_le] at same
    exact same
  rcases (Nat.and_sub_one_eq_zero_iff_isPowerOfTwo (Nat.pos_iff_ne_zero.mp positive)).mp power
    with ⟨exponent, isPower⟩
  rw [place, UInt64.toNat_and, masked, isPower, Nat.and_two_pow_sub_one_eq_mod]

def slotAt (index : Nat) : UInt64 :=
  deque.slots.getD (index % deque.capacity.toNat) emptySlot

theorem load_eq (index : UInt64) : deque.load index = deque.slotAt index.toNat := by
  rw [load, place_eq, slotAt]

theorem slotAt_store (index value : UInt64) (other : Nat) : (deque.store index value).slotAt other =
      if other % deque.capacity.toNat = index.toNat % deque.capacity.toNat then value
      else deque.slotAt other := by
  have inside : index.toNat % deque.capacity.toNat < deque.slots.length := by
    rw [deque.length_slots]
    exact Nat.mod_lt _ deque.capacity_toNat_pos
  change (deque.slots.set (deque.place index) value).getD
    (other % deque.capacity.toNat) emptySlot = _
  rw [place_eq, getD_eq_getElem?_getD, List.getElem?_set]
  by_cases same : index.toNat % deque.capacity.toNat = other % deque.capacity.toNat
  · rw [if_pos same, if_pos inside, if_pos same.symm]
    rfl
  rw [if_neg same, if_neg (Ne.symm same), slotAt, getD_eq_getElem?_getD]

theorem slotAt_store_of_ne {index value : UInt64} {other : Nat}
    (apart : other % deque.capacity.toNat ≠ index.toNat % deque.capacity.toNat) :
    (deque.store index value).slotAt other = deque.slotAt other := by
  rw [slotAt_store, if_neg apart]

theorem slotAt_store_self (index value : UInt64) :
    (deque.store index value).slotAt index.toNat = value := by
  rw [slotAt_store, if_pos rfl]

def remaining : List UInt64 :=
  valuesBetween deque.slotAt deque.top.toNat deque.bottom.toNat

end ChaseLevDeque

end Eidolon.Server
