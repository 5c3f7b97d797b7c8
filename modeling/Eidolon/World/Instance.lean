import Eidolon.Library.MachineInt
import Eidolon.Library.Run
import Eidolon.Library.SlotArray
import Eidolon.World.Error

/-!
# Dungeon instances

Rooms for small parties, which a pool hands out and takes back by the numbers of their slots.
The numbers have sixteen bits.
-/

namespace Eidolon.World

open Library

def maxPartyMembers : Nat := 4

def roomCleanupTimeoutTicks : Nat := 1200

def combatTimeoutTicks : Nat := 36000

inductive InstanceLifecycle where
  | allocated
  | activeCombat
  | victoryReward
  | pendingCleanup
  deriving DecidableEq

structure DungeonInstance where
  id : InstanceId
  state : InstanceLifecycle
  partyMembers : SlotArray maxPartyMembers UInt32
  partyCount : Nat
  /-- Ticks since the room was allocated. -/
  elapsedTicks : UInt32
  bossHealth : UInt32
  bossMaxHealth : UInt32
  deriving DecidableEq

namespace DungeonInstance

def new (id : InstanceId) (bossMaxHealth : UInt32) : DungeonInstance where
  id := id
  state := .allocated
  partyMembers := SlotArray.empty _ _
  partyCount := 0
  elapsedTicks := 0
  bossHealth := bossMaxHealth
  bossMaxHealth := bossMaxHealth

variable (room : DungeonInstance)

def joinParty (playerId : UInt32) : Except WorldError Unit × DungeonInstance :=
  if room.state = .pendingCleanup then
    (.error (.invalidInstanceState "Allocated or ActiveCombat" "PendingCleanup"), room)
  else if playerId ∈ room.partyMembers.entries then
    (.ok (), room)
  else
    match room.partyMembers.fillFirst? playerId with
    | none => (.error .partyFull, room)
    | some filled =>
      (.ok (),
        { room with
          partyMembers := filled
          partyCount := room.partyCount + 1
          state := if room.state = .allocated then .activeCombat else room.state })

def leaveParty (playerId : UInt32) : Except WorldError Unit × DungeonInstance :=
  match room.partyMembers.findFirst? fun member => member == playerId with
  | none => (.error (.entityNotFound playerId), room)
  | some (slot, _) =>
    (.ok (),
      { room with
        partyMembers := room.partyMembers.set slot none
        partyCount := room.partyCount - 1
        state := if room.partyCount - 1 = 0 then .pendingCleanup else room.state })

def applyBossDamage (damage : UInt32) : Bool × DungeonInstance :=
  if room.state ≠ .activeCombat then
    (false, room)
  else
    let health := saturatingSub32 room.bossHealth damage
    if health = 0 then
      (true, { room with bossHealth := health, state := .victoryReward })
    else
      (false, { room with bossHealth := health })

def tick : Bool × DungeonInstance :=
  let elapsed := saturatingAdd32 room.elapsedTicks 1
  match room.state with
  | .allocated => (true, { room with elapsedTicks := elapsed })
  | .activeCombat =>
    (true,
      { room with
        elapsedTicks := elapsed
        state := if combatTimeoutTicks < elapsed.toNat then .pendingCleanup
          else .activeCombat })
  | .victoryReward =>
    (true,
      { room with
        elapsedTicks := elapsed
        state := if roomCleanupTimeoutTicks < elapsed.toNat then .pendingCleanup
          else .victoryReward })
  | .pendingCleanup => (false, { room with elapsedTicks := elapsed })

theorem joinParty_cases (room : DungeonInstance) (playerId : UInt32) :
    (room.joinParty playerId).2 = room ∨
      (room.joinParty playerId).1 = .ok () ∧ room.state ≠ .pendingCleanup ∧
        ∃ filled, room.partyMembers.fillFirst? playerId = some filled ∧
          (room.joinParty playerId).2 =
            { room with
              partyMembers := filled
              partyCount := room.partyCount + 1
              state := if room.state = .allocated then .activeCombat else room.state } := by
  unfold joinParty
  by_cases closing : room.state = .pendingCleanup
  · rw [if_pos closing]
    exact .inl rfl
  rw [if_neg closing]
  by_cases member : playerId ∈ room.partyMembers.entries
  · rw [if_pos member]
    exact .inl rfl
  rw [if_neg member]
  rcases space : room.partyMembers.fillFirst? playerId with _ | filled
  · exact .inl rfl
  exact .inr ⟨rfl, closing, filled, rfl, rfl⟩

theorem leaveParty_cases (room : DungeonInstance) (playerId : UInt32) :
    (room.leaveParty playerId).2 = room ∨ (room.leaveParty playerId).1 = .ok () ∧
        ∃ slot, room.partyMembers.get? slot = some playerId ∧ (room.leaveParty playerId).2 =
            { room with
              partyMembers := room.partyMembers.set slot none
              partyCount := room.partyCount - 1
              state := if room.partyCount - 1 = 0 then .pendingCleanup else room.state } := by
  unfold leaveParty
  rcases found : room.partyMembers.findFirst? (fun member => member == playerId) with
    _ | ⟨slot, member⟩
  · exact .inl rfl
  obtain ⟨held, named, _⟩ := SlotArray.findFirst?_eq_some found
  have same : member = playerId := eq_of_beq named
  exact .inr ⟨rfl, slot, same ▸ held, rfl⟩

end DungeonInstance

/-- The free slots are the entries of the array below the count of free slots; the last one
is handed out next. -/
structure DungeonPool (maxRooms : Nat) where
  rooms : SlotArray maxRooms DungeonInstance
  freeSlots : List UInt16
  nextId : UInt64
  activeCount : Nat
  deriving DecidableEq

namespace DungeonPool

variable {maxRooms : Nat}

def new (maxRooms : Nat) : DungeonPool maxRooms where
  rooms := SlotArray.empty _ _
  freeSlots := (List.range maxRooms).map fun i => UInt16.ofNat (maxRooms - (1 + i))
  nextId := 1
  activeCount := 0

variable (pool : DungeonPool maxRooms)

def freeCount : Nat :=
  pool.freeSlots.length

def allocateInstance (bossMaxHealth : UInt32) :
    Except WorldError InstanceId × DungeonPool maxRooms :=
  match pool.freeSlots.getLast? with
  | none => (.error .instancePoolExhausted, pool)
  | some slot =>
    let id := { value := pool.nextId }
    (.ok id,
      { rooms := pool.rooms.set slot.toNat (some (DungeonInstance.new id bossMaxHealth))
        freeSlots := pool.freeSlots.dropLast
        nextId := pool.nextId + 1
        activeCount := pool.activeCount + 1 })

variable (id : InstanceId)

def getInstance : Option (Nat × DungeonInstance) :=
  pool.rooms.findFirst? fun room => room.id == id

def reclaim (index : Nat) : DungeonPool maxRooms :=
  { pool with
    rooms := pool.rooms.set index none
    activeCount := pool.activeCount - 1
    freeSlots :=
      if pool.freeCount < maxRooms then pool.freeSlots ++ [UInt16.ofNat index]
      else pool.freeSlots }

def deallocateInstance : Except WorldError Unit × DungeonPool maxRooms :=
  match pool.getInstance id with
  | none => (.error (.instanceNotFound id), pool)
  | some (index, _) => (.ok (), pool.reclaim index)

def tickSlot (pool : DungeonPool maxRooms) (index : Nat) : DungeonPool maxRooms :=
  match pool.rooms.get? index with
  | none => pool
  | some room =>
    if room.tick.1 then { pool with rooms := pool.rooms.set index (some room.tick.2) }
    else pool.reclaim index

def tickAll : DungeonPool maxRooms :=
  (List.range maxRooms).foldl tickSlot pool

/-- A call on the room with an identifier; `none` when there is no such room. -/
def onInstance {α : Type} (call : DungeonInstance → α × DungeonInstance) :
    Option α × DungeonPool maxRooms :=
  match pool.getInstance id with
  | none => (none, pool)
  | some (index, room) =>
    (some (call room).1, { pool with rooms := pool.rooms.set index (some (call room).2) })

end DungeonPool

inductive RoomCall where
  | joinParty (id : InstanceId) (playerId : UInt32)
  | leaveParty (id : InstanceId) (playerId : UInt32)
  | applyBossDamage (id : InstanceId) (damage : UInt32)
  | tickAll

inductive PoolCall where
  | room (call : RoomCall)
  | allocateInstance (bossMaxHealth : UInt32)
  | deallocateInstance (id : InstanceId)

namespace DungeonPool

variable {maxRooms : Nat}

def roomCall (pool : DungeonPool maxRooms) :
    RoomCall → Option (Except WorldError Unit) × DungeonPool maxRooms
  | .joinParty id playerId => pool.onInstance id (·.joinParty playerId)
  | .leaveParty id playerId => pool.onInstance id (·.leaveParty playerId)
  | .applyBossDamage id damage =>
    ((pool.onInstance id (·.applyBossDamage damage)).1.map fun _ => .ok (),
      (pool.onInstance id (·.applyBossDamage damage)).2)
  | .tickAll => (some (.ok ()), pool.tickAll)

def call (pool : DungeonPool maxRooms) :
    PoolCall → Option (Except WorldError Unit) × DungeonPool maxRooms
  | .room call => pool.roomCall call
  | .allocateInstance bossMaxHealth =>
    (some ((pool.allocateInstance bossMaxHealth).1.map fun _ => ()),
      (pool.allocateInstance bossMaxHealth).2)
  | .deallocateInstance id => (some (pool.deallocateInstance id).1, (pool.deallocateInstance id).2)

end DungeonPool

end Eidolon.World
