import Eidolon.World.InstancePool

/-!
# Lifetimes of rooms

A room is followed by its slot.  Its ticks are counted from its allocation on, in all of its
states, so that the time after a victory is what the fight has left of it; and a room that
nobody has joined is in none of the states that end.
-/

namespace Eidolon.World

open Library List

namespace DungeonInstance

structure Manned (room : DungeonInstance) : Prop where
  counted : room.partyCount = room.partyMembers.entries.length
  fighting : room.state = .activeCombat ∨ room.state = .victoryReward → room.partyCount ≠ 0
  waiting : room.state = .allocated → room.partyCount = 0

variable {room : DungeonInstance}

theorem manned_new (id : InstanceId) (bossMaxHealth : UInt32) : (new id bossMaxHealth).Manned where
  counted := by
    rfl
  fighting := by
    rintro (isState | isState) <;> cases isState
  waiting := fun _ => rfl

theorem Manned.joinParty (manned : room.Manned) (playerId : UInt32) :
    (room.joinParty playerId).2.Manned := by
  rcases room.joinParty_cases playerId with same | ⟨_, _, filled, space, joined⟩
  · rw [same]
    exact manned
  rw [joined]
  refine ⟨?_, fun _ => Nat.succ_ne_zero _, ?_⟩
  · rw [(SlotArray.fillFirst?_entries space).length_eq, length_cons, manned.counted]
  intro isAllocated
  split at isAllocated
  · cases isAllocated
  exact absurd isAllocated ‹_›

theorem Manned.leaveParty (manned : room.Manned) (playerId : UInt32) :
    (room.leaveParty playerId).2.Manned := by
  rcases room.leaveParty_cases playerId with same | ⟨_, slot, held, left⟩
  · rw [same]
    exact manned
  have entries := (SlotArray.entries_set_none held).length_eq
  rw [length_cons] at entries
  have counted := manned.counted
  rw [left]
  refine ⟨?_, ?_, ?_⟩
  · change room.partyCount - 1 = (room.partyMembers.set slot none).entries.length
    omega
  · intro fights
    intro none
    rw [if_pos none] at fights
    rcases fights with isState | isState <;> cases isState
  intro isAllocated
  split at isAllocated
  · cases isAllocated
  have empty := manned.waiting isAllocated
  omega

theorem Manned.applyBossDamage (manned : room.Manned) (damage : UInt32) :
    (room.applyBossDamage damage).2.Manned := by
  unfold DungeonInstance.applyBossDamage
  by_cases fights : room.state = .activeCombat
  · have someone := manned.fighting (.inl fights)
    rw [if_neg (not_not_intro fights)]
    simp only
    split
    · refine ⟨manned.counted, fun _ => someone, fun isAllocated => ?_⟩
      cases isAllocated
    exact ⟨manned.counted, fun _ => someone, manned.waiting⟩
  rw [if_pos fights]
  exact manned

theorem party_tick (room : DungeonInstance) :
    room.tick.2.partyMembers = room.partyMembers ∧ room.tick.2.partyCount = room.partyCount := by
  unfold DungeonInstance.tick
  cases room.state <;> exact ⟨rfl, rfl⟩

theorem state_tick (room : DungeonInstance) :
    room.tick.2.state = room.state ∨ room.tick.2.state = .pendingCleanup := by
  unfold DungeonInstance.tick
  cases isState : room.state with
  | allocated => exact .inl rfl
  | pendingCleanup => exact .inl rfl
  | _ =>
    simp only
    split
    · exact .inr rfl
    exact .inl rfl

theorem Manned.tick (manned : room.Manned) : room.tick.2.Manned := by
  rcases room.party_tick with ⟨members, count⟩
  refine ⟨by rw [members, count, manned.counted], ?_, ?_⟩
  · intro fights
    rw [count]
    rcases room.state_tick with same | closing
    · rw [same] at fights
      exact manned.fighting fights
    rw [closing] at fights
    rcases fights with isState | isState <;> cases isState
  intro isAllocated
  rw [count]
  rcases room.state_tick with same | closing
  · exact manned.waiting (same ▸ isAllocated)
  rw [closing] at isAllocated
  cases isAllocated

end DungeonInstance

namespace DungeonPool

variable {maxRooms : Nat} {pool : DungeonPool maxRooms}

def tickedSlot (slot : Option DungeonInstance) : Option DungeonInstance :=
  slot.bind fun room => if room.tick.1 then some room.tick.2 else none

inductive SlotStep : RoomCall → Option DungeonInstance → Option DungeonInstance → Prop
  | other (call : RoomCall) (slot : Option DungeonInstance) (noTick : call ≠ .tickAll) :
      SlotStep call slot slot
  | joined (id : InstanceId) (playerId : UInt32) (room : DungeonInstance) :
      SlotStep (.joinParty id playerId) (some room) (some (room.joinParty playerId).2)
  | left (id : InstanceId) (playerId : UInt32) (room : DungeonInstance) :
      SlotStep (.leaveParty id playerId) (some room) (some (room.leaveParty playerId).2)
  | damaged (id : InstanceId) (damage : UInt32) (room : DungeonInstance) :
      SlotStep (.applyBossDamage id damage) (some room) (some (room.applyBossDamage damage).2)
  | ticked (slot : Option DungeonInstance) : SlotStep .tickAll slot (tickedSlot slot)

theorem onInstance_slot {α : Type} (pool : DungeonPool maxRooms) (id : InstanceId)
    (call : DungeonInstance → α × DungeonInstance) (index : Nat) :
    (pool.onInstance id call).2.rooms.get? index = pool.rooms.get? index ∨
      ∃ room, pool.rooms.get? index = some room ∧
        (pool.onInstance id call).2.rooms.get? index = some (call room).2 := by
  unfold onInstance
  rcases found : pool.getInstance id with _ | ⟨place, room⟩
  · exact .inl rfl
  have held := getInstance_spec found
  rw [SlotArray.get?_set]
  by_cases here : place = index ∧ index < maxRooms
  · rw [if_pos here, ← here.1]
    exact .inr ⟨room, held, rfl⟩
  rw [if_neg here]
  exact .inl rfl

theorem tickSlot_slot (index other : Nat) : (pool.tickSlot index).rooms.get? other =
      if index = other then tickedSlot (pool.rooms.get? other) else pool.rooms.get? other := by
  unfold tickSlot
  rcases held : pool.rooms.get? index with _ | room
  · by_cases same : index = other
    · subst same
      simp only [held]
      rfl
    rw [if_neg same]
  have inside := SlotArray.lt_of_get? held
  simp only
  by_cases same : index = other
  · subst same
    rw [if_pos rfl, held]
    change _ = if room.tick.1 = true then some room.tick.2 else none
    split <;> exact SlotArray.get?_set_self inside _
  split <;> exact SlotArray.get?_set_of_ne same _

theorem foldl_tickSlot_slot {indices : List Nat} (distinct : indices.Nodup)
    (pool : DungeonPool maxRooms) (index : Nat) :
    (indices.foldl tickSlot pool).rooms.get? index =
      if index ∈ indices then tickedSlot (pool.rooms.get? index)
      else pool.rooms.get? index := by
  induction indices generalizing pool with
  | nil => rfl
  | cons first rest ih =>
    rcases List.nodup_cons.mp distinct with ⟨notLater, others⟩
    rw [foldl_cons, ih others, tickSlot_slot]
    by_cases here : first = index
    · subst here
      rw [if_neg notLater, if_pos rfl, if_pos mem_cons_self]
    rw [if_neg here]
    simp only [mem_cons, Ne.symm here, false_or]

theorem slotStep (pool : DungeonPool maxRooms) (call : RoomCall) (index : Nat) :
    SlotStep call (pool.rooms.get? index) ((pool.roomCall call).2.rooms.get? index) := by
  cases call with
  | joinParty id playerId =>
    rcases onInstance_slot pool id (·.joinParty playerId) index with
      same | ⟨room, held, changed⟩
    · rw [roomCall, same]
      exact .other _ _ (by simp)
    rw [roomCall, held, changed]
    exact .joined id playerId room
  | leaveParty id playerId =>
    rcases onInstance_slot pool id (·.leaveParty playerId) index with
      same | ⟨room, held, changed⟩
    · rw [roomCall, same]
      exact .other _ _ (by simp)
    rw [roomCall, held, changed]
    exact .left id playerId room
  | applyBossDamage id damage =>
    rcases onInstance_slot pool id (·.applyBossDamage damage) index with
      same | ⟨room, held, changed⟩
    · rw [roomCall, same]
      exact .other _ _ (by simp)
    rw [roomCall, held, changed]
    exact .damaged id damage room
  | tickAll =>
    have ticked : pool.tickAll.rooms.get? index = tickedSlot (pool.rooms.get? index) := by
      rw [tickAll, foldl_tickSlot_slot nodup_range]
      by_cases inside : index < maxRooms
      · rw [if_pos (List.mem_range.mpr inside)]
      have outside : pool.rooms.get? index = none := by
        cases held : pool.rooms.get? index with
        | none => rfl
        | some room => exact absurd (SlotArray.lt_of_get? held) inside
      rw [if_neg (fun listed => inside (List.mem_range.mp listed)), outside]
      rfl
    change SlotStep _ _ (pool.tickAll.rooms.get? index)
    rw [ticked]
    exact .ticked _

def roomStep (pool : DungeonPool maxRooms) (call : RoomCall) : DungeonPool maxRooms :=
  (pool.roomCall call).2

def RoomsManned (pool : DungeonPool maxRooms) : Prop :=
  ∀ index room, pool.rooms.get? index = some room → room.Manned

variable {call : RoomCall} {after : Option DungeonInstance}

theorem SlotStep.manned {before : Option DungeonInstance} (stepped : SlotStep call before after)
    (manned : ∀ room ∈ before, room.Manned) : ∀ room ∈ after, room.Manned := by
  intro next isNext
  cases stepped with
  | other => exact manned next isNext
  | joined id playerId room =>
    cases isNext
    exact (manned room rfl).joinParty playerId
  | left id playerId room =>
    cases isNext
    exact (manned room rfl).leaveParty playerId
  | damaged id damage room =>
    cases isNext
    exact (manned room rfl).applyBossDamage damage
  | ticked =>
    obtain ⟨room, held, isTicked⟩ := Option.bind_eq_some_iff.mp isNext
    split at isTicked
    · cases isTicked
      exact (manned room held).tick
    cases isTicked

theorem RoomsManned.roomStep (manned : pool.RoomsManned) (call : RoomCall) :
    (pool.roomStep call).RoomsManned := by
  intro index room held
  exact (slotStep pool call index).manned (manned index) room held

variable {index : Nat} {room : DungeonInstance}

theorem RoomsManned.set (manned : pool.RoomsManned) {slot : Option DungeonInstance}
    (isManned : ∀ room ∈ slot, room.Manned) {other : Nat}
    (held : (pool.rooms.set index slot).get? other = some room) : room.Manned := by
  rw [SlotArray.get?_set] at held
  split at held
  · exact isManned room held
  exact manned other room held

theorem RoomsManned.step (manned : pool.RoomsManned) (call : PoolCall) :
    (pool.step call).RoomsManned := by
  cases call with
  | room call => exact manned.roomStep call
  | allocateInstance bossMaxHealth =>
    change (pool.allocateInstance bossMaxHealth).2.RoomsManned
    unfold allocateInstance
    rcases pool.freeSlots.getLast? with _ | slot
    · exact manned
    intro index room held
    refine manned.set ?_ held
    rintro _ ⟨⟩
    exact DungeonInstance.manned_new _ _
  | deallocateInstance id =>
    change (pool.deallocateInstance id).2.RoomsManned
    unfold deallocateInstance
    rcases pool.getInstance id with _ | ⟨place, _⟩
    · exact manned
    intro index room held
    refine manned.set ?_ held
    rintro _ ⟨⟩

theorem roomsManned_new (maxRooms : Nat) : (new maxRooms).RoomsManned := by
  intro index room held
  have listed : room ∈ (SlotArray.empty maxRooms DungeonInstance).entries :=
    SlotArray.mem_entries_of_get? held
  rw [SlotArray.entries_empty] at listed
  cases listed

def ticks : List RoomCall → Nat
  | [] => 0
  | .tickAll :: calls => ticks calls + 1
  | _ :: calls => ticks calls

theorem ticks_cons_of_ne (noTick : call ≠ .tickAll) (calls : List RoomCall) :
    ticks (call :: calls) = ticks calls := by
  cases call with
  | tickAll => exact absurd rfl noTick
  | _ => rfl

theorem ticks_replicate (count : Nat) : ticks (List.replicate count .tickAll) = count := by
  induction count with
  | zero => rfl
  | succ count ih => rw [replicate_succ, ticks, ih]

def KeepsMember (index : Nat) (pool : DungeonPool maxRooms) : Prop :=
  ∃ room, pool.rooms.get? index = some room ∧ room.partyMembers.entries ≠ []

def InVictory (index : Nat) (pool : DungeonPool maxRooms) : Prop :=
  ∃ room, pool.rooms.get? index = some room ∧ room.state = .victoryReward

/-- A call that leaves a room in its grace period that was not in it before. -/
structure EntersVictory (pool : DungeonPool maxRooms) (call : RoomCall) (index : Nat)
    (room : DungeonInstance) : Prop where
  held : (pool.roomStep call).rooms.get? index = some room
  victory : room.state = .victoryReward
  fresh : ¬ pool.InVictory index

/-- As long as somebody stays, the grace period lasts for all its ticks. -/
def KeepsVictory (pool : DungeonPool maxRooms) (index : Nat) : Prop :=
  ∀ calls, Throughout roomStep (KeepsMember index) pool calls →
    ticks calls ≤ roomCleanupTimeoutTicks → InVictory index (run roomStep pool calls)

structure Rewarding (elapsed : Nat) (room : DungeonInstance) : Prop where
  victory : room.state = .victoryReward
  manned : room.Manned
  elapsed : room.elapsedTicks.toNat = elapsed

variable {elapsed : Nat} {room : DungeonInstance}

theorem tick_of_victory (victory : room.state = .victoryReward) : room.tick = (true,
      { room with
        elapsedTicks := saturatingAdd32 room.elapsedTicks 1
        state := if roomCleanupTimeoutTicks < (saturatingAdd32 room.elapsedTicks 1).toNat then
          .pendingCleanup else .victoryReward }) := by
  unfold DungeonInstance.tick
  rw [victory]

theorem Rewarding.tick (rewarding : Rewarding elapsed room)
    (more : elapsed < roomCleanupTimeoutTicks) :
    room.tick.1 = true ∧ Rewarding (elapsed + 1) room.tick.2 := by
  have next : (saturatingAdd32 room.elapsedTicks 1).toNat = elapsed + 1 := by
    rw [toNat_saturatingAdd32, rewarding.elapsed]
    change min (elapsed + 1) _ = _
    rw [roomCleanupTimeoutTicks] at more
    omega
  have manned := rewarding.manned.tick
  rw [tick_of_victory rewarding.victory] at manned ⊢
  refine ⟨rfl, ?_, manned, next⟩
  rw [next, if_neg (Nat.not_lt.mpr more)]

theorem SlotStep.rewarding (stepped : SlotStep call (some room) after)
    (rewarding : Rewarding elapsed room) (someone : ∃ next ∈ after, next.partyMembers.entries ≠ [])
    (more : call = .tickAll → elapsed < roomCleanupTimeoutTicks) :
    ∃ next ∈ after, Rewarding (elapsed + ticks [call]) next := by
  have mannedBefore : ∀ held ∈ some room, held.Manned := by
    rintro _ ⟨⟩
    exact rewarding.manned
  have manned := stepped.manned mannedBefore
  cases stepped with
  | other _ _ noTick =>
    rw [ticks_cons_of_ne noTick]
    exact ⟨room, rfl, rewarding⟩
  | joined id playerId =>
    refine ⟨_, rfl, ?_, manned _ rfl, ?_⟩
    · rcases room.joinParty_cases playerId with same | ⟨_, _, _, _, joined⟩
      · rw [same]
        exact rewarding.victory
      rw [joined]
      rw [rewarding.victory]
      rfl
    rcases room.joinParty_cases playerId with same | ⟨_, _, _, _, joined⟩
    · rw [same]
      exact rewarding.elapsed
    rw [joined]
    exact rewarding.elapsed
  | left id playerId =>
    rcases someone with ⟨_, ⟨⟩, someone⟩
    refine ⟨_, rfl, ?_, manned _ rfl, ?_⟩
    · have counted := (manned _ rfl).counted
      rcases room.leaveParty_cases playerId with same | ⟨_, _, _, left⟩
      · rw [same]
        exact rewarding.victory
      rw [left] at counted someone ⊢
      change room.partyCount - 1 = _ at counted
      rw [if_neg, rewarding.victory]
      rw [counted]
      exact fun none => someone (List.length_eq_zero_iff.mp none)
    rcases room.leaveParty_cases playerId with same | ⟨_, _, _, left⟩
    · rw [same]
      exact rewarding.elapsed
    rw [left]
    exact rewarding.elapsed
  | damaged id damage =>
    refine ⟨room, ?_, rewarding⟩
    unfold DungeonInstance.applyBossDamage
    rw [rewarding.victory]
    rfl
  | ticked =>
    rcases rewarding.tick (more rfl) with ⟨kept, next⟩
    refine ⟨room.tick.2, ?_, next⟩
    change (if room.tick.1 = true then _ else _) = _
    rw [if_pos kept]

theorem ticks_cons (call : RoomCall) (calls : List RoomCall) :
    ticks (call :: calls) = ticks [call] + ticks calls := by
  cases call with
  | tickAll => exact Nat.add_comm _ _
  | _ => exact (Nat.zero_add _).symm

variable {calls : List RoomCall}

theorem rewarding_run {elapsed : Nat} {pool : DungeonPool maxRooms}
    (held : pool.rooms.get? index = some room) (rewarding : Rewarding elapsed room)
    (stays : Throughout roomStep (KeepsMember index) pool calls)
    (few : elapsed + ticks calls ≤ roomCleanupTimeoutTicks) :
    InVictory index (run roomStep pool calls) := by
  induction calls generalizing elapsed pool room with
  | nil => exact ⟨room, held, rewarding.victory⟩
  | cons call calls ih =>
    rw [ticks_cons] at few
    rcases stays with ⟨_, stays⟩
    have stepped := slotStep pool call index
    rw [held] at stepped
    obtain ⟨next, isNext, nextRewarding⟩ := stepped.rewarding rewarding stays.start (by
      rintro rfl
      rw [ticks] at few
      omega)
    exact ih isNext nextRewarding stays (by omega)

theorem Rewarding.mem (rewarding : Rewarding elapsed room) : room.partyMembers.entries ≠ [] := by
  intro none
  apply rewarding.manned.fighting (.inr rewarding.victory)
  rw [rewarding.manned.counted, none]
  rfl

theorem roomStep_tickAll (held : pool.rooms.get? index = some room) (kept : room.tick.1 = true) :
    (pool.roomStep .tickAll).rooms.get? index = some room.tick.2 := by
  have stepped := slotStep pool .tickAll index
  rw [held] at stepped
  generalize isAfter : (pool.roomCall .tickAll).2.rooms.get? index = after at stepped
  rw [roomStep, isAfter]
  cases stepped with
  | other _ _ noTick => exact absurd rfl noTick
  | ticked =>
    change (if room.tick.1 = true then _ else _) = _
    rw [if_pos kept]

theorem victory_ends {remaining elapsed : Nat} {pool : DungeonPool maxRooms}
    (held : pool.rooms.get? index = some room) (rewarding : Rewarding elapsed room)
    (last : roomCleanupTimeoutTicks - elapsed = remaining) :
    let calls := List.replicate (remaining + 1) RoomCall.tickAll
    Throughout roomStep (KeepsMember index) pool calls ∧
      ¬ InVictory index (run roomStep pool calls) := by
  have someone : KeepsMember index pool := ⟨room, held, rewarding.mem⟩
  have survives : room.tick.1 = true := by
    rw [tick_of_victory rewarding.victory]
  have next := roomStep_tickAll held survives
  induction remaining generalizing elapsed pool room with
  | zero =>
    have members : room.tick.2.partyMembers.entries ≠ [] := by
      rw [room.party_tick.1]
      exact rewarding.mem
    refine ⟨⟨someone, room.tick.2, next, members⟩, ?_⟩
    rintro ⟨after, isAfter, victory⟩
    have same := isAfter.symm.trans next
    cases same
    rw [tick_of_victory rewarding.victory] at victory
    rw [toNat_saturatingAdd32, rewarding.elapsed, if_pos] at victory
    · cases victory
    change roomCleanupTimeoutTicks < min (elapsed + 1) _
    rw [roomCleanupTimeoutTicks] at last ⊢
    omega
  | succ remaining ih =>
    have further := (rewarding.tick (by omega)).2
    have kept : room.tick.2.tick.1 = true := by
      rw [tick_of_victory further.victory]
    have later := ih next further (by omega)
      ⟨_, next, further.mem⟩ kept (roomStep_tickAll next kept)
    exact ⟨⟨someone, later.1⟩, later.2⟩

/-- The grace period lasts for all its ticks exactly when the room is as old as it: ticks are
counted from the allocation on. -/
theorem keepsVictory_iff (held : pool.rooms.get? index = some room)
    (victory : room.state = .victoryReward) (manned : room.Manned) :
    pool.KeepsVictory index ↔ room.elapsedTicks = 0 := by
  have rewarding : Rewarding room.elapsedTicks.toNat room := ⟨victory, manned, rfl⟩
  constructor
  · intro keeps
    rw [← UInt32.toNat_inj]
    apply Decidable.of_not_not
    intro old
    change room.elapsedTicks.toNat ≠ 0 at old
    obtain ⟨stays, ends⟩ := victory_ends held rewarding rfl
    refine ends (keeps _ stays ?_)
    rw [ticks_replicate]
    rw [roomCleanupTimeoutTicks]
    omega
  intro new calls stays few
  refine rewarding_run held rewarding stays ?_
  rw [new]
  change 0 + ticks calls ≤ _
  omega

def KeepsEmpty (index : Nat) (pool : DungeonPool maxRooms) : Prop :=
  ∀ room, pool.rooms.get? index = some room → room.partyMembers.entries = []

def PurgesEmpty (pool : DungeonPool maxRooms) (index : Nat) : Prop :=
  ∀ calls, Throughout roomStep (KeepsEmpty index) pool calls →
    roomCleanupTimeoutTicks + 2 ≤ ticks calls → (run roomStep pool calls).rooms.get? index = none

theorem purged_run {pool : DungeonPool maxRooms} (purged : pool.rooms.get? index = none) :
    (run roomStep pool calls).rooms.get? index = none := by
  induction calls generalizing pool with
  | nil => exact purged
  | cons call calls ih =>
    apply ih
    have stepped := slotStep pool call index
    rw [purged] at stepped
    generalize isAfter : (pool.roomCall call).2.rooms.get? index = after at stepped
    rw [roomStep, isAfter]
    cases stepped <;> rfl

theorem SlotStep.pending (stepped : SlotStep call (some room) after)
    (pending : room.state = .pendingCleanup) (empty : room.partyMembers.entries = []) :
    call = .tickAll ∧ after = none ∨ call ≠ .tickAll ∧ after = some room := by
  cases stepped with
  | other _ _ noTick => exact .inr ⟨noTick, rfl⟩
  | joined id playerId =>
    refine .inr ⟨RoomCall.noConfusion, ?_⟩
    rcases room.joinParty_cases playerId with same | ⟨_, notPending, _⟩
    · rw [same]
    exact absurd pending notPending
  | left id playerId =>
    refine .inr ⟨RoomCall.noConfusion, ?_⟩
    rcases room.leaveParty_cases playerId with same | ⟨_, slot, member, _⟩
    · rw [same]
    have listed := SlotArray.mem_entries_of_get? member
    rw [empty] at listed
    cases listed
  | damaged id damage =>
    refine .inr ⟨RoomCall.noConfusion, ?_⟩
    rw [DungeonInstance.applyBossDamage, pending]
    rfl
  | ticked =>
    refine .inl ⟨rfl, ?_⟩
    change (if room.tick.1 = true then _ else _) = _
    rw [DungeonInstance.tick, pending]
    rfl

theorem pending_run {pool : DungeonPool maxRooms} (held : pool.rooms.get? index = some room)
    (pending : room.state = .pendingCleanup) (empty : room.partyMembers.entries = [])
    (ticked : ticks calls ≠ 0) : (run roomStep pool calls).rooms.get? index = none := by
  induction calls generalizing pool with
  | nil => exact absurd rfl ticked
  | cons call calls ih =>
    have stepped := slotStep pool call index
    rw [held] at stepped
    rcases stepped.pending pending empty with ⟨_, purged⟩ | ⟨noTick, same⟩
    · have gone : (pool.roomStep call).rooms.get? index = none := purged
      rw [run_cons]
      exact purged_run gone
    rw [ticks_cons_of_ne noTick] at ticked
    exact ih same ticked

theorem allocated_run (count : Nat) {pool : DungeonPool maxRooms}
    (held : pool.rooms.get? index = some room) (allocated : room.state = .allocated)
    (empty : room.partyMembers.entries = []) :
    let calls := List.replicate count RoomCall.tickAll
    Throughout roomStep (KeepsEmpty index) pool calls ∧
      (run roomStep pool calls).rooms.get? index ≠ none := by
  have isEmpty : KeepsEmpty index pool := by
    intro other isOther
    cases held.symm.trans isOther
    exact empty
  induction count generalizing pool room with
  | zero =>
    refine ⟨isEmpty, ?_⟩
    change pool.rooms.get? index ≠ none
    rw [held]
    exact Option.some_ne_none room
  | succ count ih =>
    have ticked : room.tick =
        (true, { room with elapsedTicks := saturatingAdd32 room.elapsedTicks 1 }) := by
      rw [DungeonInstance.tick, allocated]
    have next := roomStep_tickAll held (congrArg Prod.fst ticked)
    rw [ticked] at next
    have later := ih next allocated empty (by
      intro other isOther
      cases next.symm.trans isOther
      exact empty)
    exact ⟨⟨isEmpty, later.1⟩, later.2⟩

theorem purgesEmpty_iff (held : pool.rooms.get? index = some room) (manned : room.Manned)
    (empty : room.partyMembers.entries = []) :
    pool.PurgesEmpty index ↔ room.state ≠ .allocated := by
  constructor
  · intro purges allocated
    obtain ⟨stays, kept⟩ := allocated_run (roomCleanupTimeoutTicks + 2) held allocated empty
    exact kept (purges _ stays (Nat.le_of_eq (ticks_replicate _).symm))
  intro joined calls _ many
  have nobody : room.partyCount = 0 := by
    rw [manned.counted, empty]
    rfl
  have pending : room.state = .pendingCleanup := by
    cases isState : room.state with
    | allocated => exact absurd isState joined
    | activeCombat => exact absurd nobody (manned.fighting (.inl isState))
    | victoryReward => exact absurd nobody (manned.fighting (.inr isState))
    | pendingCleanup => rfl
  exact pending_run held pending empty (by omega)

theorem roomsManned_throughout (maxRooms : Nat) (history : List PoolCall) :
    Throughout step RoomsManned (new maxRooms) history := by
  have preserved : ∀ (pool : DungeonPool maxRooms) (call : PoolCall),
      pool.RoomsManned → (pool.step call).RoomsManned :=
    fun _ call manned => manned.step call
  exact throughout_of_preserved preserved (roomsManned_new maxRooms) history

/-- In every pool that is reached, a victory keeps its grace period exactly when the room has
not been ticked before, and an empty room is purged exactly when somebody has joined it. -/
theorem lifetimes_iff (maxRooms : Nat) (history : List PoolCall) : Throughout step (fun pool =>
        (∀ call index room, pool.EntersVictory call index room →
          ((pool.roomStep call).KeepsVictory index ↔ room.elapsedTicks = 0)) ∧
        ∀ index room, pool.rooms.get? index = some room → room.partyMembers.entries = [] →
          (pool.PurgesEmpty index ↔ room.state ≠ .allocated))
      (new maxRooms) history := by
  refine (roomsManned_throughout maxRooms history).imp fun pool manned => ⟨?_, ?_⟩
  · intro call index room enters
    exact keepsVictory_iff enters.held enters.victory (manned.roomStep call index room enters.held)
  intro index room held empty
  exact purgesEmpty_iff held (manned index room held) empty

/-- Two rooms are allocated, one of them is joined, and both are ticked once. -/
def tickedPool : DungeonPool 2 :=
  run step (new 2)
    [.allocateInstance 100, .allocateInstance 100, .room (.joinParty { value := 1 } 7),
      .room .tickAll]

/-- The boss of the first room is defeated after that tick, so that the grace period has one
tick less.  Nobody joins the second room, which stays. -/
theorem not_keepsVictory_ticked : (¬ ∀ call index room, tickedPool.EntersVictory call index room →
        (tickedPool.roomStep call).KeepsVictory index) ∧
      ¬ ∀ index room, tickedPool.rooms.get? index = some room →
        room.partyMembers.entries = [] → tickedPool.PurgesEmpty index := by
  have manned : tickedPool.RoomsManned := (roomsManned_throughout 2 _).run
  constructor
  · intro keeps
    have fights : tickedPool.rooms.get? 0 = some
          { DungeonInstance.new { value := 1 } 100 with
            state := .activeCombat
            partyMembers := (SlotArray.empty _ _).set 0 (some 7)
            partyCount := 1
            elapsedTicks := 1 } := by
      decide
    have won : (tickedPool.roomStep (.applyBossDamage { value := 1 } 100)).rooms.get? 0 =
        some
          { DungeonInstance.new { value := 1 } 100 with
            state := .victoryReward
            partyMembers := (SlotArray.empty _ _).set 0 (some 7)
            partyCount := 1
            elapsedTicks := 1
            bossHealth := 0 } := by
      decide
    have fresh : ¬ tickedPool.InVictory 0 := by
      rintro ⟨room, held, victory⟩
      cases fights.symm.trans held
      cases victory
    have kept := keeps _ 0 _ ⟨won, rfl, fresh⟩
    have new := (keepsVictory_iff won rfl (manned.roomStep _ 0 _ won)).mp kept
    cases new
  intro purges
  have waits : tickedPool.rooms.get? 1 =
      some { DungeonInstance.new { value := 2 } 100 with elapsedTicks := 1 } := by
    decide
  have purged := purges 1 _ waits (by decide)
  exact (purgesEmpty_iff waits (manned 1 _ waits) (by decide)).mp purged rfl

end DungeonPool

end Eidolon.World
