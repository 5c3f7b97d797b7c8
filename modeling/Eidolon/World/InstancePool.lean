import Mathlib.Data.List.Nodup
import Eidolon.World.Instance

/-!
# The slots of a pool of rooms

The free slots are exactly the empty ones as long as every slot has a number of its own, which
sixteen bits are enough for up to 65536 slots.
-/

namespace Eidolon.World

open Library List Option

namespace DungeonPool

variable {maxRooms : Nat} {pool : DungeonPool maxRooms}

def freeIndices (pool : DungeonPool maxRooms) : List Nat :=
  pool.freeSlots.map UInt16.toNat

/-- The free slots are the empty ones, once each, the rooms are counted, and their identifiers
are different. -/
structure WellFormed (pool : DungeonPool maxRooms) : Prop where
  distinct : pool.freeSlots.Nodup
  free_iff : ∀ index, index ∈ pool.freeIndices ↔
    index < maxRooms ∧ pool.rooms.get? index = none
  active : pool.activeCount = pool.rooms.entries.length
  counted : pool.activeCount + pool.freeCount = maxRooms
  identified : (pool.rooms.entries.map DungeonInstance.id).Nodup

def AllocatesWhenEmpty (pool : DungeonPool maxRooms) : Prop :=
  ∀ bossMaxHealth, (∃ id, (pool.allocateInstance bossMaxHealth).1 = .ok id) ↔
    ∃ index, index < maxRooms ∧ pool.rooms.get? index = none

theorem WellFormed.allocates (wellFormed : pool.WellFormed) : pool.AllocatesWhenEmpty := by
  intro bossMaxHealth
  unfold allocateInstance
  rcases top : pool.freeSlots.getLast? with _ | slot
  · have noFree : pool.freeIndices = [] := by
      rw [freeIndices, getLast?_eq_none_iff.mp top]
      rfl
    refine iff_of_false ?_ ?_
    · rintro ⟨id, allocated⟩
      cases allocated
    rintro ⟨index, isEmpty⟩
    have free := (wellFormed.free_iff index).mpr isEmpty
    rw [noFree] at free
    cases free
  refine iff_of_true ⟨_, rfl⟩ ⟨slot.toNat, ?_⟩
  exact (wellFormed.free_iff slot.toNat).mp (mem_map_of_mem (mem_of_getLast? top))

variable {room : DungeonInstance} {index : Nat}

theorem WellFormed.replace (wellFormed : pool.WellFormed) {changed : DungeonInstance}
    (held : pool.rooms.get? index = some room) (same : changed.id = room.id) :
    WellFormed { pool with rooms := pool.rooms.set index (some changed) } := by
  have inside := SlotArray.lt_of_get? held
  obtain ⟨rest, whole, written⟩ := pool.rooms.exists_rest inside
  rw [held] at whole
  refine ⟨wellFormed.distinct, ?_, ?_, wellFormed.counted, ?_⟩
  · intro other
    change other ∈ pool.freeIndices ↔ _
    rw [wellFormed.free_iff]
    refine and_congr_right fun _ => ?_
    rw [SlotArray.get?_set]
    by_cases here : index = other ∧ other < maxRooms
    · rw [if_pos here, ← here.1, held]
      exact iff_of_false (some_ne_none _) (some_ne_none _)
    rw [if_neg here]
  · rw [SlotArray.length_entries_replace held, wellFormed.active]
  have listed := (written (some changed)).map DungeonInstance.id
  rw [toList_some, singleton_append, map_cons, same] at listed
  exact listed.nodup_iff.mpr ((whole.map DungeonInstance.id).nodup_iff.mp wellFormed.identified)

theorem toNat_slot (small : maxRooms ≤ 2 ^ 16) (inside : index < maxRooms) :
    (UInt16.ofNat index).toNat = index := by
  rw [UInt16.toNat_ofNat']
  omega

theorem WellFormed.reclaim (small : maxRooms ≤ 2 ^ 16) (wellFormed : pool.WellFormed)
    (held : pool.rooms.get? index = some room) : (pool.reclaim index).WellFormed := by
  have inside := SlotArray.lt_of_get? held
  have rooms := SlotArray.entries_set_none held
  have number := toNat_slot small inside
  have occupied : 0 < pool.activeCount := by
    rw [wellFormed.active, rooms.length_eq]
    exact Nat.succ_pos _
  have counted := wellFormed.counted
  have space : pool.freeCount < maxRooms := by
    omega
  have notFree : index ∉ pool.freeIndices := by
    intro free
    rw [((wellFormed.free_iff index).mp free).2] at held
    cases held
  have identified := (rooms.map DungeonInstance.id).nodup_iff.mp wellFormed.identified
  rw [DungeonPool.reclaim, if_pos space]
  refine ⟨?_, ?_, ?_, ?_, (List.nodup_cons.mp identified).2⟩
  · refine List.Nodup.append wellFormed.distinct (nodup_singleton _) ?_
    intro slot free isLast
    rw [List.mem_singleton.mp isLast] at free
    apply notFree
    rw [← number]
    exact mem_map_of_mem free
  · intro other
    change other ∈ List.map _ _ ↔ _
    rw [map_append, mem_append, map_singleton, mem_singleton, number, SlotArray.get?_set]
    have before := wellFormed.free_iff other
    rw [freeIndices] at before
    rw [before]
    by_cases here : other = index
    · subst here
      rw [if_pos ⟨rfl, inside⟩]
      exact iff_of_true (Or.inr rfl) ⟨inside, rfl⟩
    rw [if_neg (fun same => here same.1.symm), or_iff_left here]
  · rw [wellFormed.active, rooms.length_eq, length_cons, Nat.add_sub_cancel]
  change pool.activeCount - 1 + (pool.freeSlots ++ [_]).length = maxRooms
  rw [freeCount] at counted
  rw [length_append, length_singleton]
  omega

theorem WellFormed.allocate (wellFormed : pool.WellFormed) {slot : UInt16}
    (top : pool.freeSlots.getLast? = some slot)
    (fresh : ∀ other ∈ pool.rooms.entries, other.id ≠ room.id) (nextId : UInt64) :
    WellFormed
      { rooms := pool.rooms.set slot.toNat (some room)
        freeSlots := pool.freeSlots.dropLast
        nextId := nextId
        activeCount := pool.activeCount + 1 } := by
  have parts := dropLast_append_getLast? slot top
  have isFree : slot.toNat < maxRooms ∧ pool.rooms.get? slot.toNat = none :=
    (wellFormed.free_iff slot.toNat).mp (mem_map_of_mem (mem_of_getLast? top))
  have rooms := SlotArray.entries_set_some isFree.1 isFree.2 room
  have distinct := wellFormed.distinct
  rw [← parts, nodup_append] at distinct
  rcases distinct with ⟨others, _, apart⟩
  have counted := wellFormed.counted
  rw [freeCount, ← parts, length_append, length_singleton] at counted
  refine ⟨others, ?_, ?_, ?_, ?_⟩
  · intro other
    change other ∈ pool.freeSlots.dropLast.map UInt16.toNat ↔ _
    have before := wellFormed.free_iff other
    rw [freeIndices, ← parts, map_append, mem_append, map_singleton, mem_singleton] at before
    rw [SlotArray.get?_set]
    by_cases here : other = slot.toNat
    · subst here
      rw [if_pos ⟨rfl, isFree.1⟩]
      refine iff_of_false ?_ (fun held => some_ne_none _ held.2)
      intro listed
      obtain ⟨free, isListed, same⟩ := mem_map.mp listed
      exact apart free isListed slot (mem_singleton_self slot) (UInt16.toNat_inj.mp same)
    rw [if_neg (fun same => here same.1.symm), ← before, or_iff_left here]
  · rw [rooms.length_eq, length_cons, wellFormed.active]
  · change pool.activeCount + 1 + pool.freeSlots.dropLast.length = maxRooms
    omega
  have listed := rooms.map DungeonInstance.id
  rw [listed.nodup_iff, map_cons, nodup_cons]
  refine ⟨?_, wellFormed.identified⟩
  intro taken
  obtain ⟨other, isOther, same⟩ := mem_map.mp taken
  exact fresh other isOther same

theorem id_joinParty (room : DungeonInstance) (playerId : UInt32) :
    (room.joinParty playerId).2.id = room.id := by
  rcases room.joinParty_cases playerId with same | ⟨_, _, _, _, joined⟩
  · rw [same]
  rw [joined]

theorem id_leaveParty (room : DungeonInstance) (playerId : UInt32) :
    (room.leaveParty playerId).2.id = room.id := by
  rcases room.leaveParty_cases playerId with same | ⟨_, _, _, left⟩
  · rw [same]
  rw [left]

theorem id_applyBossDamage (room : DungeonInstance) (damage : UInt32) :
    (room.applyBossDamage damage).2.id = room.id := by
  unfold DungeonInstance.applyBossDamage
  split
  · rfl
  simp only
  split <;> rfl

theorem id_tick (room : DungeonInstance) : room.tick.2.id = room.id := by
  unfold DungeonInstance.tick
  cases room.state <;> rfl

/-- A pool in order, whose rooms have some of the identifiers issued so far. -/
structure Kept (issued : Nat) (pool : DungeonPool maxRooms) : Prop where
  wellFormed : pool.WellFormed
  known : ∀ room ∈ pool.rooms.entries, room.id.value.toNat ≤ issued
  next : pool.nextId = UInt64.ofNat (issued + 1)

variable {issued : Nat}

theorem Kept.replace (kept : pool.Kept issued) {changed : DungeonInstance}
    (held : pool.rooms.get? index = some room) (same : changed.id = room.id) :
    Kept issued { pool with rooms := pool.rooms.set index (some changed) } := by
  refine ⟨kept.wellFormed.replace held same, ?_, kept.next⟩
  intro other listed
  rcases SlotArray.mem_entries_set_some listed with isChanged | before
  · rw [isChanged, same]
    exact kept.known room (SlotArray.mem_entries_of_get? held)
  exact kept.known other before

theorem Kept.reclaim (small : maxRooms ≤ 2 ^ 16) (kept : pool.Kept issued)
    (held : pool.rooms.get? index = some room) : (pool.reclaim index).Kept issued := by
  refine ⟨kept.wellFormed.reclaim small held, ?_, kept.next⟩
  intro other listed
  exact kept.known other (SlotArray.mem_entries_set_none listed)

theorem Kept.allocate (kept : pool.Kept issued) (more : issued + 1 < 2 ^ 64)
    (bossMaxHealth : UInt32) :
    (pool.allocateInstance bossMaxHealth).2.Kept issued ∨
      (pool.allocateInstance bossMaxHealth).2.Kept (issued + 1) := by
  have number : pool.nextId.toNat = issued + 1 := by
    rw [kept.next, UInt64.toNat_ofNat', Nat.mod_eq_of_lt more]
  unfold allocateInstance
  rcases top : pool.freeSlots.getLast? with _ | slot
  · exact Or.inl kept
  right
  refine ⟨?_, ?_, ?_⟩
  · refine kept.wellFormed.allocate top ?_ _
    intro other listed same
    have known := kept.known other listed
    rw [same] at known
    change pool.nextId.toNat ≤ issued at known
    omega
  · intro other listed
    rcases SlotArray.mem_entries_set_some listed with isNew | before
    · rw [isNew]
      change pool.nextId.toNat ≤ issued + 1
      omega
    exact Nat.le_succ_of_le (kept.known other before)
  rw [kept.next, ← UInt64.toNat_inj]
  exact Nat.mod_add_mod _ _ _

theorem getInstance_spec {id : InstanceId} (found : pool.getInstance id = some (index, room)) :
    pool.rooms.get? index = some room :=
  (SlotArray.findFirst?_eq_some found).1

theorem Kept.onInstance {α : Type} (kept : pool.Kept issued) (id : InstanceId)
    {call : DungeonInstance → α × DungeonInstance}
    (same : ∀ room, (call room).2.id = room.id) : (pool.onInstance id call).2.Kept issued := by
  unfold DungeonPool.onInstance
  rcases found : pool.getInstance id with _ | ⟨index, room⟩
  · exact kept
  exact kept.replace (getInstance_spec found) (same room)

theorem Kept.tickAll (small : maxRooms ≤ 2 ^ 16) (kept : pool.Kept issued) :
    pool.tickAll.Kept issued := by
  have pass : ∀ (indices : List Nat) (pool : DungeonPool maxRooms), pool.Kept issued →
      (indices.foldl tickSlot pool).Kept issued := by
    intro indices
    induction indices with
    | nil => exact fun _ kept => kept
    | cons index rest ih =>
      intro pool kept
      apply ih
      unfold tickSlot
      split
      · exact kept
      rename_i room held
      split
      · exact kept.replace held (id_tick room)
      exact kept.reclaim small held
  exact pass _ pool kept

theorem Kept.roomCall (small : maxRooms ≤ 2 ^ 16) (kept : pool.Kept issued)
    (call : RoomCall) : (pool.roomCall call).2.Kept issued := by
  cases call with
  | joinParty id playerId => exact kept.onInstance id fun room => id_joinParty room playerId
  | leaveParty id playerId => exact kept.onInstance id fun room => id_leaveParty room playerId
  | applyBossDamage id damage => exact kept.onInstance id fun room => id_applyBossDamage room damage
  | tickAll => exact kept.tickAll small

theorem Kept.call (small : maxRooms ≤ 2 ^ 16) (kept : pool.Kept issued)
    (more : issued + 1 < 2 ^ 64) (call : PoolCall) :
    (pool.call call).2.Kept issued ∨ (pool.call call).2.Kept (issued + 1) := by
  cases call with
  | room call => exact Or.inl (kept.roomCall small call)
  | allocateInstance bossMaxHealth => exact kept.allocate more bossMaxHealth
  | deallocateInstance id =>
    left
    change (pool.deallocateInstance id).2.Kept issued
    unfold deallocateInstance
    rcases found : pool.getInstance id with _ | ⟨index, room⟩
    · exact kept
    exact kept.reclaim small (getInstance_spec found)

/-- A call that returns an error changes nothing. -/
def FailsUnchanged (pool : DungeonPool maxRooms) (call : PoolCall) : Prop :=
  ∀ error, (pool.call call).1 = some (.error error) → (pool.call call).2 = pool

variable {error : WorldError}

theorem joinParty_of_error {playerId : UInt32}
    (failed : (room.joinParty playerId).1 = .error error) : (room.joinParty playerId).2 = room := by
  rcases room.joinParty_cases playerId with same | ⟨joined, _⟩
  · exact same
  rw [joined] at failed
  cases failed

theorem leaveParty_of_error {playerId : UInt32}
    (failed : (room.leaveParty playerId).1 = .error error) :
    (room.leaveParty playerId).2 = room := by
  rcases room.leaveParty_cases playerId with same | ⟨left, _⟩
  · exact same
  rw [left] at failed
  cases failed

theorem onInstance_of_error {id : InstanceId}
    {call : DungeonInstance → Except WorldError Unit × DungeonInstance}
    (unchanged : ∀ room, (call room).1 = .error error → (call room).2 = room)
    (failed : (pool.onInstance id call).1 = some (.error error)) :
    (pool.onInstance id call).2 = pool := by
  unfold onInstance at failed ⊢
  rcases found : pool.getInstance id with _ | ⟨index, room⟩
  · rfl
  have held := getInstance_spec found
  rw [found] at failed
  have same := unchanged room (some.inj failed)
  simp only
  rw [same, (SlotArray.set_eq_self_iff (SlotArray.lt_of_get? held)).mpr held]

theorem failsUnchanged (pool : DungeonPool maxRooms) (call : PoolCall) :
    pool.FailsUnchanged call := by
  intro error failed
  cases call with
  | room call =>
    cases call with
    | joinParty id playerId => exact onInstance_of_error (fun _ => joinParty_of_error) failed
    | leaveParty id playerId => exact onInstance_of_error (fun _ => leaveParty_of_error) failed
    | applyBossDamage id damage =>
      obtain ⟨_, _, isError⟩ := Option.map_eq_some_iff.mp failed
      cases isError
    | tickAll => cases failed
  | allocateInstance bossMaxHealth =>
    change some ((pool.allocateInstance bossMaxHealth).1.map fun _ => ()) = _ at failed
    change (pool.allocateInstance bossMaxHealth).2 = pool
    unfold allocateInstance at failed ⊢
    rcases top : pool.freeSlots.getLast? with _ | slot
    · rfl
    rw [top] at failed
    cases failed
  | deallocateInstance id =>
    change some (pool.deallocateInstance id).1 = _ at failed
    change (pool.deallocateInstance id).2 = pool
    unfold deallocateInstance at failed ⊢
    rcases found : pool.getInstance id with _ | ⟨index, room⟩
    · rfl
    rw [found] at failed
    cases failed

def step (pool : DungeonPool maxRooms) (call : PoolCall) : DungeonPool maxRooms :=
  (pool.call call).2

theorem kept_new (small : maxRooms ≤ 2 ^ 16) : (new maxRooms).Kept 0 := by
  have numbers : (new maxRooms).freeIndices =
      (List.range maxRooms).map fun i => maxRooms - (1 + i) := by
    rw [freeIndices, new, List.map_map]
    refine map_congr_left fun i listed => ?_
    have inside := mem_range.mp listed
    exact toNat_slot small (by omega)
  have members : ∀ index, index ∈ (new maxRooms).freeIndices ↔ index < maxRooms := by
    intro index
    rw [numbers, List.mem_map]
    constructor
    · rintro ⟨i, listed, rfl⟩
      have inside := mem_range.mp listed
      omega
    intro inside
    exact ⟨maxRooms - (1 + index), mem_range.mpr (by omega), by omega⟩
  have noRooms : (new maxRooms).rooms.entries = [] := SlotArray.entries_empty
  refine ⟨⟨?_, ?_, ?_, ?_, ?_⟩, ?_, rfl⟩
  · apply List.Nodup.of_map UInt16.toNat
    change (new maxRooms).freeIndices.Nodup
    rw [numbers]
    refine List.Nodup.map_on ?_ nodup_range
    intro first firstListed second secondListed same
    have firstInside := mem_range.mp firstListed
    have secondInside := mem_range.mp secondListed
    omega
  · intro index
    rw [members]
    refine (and_iff_left ?_).symm
    rcases held : (new maxRooms).rooms.get? index with _ | room
    · rfl
    have listed := SlotArray.mem_entries_of_get? held
    rw [noRooms] at listed
    cases listed
  · rw [noRooms]
    rfl
  · change 0 + (List.map _ (List.range maxRooms)).length = maxRooms
    rw [length_map, length_range, Nat.zero_add]
  · rw [noRooms]
    exact nodup_nil
  intro room listed
  rw [noRooms] at listed
  cases listed

theorem not_wellFormed_new (large : 2 ^ 16 < maxRooms) : ¬ (new maxRooms).WellFormed := by
  intro wellFormed
  have distinct : (new maxRooms).freeIndices.Nodup :=
    wellFormed.distinct.map fun _ _ same => UInt16.toNat_inj.mp same
  have bounded : (new maxRooms).freeIndices ⊆ List.range (2 ^ 16) := by
    intro index free
    obtain ⟨slot, _, rfl⟩ := mem_map.mp free
    exact mem_range.mpr slot.toNat_lt
  have fits := (subperm_of_subset distinct bounded).length_le
  have length : (new maxRooms).freeIndices.length = maxRooms := by
    rw [freeIndices, new, length_map, length_map, length_range]
  rw [length_range] at fits
  omega

theorem wellFormed_throughout (small : maxRooms ≤ 2 ^ 16) {issued : Nat}
    {pool : DungeonPool maxRooms} (kept : pool.Kept issued) (calls : List PoolCall)
    (few : issued + calls.length < 2 ^ 64) : Throughout step WellFormed pool calls := by
  induction calls generalizing issued pool with
  | nil => exact kept.wellFormed
  | cons call rest ih =>
    rw [length_cons] at few
    refine ⟨kept.wellFormed, ?_⟩
    rcases kept.call small (by omega) call with same | more
    · exact ih same (by omega)
    exact ih more (by omega)

/-- A call that fails changes nothing, and the pool stays in order and allocates whenever a
room is empty exactly when it has at most 65536 slots. -/
theorem wellFormed_iff (maxRooms : Nat) (calls : List PoolCall) (few : calls.length < 2 ^ 64) :
    EachStep step FailsUnchanged (new maxRooms) calls ∧
      (Throughout step (fun pool => pool.WellFormed ∧ pool.AllocatesWhenEmpty)
          (new maxRooms) calls ↔
        maxRooms ≤ 2 ^ 16) := by
  constructor
  · have any : EachStep step (fun _ _ => True) (new maxRooms) calls :=
      eachStep_of_forall (fun _ _ => trivial) _
    exact any.imp fun pool call _ => pool.failsUnchanged call
  constructor
  · intro always
    apply Nat.le_of_not_lt
    intro large
    exact not_wellFormed_new large always.start.1
  intro small
  exact (wellFormed_throughout small (kept_new small) calls (by omega)).imp
    fun _ wellFormed => ⟨wellFormed, wellFormed.allocates⟩

theorem wellFormed_iff_four :
    EachStep step FailsUnchanged (new 4) [.allocateInstance 100, .room .tickAll] ∧
      (Throughout step (fun pool => pool.WellFormed ∧ pool.AllocatesWhenEmpty)
          (new 4) [.allocateInstance 100, .room .tickAll] ↔
        4 ≤ 2 ^ 16) :=
  wellFormed_iff 4 [.allocateInstance 100, .room .tickAll] (by decide)

/-- A pool of 65537 rooms has one free slot twice from the start. -/
theorem not_wellFormed_65537 :
    ¬ Throughout step (fun pool => pool.WellFormed ∧ pool.AllocatesWhenEmpty) (new 65537) [] :=
  fun always => not_wellFormed_new (by decide) always.start.1

end DungeonPool

end Eidolon.World
