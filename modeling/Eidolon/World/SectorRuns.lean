import Eidolon.World.SectorIndependence

/-!
# Runs of a world with sectors

The table of identifiers is right in every world that calls lead to, so in all of these the
condition on the departures decides about the number of workers.
-/

namespace Eidolon.World

open Core Library List Spatial

private structure SameTable (before after : SoaEntityStorage) : Prop where
  ids : after.ids = before.ids
  positions : after.positions.length = before.positions.length
  velocities : after.velocities = before.velocities
  coldData : after.coldData = before.coldData
  sparseToDense : after.sparseToDense = before.sparseToDense

private theorem SameTable.refl (storage : SoaEntityStorage) : SameTable storage storage :=
  ⟨rfl, rfl, rfl, rfl, rfl⟩

private theorem SameTable.trans {first second third : SoaEntityStorage}
    (early : SameTable first second) (late : SameTable second third) : SameTable first third :=
  ⟨late.ids.trans early.ids, late.positions.trans early.positions,
    late.velocities.trans early.velocities, late.coldData.trans early.coldData,
    late.sparseToDense.trans early.sparseToDense⟩

private theorem SameTable.indexed {before after : SoaEntityStorage}
    (same : SameTable before after) (indexed : before.Indexed) : after.Indexed := by
  refine ⟨?_, ?_, ?_, ?_⟩
  · rw [same.positions, same.ids]
    exact indexed.positions
  · rw [same.velocities, same.ids]
    exact indexed.velocities
  · rw [same.coldData, same.ids]
    exact indexed.coldData
  intro id index
  rw [SoaEntityStorage.lookupIndex, same.sparseToDense, same.ids]
  exact indexed.lookup id index

variable (dt : Fixed64)

private theorem sameTable_stepEntity (coord : SectorCoord)
    (state : SoaEntityStorage × List SectorMigration) (id : UInt32) :
    SameTable state.1 (stepEntity dt coord state id).1 := by
  rw [stepEntity]
  split
  · exact SameTable.refl _
  split
  · simp only
    split <;> exact ⟨rfl, length_set, rfl, rfl, rfl⟩
  exact SameTable.refl _

private theorem sameTable_stepBucket (coord : SectorCoord) (ids : List UInt32)
    (state : SoaEntityStorage × List SectorMigration) :
    SameTable state.1 (ids.foldl (stepEntity dt coord) state).1 := by
  induction ids generalizing state with
  | nil => exact SameTable.refl _
  | cons id rest ih => exact (sameTable_stepEntity dt coord state id).trans (ih _)

private theorem sameTable_stepSequential (sectors : List SectorBucket)
    (state : SoaEntityStorage × List SectorMigration) :
    SameTable state.1 (sectors.foldl (fun state sector =>
      sector.entityIds.foldl (stepEntity dt sector.coord) state) state).1 := by
  induction sectors generalizing state with
  | nil => exact SameTable.refl _
  | cons sector rest ih =>
    exact (sameTable_stepBucket dt sector.coord sector.entityIds state).trans (ih _)

private theorem sameTable_stepKinematics (storage : SoaEntityStorage) (dt : Fixed64) :
    SameTable storage (storage.stepKinematics dt) := by
  rw [stepKinematics_eq]
  exact ⟨rfl, length_updateWhere _ _ _, rfl, rfl, rfl⟩

namespace SectorWorld

variable {world : SectorWorld}

theorem indexed_tick (indexed : world.storage.Indexed) (dt : Fixed64) (numWorkers : Nat) :
    (world.tick dt numWorkers).storage.Indexed := by
  have stepped : SameTable world.storage (world.tick dt numWorkers).storage := by
    rw [tick, SectorParallelCoordinator.stepSimulationParallel]
    by_cases sequential : max numWorkers 1 = 1 ∨ world.coordinator.sectors.length ≤ 1
    · simp only [if_pos sequential]
      exact sameTable_stepSequential dt world.coordinator.sectors (world.storage, [])
    simp only [if_neg sequential]
    exact sameTable_stepKinematics _ dt
  exact stepped.indexed indexed

theorem indexed_setTransform {storage : SoaEntityStorage} (indexed : storage.Indexed)
    (id : UInt32) (pos vel : Vec3Fix) (heading : QuantizedYaw) :
    (storage.setTransform id pos vel heading).2.Indexed := by
  rw [SoaEntityStorage.setTransform]
  split
  · exact indexed
  refine ⟨?_, ?_, indexed.coldData, indexed.lookup⟩
  · simp only [length_set, indexed.positions]
  simp only [length_set, indexed.velocities]

/-- An entity is spawned while its index is one that the table can have. -/
def HasRoom (world : SectorWorld) : SectorCall → Prop
  | .spawn _ => world.storage.ids.length < sparseSentinel.toNat
  | _ => True

theorem indexed_step (indexed : world.storage.Indexed) {call : SectorCall}
    (room : world.HasRoom call) : (world.step call).storage.Indexed := by
  cases call with
  | spawn params => exact SoaEntityStorage.indexed_spawn indexed params room
  | despawn id => exact SoaEntityStorage.indexed_despawn indexed id
  | setTransform id pos vel heading => exact indexed_setTransform indexed id pos vel heading
  | tick dt numWorkers => exact indexed_tick indexed dt numWorkers
  | _ => exact indexed

theorem indexed_run {maxEntities : Nat} {calls : List SectorCall}
    (room : EachStep step HasRoom (new maxEntities) calls) :
    (run step (new maxEntities) calls).storage.Indexed := by
  have preserved : ∀ state call, SoaEntityStorage.Indexed state.storage → HasRoom state call →
      SoaEntityStorage.Indexed (step state call).storage :=
    fun _ _ indexed hasRoom => indexed_step indexed hasRoom
  have always : Throughout step (fun state => SoaEntityStorage.Indexed state.storage)
      (new maxEntities) calls :=
    throughout_of_eachStep preserved SoaEntityStorage.indexed_empty room
  exact always.run

/-- In every world that calls lead to and whose entities are in the sectors of their
positions: the next tick does not depend on the number of workers exactly if there is one
sector at most or the two ways to find an entity lead to the same departures. -/
theorem worker_independence_iff {maxEntities : Nat} {calls : List SectorCall}
    (room : EachStep step HasRoom (new maxEntities) calls)
    (assigned : (run step (new maxEntities) calls).Assigned) (dt : Fixed64) :
    (run step (new maxEntities) calls).WorkerIndependent dt ↔
      (run step (new maxEntities) calls).coordinator.sectors.length ≤ 1 ∨
        (run step (new maxEntities) calls).SameDepartures dt :=
  workerIndependent_iff (indexed_run room) assigned

private def atMetres (x z : Int32) : Vec3Fix :=
  Vec3Fix.fromI32 x 0 z

private def movingAt (id : UInt32) (position velocity : Vec3Fix) : EntitySpawnParams where
  id := id
  position := position
  velocity := velocity
  acceleration := atMetres 0 0
  heading := { byte := 0 }
  flags := 0
  health := 100
  maxHealth := 100
  cold :=
    { accountId := none
      sessionId := none
      guildId := none
      equipment := EquipmentContainer.new
      name := "" }

private def twoEntities (first second : UInt32) : List SectorCall :=
  [.spawn (movingAt first (atMetres 63 10) (atMetres 20 0)), .assign first (atMetres 63 10),
   .spawn (movingAt second (atMetres 100 10) (atMetres 0 0)),
   .assign second (atMetres 100 10)]

private def oneSecond : Fixed64 :=
  Fixed64.fromI32 1

private theorem room_twoEntities (first second : UInt32) :
    EachStep step HasRoom (new 100) (twoEntities first second) := by
  refine ⟨?_, trivial, ?_, trivial, trivial⟩
  · exact Nat.zero_lt_succ _
  exact Nat.succ_lt_succ (Nat.zero_lt_succ _)

private theorem assigned_of_two {first second : UInt32} {firstPosition secondPosition : Vec3Fix}
    (ids : world.storage.ids = [first, second])
    (positions : world.storage.positions = [firstPosition, secondPosition])
    (placed : Placed world.coordinator.sectors first (SectorCoord.fromPosition firstPosition) ∧
      Placed world.coordinator.sectors second (SectorCoord.fromPosition secondPosition)) :
    world.Assigned := by
  intro index id position held positionHeld
  rw [ids] at held
  rw [positions] at positionHeld
  match index with
  | 0 =>
    cases held
    cases positionHeld
    exact placed.1
  | 1 =>
    cases held
    cases positionHeld
    exact placed.2
  | other + 2 => cases held

private theorem assigned_oneTwo : (run step (new 100) (twoEntities 1 2)).Assigned := by
  have ids : (run step (new 100) (twoEntities 1 2)).storage.ids = [1, 2] := by
    decide
  have positions : (run step (new 100) (twoEntities 1 2)).storage.positions =
      [atMetres 63 10, atMetres 100 10] := by
    decide
  refine assigned_of_two ids positions ?_
  simp only [Placed]
  decide

private theorem assigned_twoOne : (run step (new 100) (twoEntities 2 1)).Assigned := by
  have ids : (run step (new 100) (twoEntities 2 1)).storage.ids = [2, 1] := by
    decide
  have positions : (run step (new 100) (twoEntities 2 1)).storage.positions =
      [atMetres 63 10, atMetres 100 10] := by
    decide
  refine assigned_of_two ids positions ?_
  simp only [Placed]
  decide

private theorem sameDepartures_iff_all {world : SectorWorld} {dt : Fixed64} :
    world.SameDepartures dt ↔
      (world.coordinator.sectors.all fun sector => sector.entityIds.all fun id =>
        departure world.storage dt sector.coord (world.storage.lookupIndex id) ==
          departure world.storage dt sector.coord (arithmeticIndex world.storage id)) = true := by
  simp only [SameDepartures, List.all_eq_true, beq_iff_eq]

theorem worker_independence_iff_one_two :
    (run step (new 100) (twoEntities 1 2)).WorkerIndependent oneSecond := by
  apply (worker_independence_iff (room_twoEntities 1 2) assigned_oneTwo oneSecond).mpr
  refine Or.inr ?_
  exact sameDepartures_iff_all.mpr (by decide)

/-- Spawned in the other order, entity 2 has index 0 and is taken for the one of index 1. -/
theorem not_worker_independence_two_one : EachStep step HasRoom (new 100) (twoEntities 2 1) ∧
      (run step (new 100) (twoEntities 2 1)).Assigned ∧
      ¬ (run step (new 100) (twoEntities 2 1)).WorkerIndependent oneSecond := by
  refine ⟨room_twoEntities 2 1, assigned_twoOne, ?_⟩
  intro independent
  have condition := (workerIndependent_iff (indexed_run (room_twoEntities 2 1))
    assigned_twoOne).mp independent
  rw [sameDepartures_iff_all] at condition
  exact absurd condition (by decide)

end SectorWorld

end Eidolon.World
