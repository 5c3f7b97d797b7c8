import Eidolon.Library.KeyedList
import Eidolon.Spatial.Cell
import Eidolon.World.SoaStorage

/-!
# Steps of the world by sectors

The world is divided into sectors of 64 by 64 metres with the identifiers of the entities
in them.  A tick steps the entities, by one worker or by several, and then moves the
identifiers of those that have left their sectors.
-/

namespace Eidolon.World

open Core Library List Spatial

structure SectorCoord where
  x : Int16
  z : Int16
  deriving DecidableEq

def SectorCoord.fromPosition (pos : Vec3Fix) : SectorCoord where
  x := Int16.ofInt (pos.x.toI32.toInt / cellHorizontalSize.toInt)
  z := Int16.ofInt (pos.z.toI32.toInt / cellHorizontalSize.toInt)

structure SectorMigration where
  entityId : UInt32
  oldSector : SectorCoord
  newSector : SectorCoord
  newPosition : Vec3Fix
  deriving DecidableEq

structure SectorBucket where
  coord : SectorCoord
  entityIds : List UInt32

structure SectorParallelCoordinator where
  maxEntities : Nat
  sectors : List SectorBucket
  migrations : List SectorMigration
  distinct : (sectors.map SectorBucket.coord).Nodup

variable (sectors : List SectorBucket) (coord : SectorCoord)

def addBucket : List SectorBucket :=
  if sectors.any fun sector => decide (sector.coord = coord) then sectors
  else sectors ++ [{ coord := coord, entityIds := [] }]

variable (entityId : UInt32)

def assignTo : List SectorBucket :=
  match KeyedList.find SectorBucket.coord sectors coord with
  | some bucket =>
    if bucket.entityIds.contains entityId then sectors
    else
      KeyedList.replace SectorBucket.coord sectors coord
        { bucket with entityIds := bucket.entityIds ++ [entityId] }
  | none => sectors ++ [{ coord := coord, entityIds := [entityId] }]

def takeFrom : List SectorBucket :=
  match KeyedList.find SectorBucket.coord sectors coord with
  | none => sectors
  | some bucket =>
    match bucket.entityIds.findIdx? fun id => id == entityId with
    | none => sectors
    | some pos =>
      KeyedList.replace SectorBucket.coord sectors coord
        { bucket with entityIds := swapRemove bucket.entityIds pos }

def putInto : List SectorBucket :=
  match KeyedList.find SectorBucket.coord sectors coord with
  | some bucket =>
    KeyedList.replace SectorBucket.coord sectors coord
      { bucket with entityIds := bucket.entityIds ++ [entityId] }
  | none => sectors ++ [{ coord := coord, entityIds := [entityId] }]

def resolveMigration (migration : SectorMigration) : List SectorBucket :=
  putInto (takeFrom sectors migration.oldSector migration.entityId) migration.newSector
    migration.entityId

variable {sectors : List SectorBucket}

section

variable (distinct : (sectors.map SectorBucket.coord).Nodup)
include distinct

theorem distinct_replace {coord : SectorCoord} {bucket : SectorBucket}
    (found : KeyedList.find SectorBucket.coord sectors coord = some bucket)
    (entityIds : List UInt32) :
    ((KeyedList.replace SectorBucket.coord sectors coord
      { bucket with entityIds := entityIds }).map SectorBucket.coord).Nodup := by
  have named : bucket.coord = coord := KeyedList.key_of_find found
  rw [KeyedList.map_replace]
  · exact distinct
  exact named

theorem distinct_append {coord : SectorCoord}
    (absent : KeyedList.find SectorBucket.coord sectors coord = none) (entityIds : List UInt32) :
    ((sectors ++ [({ coord := coord, entityIds := entityIds } : SectorBucket)]).map
      SectorBucket.coord).Nodup := by
  have new : coord ∉ sectors.map SectorBucket.coord := by
    intro here
    exact KeyedList.find_ne_none_iff.mpr here absent
  rw [map_append, map_singleton, ← concat_eq_append]
  exact distinct.concat new

theorem distinct_addBucket (coord : SectorCoord) :
    ((addBucket sectors coord).map SectorBucket.coord).Nodup := by
  rw [addBucket]
  split
  · exact distinct
  rename_i absent
  apply distinct_append distinct
  rw [KeyedList.find_eq_none_iff]
  simpa using absent

theorem distinct_assignTo (coord : SectorCoord) (entityId : UInt32) :
    ((assignTo sectors coord entityId).map SectorBucket.coord).Nodup := by
  rw [assignTo]
  rcases found : KeyedList.find SectorBucket.coord sectors coord with _ | bucket
  · exact distinct_append distinct found _
  simp only
  split
  · exact distinct
  exact distinct_replace distinct found _

theorem distinct_takeFrom (coord : SectorCoord) (entityId : UInt32) :
    ((takeFrom sectors coord entityId).map SectorBucket.coord).Nodup := by
  rw [takeFrom]
  rcases found : KeyedList.find SectorBucket.coord sectors coord with _ | bucket
  · exact distinct
  simp only
  split
  · exact distinct
  exact distinct_replace distinct found _

theorem distinct_putInto (coord : SectorCoord) (entityId : UInt32) :
    ((putInto sectors coord entityId).map SectorBucket.coord).Nodup := by
  rw [putInto]
  rcases found : KeyedList.find SectorBucket.coord sectors coord with _ | bucket
  · exact distinct_append distinct found _
  exact distinct_replace distinct found _

theorem distinct_foldl_resolveMigration (migrations : List SectorMigration) :
    ((migrations.foldl resolveMigration sectors).map SectorBucket.coord).Nodup := by
  induction migrations generalizing sectors with
  | nil => exact distinct
  | cons migration rest ih => exact ih (distinct_putInto (distinct_takeFrom distinct _ _) _ _)

end

def stepEntity (dt : Fixed64) (coord : SectorCoord)
    (state : SoaEntityStorage × List SectorMigration) (id : UInt32) :
    SoaEntityStorage × List SectorMigration :=
  match state.1.lookupIndex id with
  | none => state
  | some idx =>
    match state.1.positions[idx]?, state.1.velocities[idx]? with
    | some pos, some vel =>
      let newPos := pos.add (vel.scale dt)
      let newSector := SectorCoord.fromPosition newPos
      let storage := { state.1 with positions := state.1.positions.set idx newPos }
      if newSector ≠ coord then
        (storage, state.2 ++
          [{ entityId := id, oldSector := coord, newSector := newSector,
             newPosition := newPos }])
      else (storage, state.2)
    -- an index outside of the arrays, where the source panics
    | _, _ => state

def stepSequential (storage : SoaEntityStorage) (dt : Fixed64) (sectors : List SectorBucket) :
    SoaEntityStorage × List SectorMigration :=
  sectors.foldl (fun state sector =>
    sector.entityIds.foldl (stepEntity dt sector.coord) state) (storage, [])

def workerMigration (positions velocities : List Vec3Fix) (dt : Fixed64) (coord : SectorCoord)
    (id : UInt32) : Option SectorMigration :=
  let idx := id.toNat - 1
  if idx < positions.length then
    match positions[idx]?, velocities[idx]? with
    | some pos, some vel =>
      let newPos := pos.add (vel.scale dt)
      let newSector := SectorCoord.fromPosition newPos
      if newSector ≠ coord then
        some { entityId := id, oldSector := coord, newSector := newSector,
               newPosition := newPos }
      else none
    | _, _ => none
  else none

def workerMigrations (positions velocities : List Vec3Fix) (dt : Fixed64)
    (slice : List SectorBucket) : List SectorMigration :=
  slice.flatMap fun sector =>
    sector.entityIds.filterMap (workerMigration positions velocities dt sector.coord)

/-- The path of several workers; their results are joined in the order of the slices. -/
def stepThreaded (storage : SoaEntityStorage) (dt : Fixed64) (sectors : List SectorBucket)
    (workers : Nat) : SoaEntityStorage × List SectorMigration :=
  let sectorsPerWorker := (sectors.length + workers - 1) / workers
  let workerResults := (chunks sectorsPerWorker sectors).map
    (workerMigrations storage.positions storage.velocities dt)
  (storage.stepKinematics dt, workerResults.flatten)

namespace SectorParallelCoordinator

def new (maxEntities : Nat) : SectorParallelCoordinator where
  maxEntities := maxEntities
  sectors := []
  migrations := []
  distinct := nodup_nil

variable (coordinator : SectorParallelCoordinator)

def addSector (coord : SectorCoord) (_capacity : Nat) : SectorParallelCoordinator :=
  { coordinator with
    sectors := addBucket coordinator.sectors coord
    distinct := distinct_addBucket coordinator.distinct coord }

def assignEntity (entityId : UInt32) (pos : Vec3Fix) : SectorCoord × SectorParallelCoordinator :=
  let coord := SectorCoord.fromPosition pos
  (coord,
    { coordinator with
      sectors := assignTo coordinator.sectors coord entityId
      distinct := distinct_assignTo coordinator.distinct coord entityId })

def stepSimulationParallel (storage : SoaEntityStorage) (dt : Fixed64) (numWorkers : Nat) :
    SectorParallelCoordinator × SoaEntityStorage :=
  let workers := max numWorkers 1
  let (stepped, crossed) :=
    if workers = 1 ∨ coordinator.sectors.length ≤ 1 then
      stepSequential storage dt coordinator.sectors
    else stepThreaded storage dt coordinator.sectors workers
  let migrations := crossed.insertionSort fun left right => left.entityId ≤ right.entityId
  ({ coordinator with
     sectors := migrations.foldl resolveMigration coordinator.sectors
     migrations := migrations
     distinct := distinct_foldl_resolveMigration coordinator.distinct migrations },
   stepped)

end SectorParallelCoordinator

structure SectorWorld where
  storage : SoaEntityStorage
  coordinator : SectorParallelCoordinator

inductive SectorCall where
  | spawn (params : EntitySpawnParams)
  | despawn (id : UInt32)
  | setTransform (id : UInt32) (pos vel : Vec3Fix) (heading : QuantizedYaw)
  | addSector (coord : SectorCoord) (capacity : Nat)
  | assign (entityId : UInt32) (pos : Vec3Fix)
  | tick (dt : Fixed64) (numWorkers : Nat)

namespace SectorWorld

def new (maxEntities : Nat) : SectorWorld where
  storage := SoaEntityStorage.empty
  coordinator := SectorParallelCoordinator.new maxEntities

def tick (world : SectorWorld) (dt : Fixed64) (numWorkers : Nat) : SectorWorld :=
  let (coordinator, storage) :=
    world.coordinator.stepSimulationParallel world.storage dt numWorkers
  { storage := storage, coordinator := coordinator }

def step (world : SectorWorld) : SectorCall → SectorWorld
  | .spawn params => { world with storage := (world.storage.spawn params).2 }
  | .despawn id => { world with storage := (world.storage.despawn id).2 }
  | .setTransform id pos vel heading =>
    { world with storage := (world.storage.setTransform id pos vel heading).2 }
  | .addSector coord capacity =>
    { world with coordinator := world.coordinator.addSector coord capacity }
  | .assign entityId pos =>
    { world with coordinator := (world.coordinator.assignEntity entityId pos).2 }
  | .tick dt numWorkers => world.tick dt numWorkers

end SectorWorld

end Eidolon.World
