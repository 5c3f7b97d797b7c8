import Mathlib.Algebra.Order.Group.Multiset
import Eidolon.Library.Run
import Eidolon.World.SectorParallel

/-!
# The number of workers

One worker finds an entity by the table of the storage, several workers take the index below
its identifier.  They agree exactly when both indices lead to the same departures; the
entities are then in the sectors of their new positions.
-/

namespace Eidolon.World

open Core Library Option Spatial

variable (sectors : List SectorBucket)

def assignments : List (SectorCoord × UInt32) :=
  sectors.flatMap fun sector => sector.entityIds.map fun id => (sector.coord, id)

/-- An entity is in one sector, once. -/
def Placed (id : UInt32) (coord : SectorCoord) : Prop :=
  (assignments sectors).filter (fun assignment => decide (assignment.2 = id)) = [(coord, id)]

private def bucketAssignments (bucket : SectorBucket) : Multiset (SectorCoord × UInt32) :=
  (bucket.entityIds.map fun id => (bucket.coord, id) : List (SectorCoord × UInt32))

private theorem coe_assignments : (assignments sectors : Multiset (SectorCoord × UInt32)) =
      (sectors.map bucketAssignments).sum := by
  induction sectors with
  | nil => rfl
  | cons sector rest ih =>
    rw [assignments] at ih ⊢
    rw [List.flatMap_cons, ← Multiset.coe_add, ih]
    rfl

variable {sectors : List SectorBucket} {id : UInt32} {coord : SectorCoord}

private theorem placed_iff : Placed sectors id coord ↔
      (assignments sectors : Multiset (SectorCoord × UInt32)).filter
        (fun assignment => assignment.2 = id) = {(coord, id)} := by
  rw [Placed, ← List.perm_singleton, ← Multiset.coe_eq_coe]
  exact Iff.rfl

theorem mem_assignments : (coord, id) ∈ assignments sectors ↔
      ∃ sector ∈ sectors, sector.coord = coord ∧ id ∈ sector.entityIds := by
  simp only [assignments, List.mem_flatMap, List.mem_map, Prod.mk.injEq]
  constructor
  · rintro ⟨sector, here, _, inside, sameCoord, rfl⟩
    exact ⟨sector, here, sameCoord, inside⟩
  rintro ⟨sector, here, sameCoord, inside⟩
  exact ⟨sector, here, id, inside, sameCoord, rfl⟩

theorem Placed.mem (placed : Placed sectors id coord) : (coord, id) ∈ assignments sectors := by
  have inside : (coord, id) ∈
      (assignments sectors).filter (fun assignment => decide (assignment.2 = id)) := by
    rw [placed]
    exact List.mem_singleton_self _
  exact List.mem_of_mem_filter inside

section Resolve

variable {sectors : List SectorBucket} {coord : SectorCoord}

private theorem assignments_replace {bucket : SectorBucket}
    (found : KeyedList.find SectorBucket.coord sectors coord = some bucket)
    (changed : SectorBucket) :
    (assignments (KeyedList.replace SectorBucket.coord sectors coord changed) :
        Multiset (SectorCoord × UInt32)) + bucketAssignments bucket =
      (assignments sectors : Multiset (SectorCoord × UInt32)) + bucketAssignments changed := by
  rw [coe_assignments, coe_assignments]
  exact KeyedList.sum_replace found changed bucketAssignments

private theorem assignments_putInto (sectors : List SectorBucket) (coord : SectorCoord)
    (entityId : UInt32) :
    (assignments (putInto sectors coord entityId) : Multiset (SectorCoord × UInt32)) =
      (coord, entityId) ::ₘ (assignments sectors : Multiset (SectorCoord × UInt32)) := by
  rw [putInto]
  rcases found : KeyedList.find SectorBucket.coord sectors coord with _ | bucket
  · simp only [assignments, List.flatMap_append, List.flatMap_singleton, List.map_singleton]
    exact Multiset.coe_eq_coe.mpr (List.perm_append_singleton _ _)
  have named : bucket.coord = coord := KeyedList.key_of_find found
  have moved := assignments_replace found
    { bucket with entityIds := bucket.entityIds ++ [entityId] }
  have grown : bucketAssignments { bucket with entityIds := bucket.entityIds ++ [entityId] } =
      (coord, entityId) ::ₘ bucketAssignments bucket := by
    simp only [bucketAssignments, List.map_append, List.map_singleton, named]
    exact Multiset.coe_eq_coe.mpr (List.perm_append_singleton _ _)
  rw [grown, Multiset.add_cons] at moved
  exact add_right_cancel moved

private theorem assignments_takeFrom (distinct : (sectors.map SectorBucket.coord).Nodup)
    (coord : SectorCoord) (entityId : UInt32) :
    (assignments (takeFrom sectors coord entityId) : Multiset (SectorCoord × UInt32)) =
      (assignments sectors : Multiset (SectorCoord × UInt32)).erase (coord, entityId) := by
  rw [takeFrom]
  rcases found : KeyedList.find SectorBucket.coord sectors coord with _ | bucket
  · have absent : (coord, entityId) ∉ assignments sectors := by
      rw [mem_assignments]
      rintro ⟨sector, here, same, _⟩
      exact KeyedList.find_eq_none_iff.mp found sector here same
    exact (Multiset.erase_of_notMem absent).symm
  have named : bucket.coord = coord := KeyedList.key_of_find found
  rcases position : bucket.entityIds.findIdx? (fun id => id == entityId) with _ | pos
  · have absent : (coord, entityId) ∉ assignments sectors := by
      rw [mem_assignments]
      rintro ⟨sector, here, same, inside⟩
      have isBucket := (KeyedList.find_eq_some_iff distinct).mpr ⟨here, same⟩
      rw [found, some.injEq] at isBucket
      rw [List.findIdx?_eq_none_iff] at position
      rw [← isBucket] at inside
      simpa using position entityId inside
    simp only [position]
    exact (Multiset.erase_of_notMem absent).symm
  have held : bucket.entityIds[pos]? = some entityId := by
    obtain ⟨inside, test, _⟩ := List.findIdx?_eq_some_iff_getElem.mp position
    rw [List.getElem?_eq_getElem inside]
    exact beq_iff_eq.mp test
  have shrunk : bucketAssignments bucket = (coord, entityId) ::ₘ bucketAssignments
      { bucket with entityIds := swapRemove bucket.entityIds pos } := by
    have perm := (perm_swapRemove held).map fun id => (bucket.coord, id)
    rw [named] at perm
    simp only [bucketAssignments, named]
    exact Multiset.coe_eq_coe.mpr perm
  have moved := assignments_replace found
    { bucket with entityIds := swapRemove bucket.entityIds pos }
  rw [shrunk, Multiset.add_cons, ← Multiset.cons_add] at moved
  simp only [position]
  rw [← add_right_cancel moved, Multiset.erase_cons_head]

private theorem assignments_resolve (distinct : (sectors.map SectorBucket.coord).Nodup)
    (migration : SectorMigration) :
    (assignments (resolveMigration sectors migration) : Multiset (SectorCoord × UInt32)) =
      (migration.newSector, migration.entityId) ::ₘ
        (assignments sectors : Multiset (SectorCoord × UInt32)).erase
          (migration.oldSector, migration.entityId) := by
  rw [resolveMigration, assignments_putInto, assignments_takeFrom distinct]

private theorem filter_erase {α : Type*} [DecidableEq α] (test : α → Prop) [DecidablePred test]
    (items : Multiset α) (item : α) :
    (items.erase item).filter test = (items.filter test).erase item := by
  by_cases here : item ∈ items
  · obtain ⟨rest, rfl⟩ := Multiset.exists_cons_of_mem here
    rw [Multiset.erase_cons_head]
    by_cases passes : test item
    · rw [Multiset.filter_cons_of_pos _ passes, Multiset.erase_cons_head]
    rw [Multiset.filter_cons_of_neg _ passes, Multiset.erase_of_notMem]
    exact fun inside => passes (Multiset.of_mem_filter inside)
  rw [Multiset.erase_of_notMem here, Multiset.erase_of_notMem]
  exact fun inside => here (Multiset.mem_of_mem_filter inside)

section

variable (distinct : (sectors.map SectorBucket.coord).Nodup)
include distinct

private theorem placed_resolve_of_ne {migration : SectorMigration} {id : UInt32}
    (other : migration.entityId ≠ id) (placed : Placed sectors id coord) :
    Placed (resolveMigration sectors migration) id coord := by
  rw [placed_iff] at placed ⊢
  rw [assignments_resolve distinct, Multiset.filter_cons_of_neg _ (by exact other),
    filter_erase, placed, Multiset.erase_of_notMem]
  rw [Multiset.mem_singleton, Prod.mk.injEq]
  exact fun same => other same.2

private theorem placed_resolve {migration : SectorMigration}
    (placed : Placed sectors migration.entityId migration.oldSector) :
    Placed (resolveMigration sectors migration) migration.entityId migration.newSector := by
  rw [placed_iff] at placed ⊢
  rw [assignments_resolve distinct, Multiset.filter_cons_of_pos _ (by exact rfl), filter_erase,
    placed, Multiset.erase_singleton]
  rfl

theorem placed_foldl_resolve (migrations : List SectorMigration) {id : UInt32}
    (placed : Placed sectors id coord) :
    (migrations.filter (fun migration => decide (migration.entityId = id)) = [] →
      Placed (migrations.foldl resolveMigration sectors) id coord) ∧
    (∀ migration, migration.oldSector = coord →
      migrations.filter (fun migration => decide (migration.entityId = id)) = [migration] →
        Placed (migrations.foldl resolveMigration sectors) id migration.newSector) := by
  induction migrations generalizing sectors coord with
  | nil =>
    refine ⟨fun _ => placed, ?_⟩
    intro migration _ one
    cases one
  | cons first rest ih =>
    have distinctAfter : ((resolveMigration sectors first).map SectorBucket.coord).Nodup :=
      distinct_foldl_resolveMigration distinct [first]
    by_cases own : first.entityId = id
    · rw [List.filter_cons_of_pos (by simpa using own)]
      constructor
      · intro none
        cases none
      intro migration leaves one
      rw [List.cons.injEq] at one
      obtain ⟨rfl, noMore⟩ := one
      subst own
      subst leaves
      exact (ih distinctAfter (placed_resolve distinct placed)).1 noMore
    rw [List.filter_cons_of_neg (by simpa using own)]
    exact ih distinctAfter (placed_resolve_of_ne distinct own placed)

end

end Resolve

variable (storage : SoaEntityStorage)

/-- The new position of the entity at an index, if it is outside of a sector. -/
def departure (dt : Fixed64) (coord : SectorCoord) (index : Option Nat) : Option Vec3Fix :=
  index.bind fun index =>
    (storage.positions[index]?.map (SoaEntityStorage.displace storage.velocities dt index)).filter
      fun position => decide (SectorCoord.fromPosition position ≠ coord)

def arithmeticIndex (id : UInt32) : Option Nat :=
  if id.toNat - 1 < storage.positions.length then some (id.toNat - 1) else none

def migrationTo (coord : SectorCoord) (id : UInt32) (position : Vec3Fix) : SectorMigration where
  entityId := id
  oldSector := coord
  newSector := SectorCoord.fromPosition position
  newPosition := position

/-- The migrations by a way to find the index of an entity. -/
def crossings (dt : Fixed64) (indexOf : UInt32 → Option Nat)
    (assigned : List (SectorCoord × UInt32)) : List SectorMigration :=
  assigned.filterMap fun assignment =>
    (departure storage dt assignment.1 (indexOf assignment.2)).map
      (migrationTo assignment.1 assignment.2)

section Paths

variable {storage : SoaEntityStorage} (dt : Fixed64)

private theorem workerMigration_eq
    (sameLength : storage.velocities.length = storage.positions.length) (coord : SectorCoord)
    (id : UInt32) :
    workerMigration storage.positions storage.velocities dt coord id =
      (departure storage dt coord (arithmeticIndex storage id)).map (migrationTo coord id) := by
  rw [workerMigration, arithmeticIndex]
  by_cases inside : id.toNat - 1 < storage.positions.length
  · have insideVelocities : id.toNat - 1 < storage.velocities.length := by
      rw [sameLength]
      exact inside
    simp only [if_pos inside, List.getElem?_eq_getElem inside,
      List.getElem?_eq_getElem insideVelocities, departure, bind_some, map_some,
      SoaEntityStorage.displace, filter_some]
    split
    · rename_i leaves
      rw [if_pos (by simpa using leaves)]
      rfl
    rename_i stays
    rw [if_neg (by simpa using stays)]
    rfl
  simp only [if_neg inside]
  rfl

theorem stepThreaded_eq (sameLength : storage.velocities.length = storage.positions.length)
    {sectors : List SectorBucket} {workers : Nat} (some : 0 < sectors.length)
    (positive : 0 < workers) :
    stepThreaded storage dt sectors workers = (storage.stepKinematics dt,
        crossings storage dt (arithmeticIndex storage) (assignments sectors)) := by
  have chunkPositive : 0 < (sectors.length + workers - 1) / workers := by
    rw [Nat.div_pos_iff]
    omega
  have merged : ∀ slices : List (List SectorBucket),
      (slices.map (workerMigrations storage.positions storage.velocities dt)).flatten =
        workerMigrations storage.positions storage.velocities dt slices.flatten := by
    intro slices
    induction slices with
    | nil => rfl
    | cons slice rest ih =>
      rw [List.map_cons, List.flatten_cons, ih, List.flatten_cons,
        workerMigrations, workerMigrations, workerMigrations, List.flatMap_append]
  rw [stepThreaded]
  simp only [merged, flatten_chunks chunkPositive]
  rw [workerMigrations, crossings, assignments, List.filterMap_flatMap]
  congr 1
  congr 1
  funext sector
  rw [List.filterMap_map]
  congr 1
  funext id
  exact workerMigration_eq dt sameLength sector.coord id

private def visited (storage : SoaEntityStorage) (ids : List UInt32) (index : Nat) : Bool :=
  ids.any fun id => decide (storage.lookupIndex id = some index)

private def advanced (storage : SoaEntityStorage) (dt : Fixed64) (ids : List UInt32) :
    SoaEntityStorage :=
  { storage with
    positions := updateWhere (visited storage ids)
      (SoaEntityStorage.displace storage.velocities dt) storage.positions }

private theorem visited_append (ids : List UInt32) (id : UInt32) (index : Nat) :
    visited storage (ids ++ [id]) index =
      (visited storage ids index || decide (storage.lookupIndex id = some index)) := by
  simp only [visited, List.any_append, List.any_cons, List.any_nil, Bool.or_false]

private theorem advanced_nil : advanced storage dt [] = storage := by
  have nothing : ∀ index < storage.positions.length, visited storage [] index = false :=
    fun _ _ => rfl
  rw [advanced, updateWhere_of_none nothing]

variable {dt}

private theorem stepEntity_advanced (indexed : storage.Indexed) (coord : SectorCoord)
    {id : UInt32} {done : List UInt32} (new : storage.lookupIndex id ≠ none → id ∉ done)
    (crossed : List SectorMigration) :
    stepEntity dt coord (advanced storage dt done, crossed) id =
      (advanced storage dt (done ++ [id]),
        crossed ++ crossings storage dt storage.lookupIndex [(coord, id)]) := by
  have sameLookup : (advanced storage dt done).lookupIndex id = storage.lookupIndex id := rfl
  rw [stepEntity]
  simp only [sameLookup]
  rcases found : storage.lookupIndex id with _ | idx
  · have same : visited storage (done ++ [id]) = visited storage done := by
      funext index
      rw [visited_append, found]
      simp
    simp [crossings, departure, found, advanced, same]
  have held := (indexed.lookup id idx).mp found
  have inside : idx < storage.ids.length := (List.getElem?_eq_some_iff.mp held).1
  have insidePositions : idx < storage.positions.length := by
    rw [indexed.positions]
    exact inside
  have insideVelocities : idx < storage.velocities.length := by
    rw [indexed.velocities]
    exact inside
  have notYet : visited storage done idx = false := by
    rw [visited, List.any_eq_false]
    intro other here isSame
    rw [decide_eq_true_iff, indexed.lookup other idx, held, some.injEq] at isSame
    rw [← isSame] at here
    exact new (by rw [found]; exact some_ne_none idx) here
  obtain ⟨pos, posHeld⟩ : ∃ pos, storage.positions[idx]? = some pos :=
    ⟨_, List.getElem?_eq_getElem insidePositions⟩
  obtain ⟨vel, velHeld⟩ : ∃ vel, storage.velocities[idx]? = some vel :=
    ⟨_, List.getElem?_eq_getElem insideVelocities⟩
  have current : (advanced storage dt done).positions[idx]? = some pos := by
    rw [advanced, getElem?_updateWhere, posHeld, notYet]
    rfl
  have velocity : (advanced storage dt done).velocities[idx]? = some vel := velHeld
  have newPos : pos.add (vel.scale dt) =
      SoaEntityStorage.displace storage.velocities dt idx pos := by
    rw [SoaEntityStorage.displace, velHeld]
  have after : (advanced storage dt done).positions.set idx
      (SoaEntityStorage.displace storage.velocities dt idx pos) =
        (advanced storage dt (done ++ [id])).positions := by
    rw [advanced, set_updateWhere _ posHeld]
    apply updateWhere_congr
    intro index _
    rw [visited_append, found, beq_eq_decide]
    congr 1
    rw [decide_eq_decide, some.injEq]
    exact eq_comm
  simp only [current, velocity, newPos, after]
  have crossing : crossings storage dt storage.lookupIndex [(coord, id)] =
      if SectorCoord.fromPosition
          (SoaEntityStorage.displace storage.velocities dt idx pos) ≠ coord then
        [migrationTo coord id (SoaEntityStorage.displace storage.velocities dt idx pos)]
      else [] := by
    simp only [crossings, List.filterMap_cons, List.filterMap_nil, found, departure,
      bind_some, posHeld, map_some, filter_some]
    split
    · rename_i nothing
      split at nothing
      · cases nothing
      rename_i stays
      rw [if_neg (by simpa using stays)]
    rename_i migration one
    split at one
    · rename_i leaves
      rw [if_pos (by simpa using leaves)]
      rw [map_some, some.injEq] at one
      rw [one]
    cases one
  rw [crossing]
  split
  · rfl
  rw [List.append_nil]
  rfl

private theorem foldl_stepEntity (indexed : storage.Indexed)
    (assigned : List (SectorCoord × UInt32)) {done : List UInt32}
    (once : ∀ id, storage.lookupIndex id ≠ none →
      (done ++ assigned.map Prod.snd).count id ≤ 1) (crossed : List SectorMigration) :
    assigned.foldl (fun state assignment => stepEntity dt assignment.1 state assignment.2)
        (advanced storage dt done, crossed) =
      (advanced storage dt (done ++ assigned.map Prod.snd),
        crossed ++ crossings storage dt storage.lookupIndex assigned) := by
  induction assigned generalizing done crossed with
  | nil => simp [crossings]
  | cons assignment rest ih =>
    have new : storage.lookupIndex assignment.2 ≠ none → assignment.2 ∉ done := by
      intro isEntity here
      have counted := once assignment.2 isEntity
      rw [List.count_append, List.map_cons, List.count_cons_self] at counted
      have positive := List.count_pos_iff.mpr here
      omega
    have onceAfter : ∀ id, storage.lookupIndex id ≠ none →
        ((done ++ [assignment.2]) ++ rest.map Prod.snd).count id ≤ 1 := by
      intro id isEntity
      have counted := once id isEntity
      rw [List.append_assoc]
      exact counted
    have split : crossings storage dt storage.lookupIndex (assignment :: rest) =
        crossings storage dt storage.lookupIndex [assignment] ++
          crossings storage dt storage.lookupIndex rest := by
      rw [crossings, crossings, crossings, ← List.filterMap_append, List.singleton_append]
    rw [List.foldl_cons, stepEntity_advanced indexed assignment.1 new,
      ih onceAfter, split, List.map_cons, List.append_assoc,
      List.append_assoc, List.singleton_append]

theorem stepKinematics_eq (storage : SoaEntityStorage) : storage.stepKinematics dt =
      { storage with
        positions := updateBelow storage.positions.length
          (SoaEntityStorage.displace storage.velocities dt) storage.positions } := by
  rw [← SoaEntityStorage.positions_stepKinematics storage]
  rfl

theorem stepSequential_eq (indexed : storage.Indexed) {sectors : List SectorBucket}
    (placed : ∀ (index : Nat) id, storage.ids[index]? = some id → ∃ coord, Placed sectors id coord) :
    stepSequential storage dt sectors = (storage.stepKinematics dt,
        crossings storage dt storage.lookupIndex (assignments sectors)) := by
  have folded : stepSequential storage dt sectors = (assignments sectors).foldl
        (fun state assignment => stepEntity dt assignment.1 state assignment.2)
        (advanced storage dt [], []) := by
    rw [advanced_nil, stepSequential, assignments, List.foldl_flatMap]
    simp only [List.foldl_map]
  have once : ∀ id, storage.lookupIndex id ≠ none →
      ([] ++ (assignments sectors).map Prod.snd).count id ≤ 1 := by
    intro id isEntity
    obtain ⟨index, found⟩ := Option.ne_none_iff_exists'.mp isEntity
    obtain ⟨coord, only⟩ := placed index id ((indexed.lookup id index).mp found)
    have number := congrArg List.length only
    rw [List.nil_append, List.count_eq_countP, List.countP_map, List.countP_eq_length_filter]
    refine Nat.le_of_eq (Eq.trans (congrArg List.length ?_) number)
    apply List.filter_congr
    intro assignment _
    exact beq_eq_decide _ _
  rw [folded, foldl_stepEntity indexed _ once, stepKinematics_eq, advanced]
  congr 2
  apply updateWhere_congr
  intro index inside
  have insideIds : index < storage.ids.length := by
    rw [← indexed.positions]
    exact inside
  have held := List.getElem?_eq_getElem insideIds
  obtain ⟨coord, only⟩ := placed index _ held
  rw [decide_eq_true inside, visited, List.any_eq_true]
  refine ⟨storage.ids[index], List.mem_map.mpr ⟨_, only.mem, rfl⟩, ?_⟩
  rw [decide_eq_true_iff]
  exact (indexed.lookup _ index).mpr held

private theorem filter_crossings (indexOf : UInt32 → Option Nat) (id : UInt32)
    (assigned : List (SectorCoord × UInt32)) :
    (crossings storage dt indexOf assigned).filter
        (fun migration => decide (migration.entityId = id)) =
      crossings storage dt indexOf
        (assigned.filter fun assignment => decide (assignment.2 = id)) := by
  rw [crossings, crossings, List.filter_filterMap, List.filterMap_filter]
  congr 1
  funext assignment
  rcases departure storage dt assignment.1 (indexOf assignment.2) with _ | position
  · simp
  rfl

/-- Two ways to find indices lead to the same migrations exactly if they lead to the same
departures. -/
theorem mem_crossings {indexOf : UInt32 → Option Nat}
    {assigned : List (SectorCoord × UInt32)} {migration : SectorMigration} :
    migration ∈ crossings storage dt indexOf assigned ↔
      (migration.oldSector, migration.entityId) ∈ assigned ∧ ∃ position,
          departure storage dt migration.oldSector (indexOf migration.entityId) = some position ∧
          migration = migrationTo migration.oldSector migration.entityId position := by
  rw [crossings, List.mem_filterMap]
  constructor
  · rintro ⟨assignment, here, one⟩
    obtain ⟨position, leaves, rfl⟩ := Option.map_eq_some_iff.mp one
    exact ⟨here, position, leaves, rfl⟩
  rintro ⟨here, position, leaves, same⟩
  refine ⟨_, here, ?_⟩
  rw [leaves, map_some, ← same]

end Paths

namespace SectorWorld

variable (world : SectorWorld)

/-- Every entity is in the sector of its position, and in no other. -/
def Assigned : Prop :=
  ∀ (index : Nat) id position, world.storage.ids[index]? = some id →
    world.storage.positions[index]? = some position →
    Placed world.coordinator.sectors id (SectorCoord.fromPosition position)

def bucketMap (coord : SectorCoord) : Option (Finset UInt32) :=
  (KeyedList.find SectorBucket.coord world.coordinator.sectors coord).map fun bucket =>
    bucket.entityIds.toFinset

/-- The property of a tick: its outcome does not depend on the number of workers, and the
entities are in the sectors of their new positions. -/
structure WorkerIndependent (world : SectorWorld) (dt : Fixed64) : Prop where
  positions : ∀ n m, 1 ≤ n → 1 ≤ m →
    (world.tick dt n).storage.positions = (world.tick dt m).storage.positions
  buckets : ∀ n m, 1 ≤ n → 1 ≤ m → (world.tick dt n).bucketMap = (world.tick dt m).bucketMap
  migrations : ∀ n m, 1 ≤ n → 1 ≤ m →
    (world.tick dt n).coordinator.migrations = (world.tick dt m).coordinator.migrations
  assigned : ∀ n, 1 ≤ n → (world.tick dt n).Assigned

def SameDepartures (dt : Fixed64) : Prop :=
  ∀ sector ∈ world.coordinator.sectors, ∀ id ∈ sector.entityIds,
    departure world.storage dt sector.coord (world.storage.lookupIndex id) =
      departure world.storage dt sector.coord (arithmeticIndex world.storage id)

private def settled (dt : Fixed64) (crossed : List SectorMigration) : SectorWorld where
  storage := world.storage.stepKinematics dt
  coordinator :=
    let migrations := crossed.insertionSort fun left right => left.entityId ≤ right.entityId
    { world.coordinator with
      sectors := migrations.foldl resolveMigration world.coordinator.sectors
      migrations := migrations
      distinct := distinct_foldl_resolveMigration world.coordinator.distinct migrations }

variable {world : SectorWorld} {dt : Fixed64}

private theorem tick_of_sequential (indexed : world.storage.Indexed) (assigned : world.Assigned)
    {n : Nat} (sequential : max n 1 = 1 ∨ world.coordinator.sectors.length ≤ 1) :
    world.tick dt n = world.settled dt (crossings world.storage dt world.storage.lookupIndex
      (assignments world.coordinator.sectors)) := by
  have placed : ∀ (index : Nat) id, world.storage.ids[index]? = some id →
      ∃ coord, Placed world.coordinator.sectors id coord := by
    intro index id held
    have inside := (List.getElem?_eq_some_iff.mp held).1
    rw [← indexed.positions] at inside
    exact ⟨_, assigned index id _ held (List.getElem?_eq_getElem inside)⟩
  rw [tick, SectorParallelCoordinator.stepSimulationParallel]
  simp only [if_pos sequential, stepSequential_eq indexed placed]
  rfl

private theorem tick_of_threaded (indexed : world.storage.Indexed) {n : Nat}
    (threaded : ¬ (max n 1 = 1 ∨ world.coordinator.sectors.length ≤ 1)) :
    world.tick dt n = world.settled dt (crossings world.storage dt
      (arithmeticIndex world.storage) (assignments world.coordinator.sectors)) := by
  have sameLength := indexed.velocities.trans indexed.positions.symm
  have several : 0 < world.coordinator.sectors.length := by
    omega
  have positive : 0 < max n 1 := by
    omega
  rw [tick, SectorParallelCoordinator.stepSimulationParallel]
  simp only [if_neg threaded, stepThreaded_eq dt sameLength several positive]
  rfl

private theorem assigned_settled (indexed : world.storage.Indexed) (assigned : world.Assigned) :
    (world.settled dt (crossings world.storage dt world.storage.lookupIndex
      (assignments world.coordinator.sectors))).Assigned := by
  intro index id position held positionHeld
  change (world.storage.stepKinematics dt).positions[index]? = some position at positionHeld
  have inside : index < world.storage.positions.length := by
    rw [indexed.positions]
    exact (List.getElem?_eq_some_iff.mp held).1
  obtain ⟨before, beforeHeld⟩ : ∃ before, world.storage.positions[index]? = some before :=
    ⟨_, List.getElem?_eq_getElem inside⟩
  have newPosition : position =
      SoaEntityStorage.displace world.storage.velocities dt index before := by
    rw [stepKinematics_eq, updateBelow, getElem?_updateWhere, beforeHeld,
      decide_eq_true inside] at positionHeld
    exact (some.inj positionHeld).symm
  have placed := assigned index id before held beforeHeld
  have found := (indexed.lookup id index).mpr held
  let migrations := (crossings world.storage dt world.storage.lookupIndex
    (assignments world.coordinator.sectors)).insertionSort fun left right =>
      left.entityId ≤ right.entityId
  -- the entity takes part in one migration, if it leaves its sector
  have own : (migrations.filter fun migration => decide (migration.entityId = id)).Perm
      (crossings world.storage dt world.storage.lookupIndex
        [(SectorCoord.fromPosition before, id)]) := by
    rw [← placed, ← filter_crossings]
    exact (List.perm_insertionSort _ _).filter _
  have after := placed_foldl_resolve world.coordinator.distinct migrations placed
  have departing : departure world.storage dt (SectorCoord.fromPosition before)
      (world.storage.lookupIndex id) =
        if SectorCoord.fromPosition position ≠ SectorCoord.fromPosition before then some position
        else none := by
    rw [departure, found, bind_some, beforeHeld, map_some, filter_some, ← newPosition]
    simp only [decide_eq_true_eq]
  rw [crossings, List.filterMap_cons, departing] at own
  by_cases leaves : SectorCoord.fromPosition position ≠ SectorCoord.fromPosition before
  · rw [if_pos leaves] at own
    exact after.2 (migrationTo (SectorCoord.fromPosition before) id position) rfl
      (List.perm_singleton.mp own)
  rw [if_neg leaves] at own
  have stays := after.1 (List.perm_nil.mp own)
  rw [not_not.mp leaves]
  exact stays

/-- The outcome of a tick does not depend on the number of workers exactly if there is one
sector at most or the two ways to find an entity lead to the same departures. -/
theorem workerIndependent_iff (indexed : world.storage.Indexed) (assigned : world.Assigned) :
    world.WorkerIndependent dt ↔
      world.coordinator.sectors.length ≤ 1 ∨ world.SameDepartures dt := by
  have one := @tick_of_sequential world dt indexed assigned
  constructor
  · intro independent
    by_cases few : world.coordinator.sectors.length ≤ 1
    · exact Or.inl few
    refine Or.inr ?_
    have same := independent.migrations 1 2 (Nat.le_refl 1) (by omega)
    rw [one (Or.inl rfl), tick_of_threaded indexed (by omega)] at same
    have members : ∀ migration, migration ∈ crossings world.storage dt world.storage.lookupIndex
            (assignments world.coordinator.sectors) ↔
          migration ∈ crossings world.storage dt (arithmeticIndex world.storage)
            (assignments world.coordinator.sectors) := by
      intro migration
      rw [← (List.perm_insertionSort (fun left right : SectorMigration =>
          left.entityId ≤ right.entityId) _).mem_iff,
        ← (List.perm_insertionSort (fun left right : SectorMigration =>
          left.entityId ≤ right.entityId) (crossings world.storage dt
            (arithmeticIndex world.storage) _)).mem_iff]
      exact iff_of_eq (congrArg (migration ∈ ·) same)
    intro sector here id inside
    have here : (sector.coord, id) ∈ assignments world.coordinator.sectors :=
      mem_assignments.mpr ⟨sector, here, rfl, inside⟩
    apply Option.ext
    intro position
    have member := members (migrationTo sector.coord id position)
    rw [mem_crossings, mem_crossings] at member
    constructor
    · intro leaves
      obtain ⟨_, other, otherLeaves, isSame⟩ := member.mp ⟨here, position, leaves, rfl⟩
      rw [show position = other from congrArg SectorMigration.newPosition isSame]
      exact otherLeaves
    intro leaves
    obtain ⟨_, other, otherLeaves, isSame⟩ := member.mpr ⟨here, position, leaves, rfl⟩
    rw [show position = other from congrArg SectorMigration.newPosition isSame]
    exact otherLeaves
  intro condition
  have always : ∀ n, world.tick dt n = world.settled dt (crossings world.storage dt
      world.storage.lookupIndex (assignments world.coordinator.sectors)) := by
    intro n
    by_cases sequential : max n 1 = 1 ∨ world.coordinator.sectors.length ≤ 1
    · exact one sequential
    rcases condition with few | sameDepartures
    · exact absurd (Or.inr few) sequential
    rw [tick_of_threaded indexed sequential]
    congr 1
    apply List.filterMap_congr
    rintro ⟨coord, id⟩ here
    obtain ⟨sector, sectorHere, rfl, inside⟩ := mem_assignments.mp here
    rw [sameDepartures sector sectorHere id inside]
  refine ⟨?_, ?_, ?_, ?_⟩
  · intro n m _ _
    rw [always n, always m]
  · intro n m _ _
    rw [always n, always m]
  · intro n m _ _
    rw [always n, always m]
  intro n _
  rw [always n]
  exact assigned_settled indexed assigned

end SectorWorld

end Eidolon.World
