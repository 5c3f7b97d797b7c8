import Eidolon.Spatial.Quadtree

/-!
# The spatial hash grid

Entities with their positions, each in the bucket of its cell's key.  The arrays by
entity are one function, which has no value for an entity that is not active, and the
linked list of a bucket is a list, head first.
-/

namespace Eidolon.Spatial

open Core Function Option

structure GridEntity where
  position : Vec3Fix
  cell : CellCoord
  key : UInt64
  deriving DecidableEq

structure SpatialHashGrid where
  maxEntities : Nat
  numBuckets : Nat
  activeCount : Nat
  entities : UInt32 → Option GridEntity
  buckets : Nat → List UInt32
  hotspots : HotspotManager
  inside : ∀ entityId, (entities entityId).isSome → entityId.toNat < maxEntities

namespace SpatialHashGrid

def withCapacity (maxEntities requestedBuckets : Nat) : SpatialHashGrid where
  maxEntities := maxEntities
  numBuckets := max (Nat.nextPowerOfTwo requestedBuckets) 64
  activeCount := 0
  entities := fun _ => none
  buckets := fun _ => []
  hotspots := HotspotManager.new maxEntities 64
  inside := fun _ active => absurd active (by decide)

def new (maxEntities : Nat) : SpatialHashGrid :=
  withCapacity maxEntities (max maxEntities 64 * 2)

variable (grid : SpatialHashGrid) (entityId : UInt32)

def contains : Bool :=
  (grid.entities entityId).isSome

def getPosition : Option Vec3Fix :=
  (grid.entities entityId).map (·.position)

def bucketOf (key : UInt64) : Nat :=
  key.toNat % grid.numBuckets

def attachToBucket (bucket : Nat) :
    SpatialHashGrid :=
  { grid with buckets := Function.update grid.buckets bucket (entityId :: grid.buckets bucket) }

def detachFromBucket (bucket : Nat) :
    SpatialHashGrid :=
  { grid with
    buckets := Function.update grid.buckets bucket ((grid.buckets bucket).erase entityId) }

def setEntity (entity : Option GridEntity) (fits : entityId.toNat < grid.maxEntities) :
    SpatialHashGrid :=
  { grid with
    entities := Function.update grid.entities entityId entity
    inside := by
      intro other active
      by_cases same : other = entityId
      · rw [same]
        exact fits
      rw [update_of_ne same] at active
      exact grid.inside other active }

def insert (grid : SpatialHashGrid) (entityId : UInt32) (position : Vec3Fix) :
    Except SpatialError Unit × SpatialHashGrid :=
  if fits : entityId.toNat < grid.maxEntities then
    if (grid.entities entityId).isSome then
      (.error (.entityAlreadyExists entityId), grid)
    else
      let cell := CellCoord.fromPosition position
      let key := cell.spatialKey
      let entity : GridEntity := { position := position, cell := cell, key := key }
      (.ok (), { (grid.setEntity entityId (some entity) fits).attachToBucket entityId
            (grid.bucketOf key) with
          activeCount := grid.activeCount + 1
          hotspots := (grid.hotspots.insert entityId position).2 })
  else
    (.error (.invalidEntityId entityId), grid)

/-- Moves an active entity; tells whether it has crossed into another cell. -/
def updatePosition (grid : SpatialHashGrid) (entityId : UInt32) (newPosition : Vec3Fix) :
    Except SpatialError Bool × SpatialHashGrid :=
  match found : grid.entities entityId with
  | none => (.error (.entityNotFound entityId), grid)
  | some entity =>
    have fits : entityId.toNat < grid.maxEntities :=
      grid.inside entityId (by rw [found]; rfl)
    let newCell := CellCoord.fromPosition newPosition
    let hotspots := (grid.hotspots.updatePosition entityId newPosition).2
    if newCell = entity.cell then
      (.ok false,
        { grid.setEntity entityId (some { entity with position := newPosition }) fits with
          hotspots := hotspots })
    else
      let newKey := newCell.spatialKey
      let moved : GridEntity := { position := newPosition, cell := newCell, key := newKey }
      (.ok true, { ((grid.setEntity entityId (some moved) fits).detachFromBucket entityId
            (grid.bucketOf entity.key)).attachToBucket entityId (grid.bucketOf newKey) with
          hotspots := hotspots })

def remove (grid : SpatialHashGrid) (entityId : UInt32) :
    Except SpatialError Unit × SpatialHashGrid :=
  match found : grid.entities entityId with
  | none => (.error (.entityNotFound entityId), grid)
  | some entity =>
    have fits : entityId.toNat < grid.maxEntities :=
      grid.inside entityId (by rw [found]; rfl)
    (.ok (), { (grid.setEntity entityId none fits).detachFromBucket entityId
          (grid.bucketOf entity.key) with
        activeCount := grid.activeCount - 1
        hotspots := (grid.hotspots.remove entityId).2 })

variable {grid : SpatialHashGrid} {entityId : UInt32}

theorem getPosition_eq_none_iff :
    grid.getPosition entityId = none ↔ grid.entities entityId = none :=
  map_eq_none_iff

theorem insert_ok_iff {grid : SpatialHashGrid} {entityId : UInt32} {position : Vec3Fix} :
    (grid.insert entityId position).1 = .ok () ↔
      entityId.toNat < grid.maxEntities ∧ grid.getPosition entityId = none := by
  rw [insert, getPosition_eq_none_iff, ← not_isSome_iff_eq_none]
  by_cases fits : entityId.toNat < grid.maxEntities
  · rw [dif_pos fits]
    by_cases active : (grid.entities entityId).isSome
    · simp [active]
    simp [active, fits]
  simp [fits]

variable {position : Vec3Fix}

theorem insert_of_error (failed : (grid.insert entityId position).1 ≠ .ok ()) :
    (grid.insert entityId position).2 = grid := by
  rw [insert] at failed ⊢
  by_cases fits : entityId.toNat < grid.maxEntities
  · rw [dif_pos fits] at failed ⊢
    by_cases active : (grid.entities entityId).isSome
    · rw [if_pos active]
    rw [if_neg active] at failed
    exact absurd rfl failed
  rw [dif_neg fits]

theorem getPosition_insert (done : (grid.insert entityId position).1 = .ok ()) (other : UInt32) :
    (grid.insert entityId position).2.getPosition other =
      if other = entityId then some position else grid.getPosition other := by
  obtain ⟨fits, free⟩ := insert_ok_iff.mp done
  rw [getPosition_eq_none_iff] at free
  have notActive : ¬ (grid.entities entityId).isSome := by
    rw [free]
    decide
  rw [insert, dif_pos fits, if_neg notActive]
  simp only [getPosition, attachToBucket, setEntity]
  by_cases same : other = entityId
  · rw [same, update_self, if_pos rfl]
    rfl
  rw [update_of_ne same, if_neg same]

@[simp]
theorem maxEntities_insert (grid : SpatialHashGrid) (entityId : UInt32) (position : Vec3Fix) :
    (grid.insert entityId position).2.maxEntities = grid.maxEntities := by
  rw [insert]
  split
  · split <;> rfl
  rfl

theorem updatePosition_of_none (missing : grid.getPosition entityId = none) (newPosition : Vec3Fix) :
    grid.updatePosition entityId newPosition = (.error (.entityNotFound entityId), grid) := by
  rw [getPosition_eq_none_iff] at missing
  rw [updatePosition]
  split
  · rfl
  rename_i found
  rw [missing] at found
  cases found

theorem updatePosition_of_some (held : grid.getPosition entityId = some position)
    (newPosition : Vec3Fix) :
    (∃ crossed, (grid.updatePosition entityId newPosition).1 = .ok crossed) ∧
      (∀ other, (grid.updatePosition entityId newPosition).2.getPosition other =
        if other = entityId then some newPosition else grid.getPosition other) ∧
      (grid.updatePosition entityId newPosition).2.maxEntities = grid.maxEntities := by
  rw [updatePosition]
  split
  · rename_i missing
    rw [getPosition, missing] at held
    cases held
  have moved : ∀ (changed : GridEntity), changed.position = newPosition → ∀ other,
      ((Function.update grid.entities entityId (some changed)) other).map (·.position) =
        if other = entityId then some newPosition
        else (grid.entities other).map (·.position) := by
    intro changed positionIs other
    by_cases same : other = entityId
    · rw [same, update_self, if_pos rfl, map_some, positionIs]
    rw [update_of_ne same, if_neg same]
  simp only
  split
  · exact ⟨⟨false, rfl⟩, moved _ rfl, rfl⟩
  exact ⟨⟨true, rfl⟩, moved _ rfl, rfl⟩

theorem remove_of_none (missing : grid.getPosition entityId = none) :
    grid.remove entityId = (.error (.entityNotFound entityId), grid) := by
  rw [getPosition_eq_none_iff] at missing
  rw [remove]
  split
  · rfl
  rename_i found
  rw [missing] at found
  cases found

theorem remove_of_some (held : grid.getPosition entityId = some position) :
    (grid.remove entityId).1 = .ok () ∧ (∀ other, (grid.remove entityId).2.getPosition other =
        if other = entityId then none else grid.getPosition other) ∧
      (grid.remove entityId).2.maxEntities = grid.maxEntities := by
  rw [remove]
  split
  · rename_i missing
    rw [getPosition, missing] at held
    cases held
  refine ⟨rfl, ?_, rfl⟩
  intro other
  simp only [getPosition, detachFromBucket, setEntity]
  by_cases same : other = entityId
  · rw [same, update_self, if_pos rfl]
    rfl
  rw [update_of_ne same, if_neg same]

theorem lt_of_getPosition (held : grid.getPosition entityId = some position) :
    entityId.toNat < grid.maxEntities := by
  apply grid.inside
  rw [getPosition, map_eq_some_iff] at held
  obtain ⟨entity, found, -⟩ := held
  rw [found]
  rfl

end SpatialHashGrid

end Eidolon.Spatial
