import Eidolon.Library.KeyedList
import Eidolon.Spatial.Grid
import Eidolon.World.Error

/-!
# Zones

Zones with a grid each, and the movement of an entity within a zone or across the seam to
its neighbor.
-/

namespace Eidolon.World

open Core Library Spatial

inductive SeamAxis where
  | eastWest
  | northSouth
  deriving DecidableEq

structure ZoneBounds where
  minX : Fixed64
  maxX : Fixed64
  minZ : Fixed64
  maxZ : Fixed64
  seamAxis : SeamAxis
  seamMin : Fixed64
  seamMax : Fixed64
  deriving DecidableEq

namespace ZoneBounds

variable (bounds : ZoneBounds)

def inSeam (pos : Vec3Fix) : Bool :=
  match bounds.seamAxis with
  | .eastWest => decide (bounds.seamMin ≤ pos.x) && decide (pos.x ≤ bounds.seamMax)
  | .northSouth => decide (bounds.seamMin ≤ pos.z) && decide (pos.z ≤ bounds.seamMax)

def seamMidpoint : Fixed64 :=
  Fixed64.fromRaw (Int64.ofInt ((bounds.seamMin.raw + bounds.seamMax.raw).toInt / 2))

def isPastMidpoint (pos : Vec3Fix) (towardsPositive : Bool) : Bool :=
  let mid := bounds.seamMidpoint
  let coord :=
    match bounds.seamAxis with
    | .eastWest => pos.x
    | .northSouth => pos.z
  if towardsPositive then decide (mid ≤ coord) else decide (coord ≤ mid)

end ZoneBounds

structure MigrationTicket where
  entityId : UInt32
  fromZone : ZoneId
  toZone : ZoneId
  position : Vec3Fix
  inSeam : Bool
  deriving DecidableEq

structure WorldZone where
  id : ZoneId
  bounds : ZoneBounds
  neighborZone : Option ZoneId
  neighborIsPositive : Bool
  spatialGrid : SpatialHashGrid

namespace WorldZone

def new (id : ZoneId) (bounds : ZoneBounds) (neighborZone : Option ZoneId)
    (neighborIsPositive : Bool) (maxEntities : Nat) : WorldZone where
  id := id
  bounds := bounds
  neighborZone := neighborZone
  neighborIsPositive := neighborIsPositive
  spatialGrid := SpatialHashGrid.new maxEntities

variable (zone : WorldZone) (entityId : UInt32) (pos : Vec3Fix)

def insertEntity : Except WorldError Unit × WorldZone :=
  match zone.spatialGrid.insert entityId pos with
  | (.ok (), grid) => (.ok (), { zone with spatialGrid := grid })
  | (.error (.entityAlreadyExists id), grid) =>
    (.error (.entityAlreadyExists id), { zone with spatialGrid := grid })
  | (.error _, grid) => (.error (.zoneFull zone.id), { zone with spatialGrid := grid })

def removeEntity : Except WorldError Unit × WorldZone :=
  match zone.spatialGrid.remove entityId with
  | (.ok (), grid) => (.ok (), { zone with spatialGrid := grid })
  | (.error _, grid) => (.error (.entityNotFound entityId), { zone with spatialGrid := grid })

def updatePosition (zone : WorldZone) (entityId : UInt32) (pos : Vec3Fix) :
    Except WorldError Bool × WorldZone :=
  match zone.spatialGrid.updatePosition entityId pos with
  | (.ok crossed, grid) => (.ok crossed, { zone with spatialGrid := grid })
  | (.error _, grid) => (.error (.entityNotFound entityId), { zone with spatialGrid := grid })

def entityPosition : Option Vec3Fix :=
  zone.spatialGrid.getPosition entityId

theorem id_insertEntity : (zone.insertEntity entityId pos).2.id = zone.id := by
  rw [insertEntity]
  split
  · rfl
  · rfl
  rfl

theorem insertEntity_ok_iff {zone : WorldZone} {entityId : UInt32} {pos : Vec3Fix} :
    (zone.insertEntity entityId pos).1 = .ok () ↔
      (zone.spatialGrid.insert entityId pos).1 = .ok () := by
  rw [insertEntity]
  split
  · rename_i inserted
    rw [inserted]
    simp
  · rename_i inserted
    rw [inserted]
    simp
  rename_i inserted
  rw [inserted]
  simp

theorem spatialGrid_insertEntity :
    (zone.insertEntity entityId pos).2.spatialGrid = (zone.spatialGrid.insert entityId pos).2 := by
  rw [insertEntity]
  split
  · rename_i inserted
    rw [inserted]
  · rename_i inserted
    rw [inserted]
  rename_i inserted
  rw [inserted]

variable {zone : WorldZone} {entityId : UInt32} {pos : Vec3Fix}

theorem entityPosition_insertEntity (done : (zone.insertEntity entityId pos).1 = .ok ())
    (other : UInt32) :
    (zone.insertEntity entityId pos).2.entityPosition other =
      if other = entityId then some pos else zone.entityPosition other := by
  rw [entityPosition, spatialGrid_insertEntity]
  exact SpatialHashGrid.getPosition_insert (insertEntity_ok_iff.mp done) other

theorem entityPosition_insertEntity_of_error
    (failed : (zone.insertEntity entityId pos).1 ≠ .ok ()) (other : UInt32) :
    (zone.insertEntity entityId pos).2.entityPosition other = zone.entityPosition other := by
  rw [entityPosition, spatialGrid_insertEntity,
    SpatialHashGrid.insert_of_error fun done => failed (insertEntity_ok_iff.mpr done)]
  rfl

structure RemovedFrom (zone : WorldZone) (entityId : UInt32) (removed : WorldZone) : Prop where
  id : removed.id = zone.id
  position : ∀ other, removed.entityPosition other =
    if other = entityId then none else zone.entityPosition other
  takesBack : ∀ pos, (removed.insertEntity entityId pos).1 = .ok ()

theorem removeEntity_of_held (held : zone.entityPosition entityId = some pos) :
    ∃ removed, zone.removeEntity entityId = (.ok (), removed) ∧
      RemovedFrom zone entityId removed := by
  have spec := SpatialHashGrid.remove_of_some held
  rcases outcome : zone.spatialGrid.remove entityId with ⟨result, grid⟩
  rw [outcome] at spec
  obtain ⟨done, positions, capacity⟩ := spec
  simp only at done positions capacity
  refine ⟨{ zone with spatialGrid := grid }, ?_, ⟨rfl, positions, ?_⟩⟩
  · rw [removeEntity, outcome, done]
  intro newPos
  rw [insertEntity_ok_iff, SpatialHashGrid.insert_ok_iff]
  rw [capacity, positions entityId, if_pos rfl]
  exact ⟨SpatialHashGrid.lt_of_getPosition held, rfl⟩

theorem updatePosition_of_held (held : zone.entityPosition entityId = some pos) (newPos : Vec3Fix) :
    ∃ crossed updated, zone.updatePosition entityId newPos = (.ok crossed, updated) ∧
      updated.id = zone.id ∧
      ∀ other, updated.entityPosition other =
        if other = entityId then some newPos else zone.entityPosition other := by
  have spec := SpatialHashGrid.updatePosition_of_some held newPos
  rcases outcome : zone.spatialGrid.updatePosition entityId newPos with ⟨result, grid⟩
  rw [outcome] at spec
  obtain ⟨⟨crossed, done⟩, positions, capacity⟩ := spec
  simp only at done positions
  refine ⟨crossed, { zone with spatialGrid := grid }, ?_, rfl, positions⟩
  rw [updatePosition, outcome, done]

end WorldZone

structure WorldManager where
  zones : List WorldZone

namespace WorldManager

variable (world : WorldManager)

def getZone (id : ZoneId) : Option WorldZone :=
  KeyedList.find WorldZone.id world.zones id

def setZone (id : ZoneId) (changed : WorldZone) : WorldManager where
  zones := KeyedList.replace WorldZone.id world.zones id changed

def restoreEntity (zoneId : ZoneId) (entityId : UInt32) (prevPos : Vec3Fix) : WorldManager :=
  match world.getZone zoneId with
  | some sourceZone => world.setZone zoneId (sourceZone.insertEntity entityId prevPos).2
  | none => world

/-- The migration of an entity to the neighbor, rolled back when it fails. -/
def migrateEntity (entityId : UInt32) (currentZoneId toZoneId : ZoneId) (newPos : Vec3Fix)
    (inSeam : Bool) :
    Except WorldError (Option MigrationTicket) × WorldManager :=
  match world.getZone currentZoneId with
  | none => (.error (.zoneNotFound currentZoneId), world)
  | some currentZone =>
    match currentZone.entityPosition entityId with
    | none => (.error (.entityNotFound entityId), world)
    | some prevPos =>
      match currentZone.removeEntity entityId with
      | (.error error, removed) => (.error error, world.setZone currentZoneId removed)
      | (.ok (), removed) =>
        let world := world.setZone currentZoneId removed
        match world.getZone toZoneId with
        | none =>
          (.error (.zoneNotFound toZoneId), world.restoreEntity currentZoneId entityId prevPos)
        | some targetZone =>
          match targetZone.insertEntity entityId newPos with
          | (.error error, target) =>
            (.error error, (world.setZone toZoneId target).restoreEntity currentZoneId entityId
                prevPos)
          | (.ok (), target) =>
            (.ok (some
              { entityId := entityId
                fromZone := currentZoneId
                toZone := toZoneId
                position := newPos
                inSeam := inSeam }),
              world.setZone toZoneId target)

def tickEntityMovement (entityId : UInt32) (currentZoneId : ZoneId) (newPos : Vec3Fix) :
    Except WorldError (Option MigrationTicket) × WorldManager :=
  match world.getZone currentZoneId with
  | none => (.error (.zoneNotFound currentZoneId), world)
  | some currentZone =>
    let inSeam := currentZone.bounds.inSeam newPos
    let neighborId := currentZone.neighborZone.filter fun _ =>
      inSeam && currentZone.bounds.isPastMidpoint newPos currentZone.neighborIsPositive
    match neighborId with
    | some toZoneId => world.migrateEntity entityId currentZoneId toZoneId newPos inSeam
    | none =>
      match currentZone.updatePosition entityId newPos with
      | (.error error, updated) => (.error error, world.setZone currentZoneId updated)
      | (.ok _, updated) =>
        let ticket : Option MigrationTicket :=
          if inSeam then
            some
              { entityId := entityId
                fromZone := currentZoneId
                toZone := currentZoneId
                position := newPos
                inSeam := true }
          else
            none
        (.ok ticket, world.setZone currentZoneId updated)

end WorldManager

end Eidolon.World
