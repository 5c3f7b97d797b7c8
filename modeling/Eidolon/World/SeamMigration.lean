import Eidolon.Core.FixedOrder
import Eidolon.World.ZoneMembership

/-!
# Migration across a seam

Two zones that share a seam and point at each other decide on their own whether an entity
goes to the other one.  Both take the midpoint of the seam for the other's side, so that an
entity there goes back and forth, and both stop at the edges of the seam, so that one
behind the far edge stays.  Between the midpoint and the far edge they agree.
-/

namespace Eidolon.World

open Core Library Option Spatial

namespace ZoneBounds

def seamCoord (bounds : ZoneBounds) (pos : Vec3Fix) : Fixed64 :=
  match bounds.seamAxis with
  | .eastWest => pos.x
  | .northSouth => pos.z

/-- On the far side of the midpoint, whether in the seam or behind its far edge. -/
def Beyond (bounds : ZoneBounds) (pos : Vec3Fix) (towardsPositive : Bool) : Prop :=
  if towardsPositive then bounds.seamMidpoint < bounds.seamCoord pos
  else bounds.seamCoord pos < bounds.seamMidpoint

theorem isPastMidpoint_iff {bounds : ZoneBounds} {pos : Vec3Fix} {towardsPositive : Bool} :
    bounds.isPastMidpoint pos towardsPositive = true ↔
      bounds.Beyond pos towardsPositive ∨ bounds.seamCoord pos = bounds.seamMidpoint := by
  have same : ∀ coord mid : Fixed64, coord = mid ↔ coord.raw.toInt = mid.raw.toInt := by
    intro coord mid
    constructor
    · intro equal
      rw [equal]
    intro equal
    exact congrArg Fixed64.mk (Int64.toInt_inj.mp equal)
  have unfolded : bounds.isPastMidpoint pos towardsPositive =
      if towardsPositive then decide (bounds.seamMidpoint ≤ bounds.seamCoord pos)
      else decide (bounds.seamCoord pos ≤ bounds.seamMidpoint) := rfl
  rw [unfolded, Beyond, same]
  rcases towardsPositive with _ | _
  · simp only [Bool.false_eq_true, if_false, decide_eq_true_eq, Fixed64.le_iff, Fixed64.lt_iff]
    omega
  simp only [if_true, decide_eq_true_eq, Fixed64.le_iff, Fixed64.lt_iff]
  omega

theorem not_beyond_midpoint {bounds : ZoneBounds} {pos : Vec3Fix} {towardsPositive : Bool}
    (atMidpoint : bounds.seamCoord pos = bounds.seamMidpoint) :
    ¬ bounds.Beyond pos towardsPositive := by
  rw [Beyond, atMidpoint]
  simp

theorem not_beyond_opposite {bounds : ZoneBounds} {pos : Vec3Fix} {towardsPositive : Bool}
    (beyond : bounds.Beyond pos towardsPositive) : ¬ bounds.Beyond pos (!towardsPositive) := by
  rw [Beyond] at beyond ⊢
  rcases towardsPositive with _ | _
  · simp only [Bool.not_false, Bool.false_eq_true, if_false, if_true, Fixed64.lt_iff] at beyond ⊢
    omega
  simp only [Bool.not_true, Bool.false_eq_true, if_false, if_true, Fixed64.lt_iff] at beyond ⊢
  omega

end ZoneBounds

namespace WorldZone

theorem insertEntity_eq (zone : WorldZone) (entityId : UInt32) (pos : Vec3Fix) :
    (zone.insertEntity entityId pos).2 =
      { zone with spatialGrid := (zone.spatialGrid.insert entityId pos).2 } := by
  rw [insertEntity]
  split
  · next inserted => rw [inserted]
  · next inserted => rw [inserted]
  next inserted => rw [inserted]

theorem removeEntity_eq (zone : WorldZone) (entityId : UInt32) : (zone.removeEntity entityId).2 =
      { zone with spatialGrid := (zone.spatialGrid.remove entityId).2 } := by
  rw [removeEntity]
  split
  · next removed => rw [removed]
  next removed => rw [removed]

end WorldZone

namespace WorldManager

/-- Two zones of a world that share a seam and point at each other, in opposite directions. -/
structure Neighbors (world : WorldManager) (first second : WorldZone) : Prop where
  firstHere : world.getZone first.id = some first
  secondHere : world.getZone second.id = some second
  seamAxis : second.bounds.seamAxis = first.bounds.seamAxis
  seamMin : second.bounds.seamMin = first.bounds.seamMin
  seamMax : second.bounds.seamMax = first.bounds.seamMax
  firstNeighbor : first.neighborZone = some second.id
  secondNeighbor : second.neighborZone = some first.id
  opposite : second.neighborIsPositive = !first.neighborIsPositive

structure Migrates (world : WorldManager) (entityId : UInt32) (source target : ZoneId)
    (pos : Vec3Fix) : Prop where
  ticket : ∃ ticket, (world.tickEntityMovement entityId source pos).1 = .ok (some ticket) ∧
    ticket.fromZone = source ∧ ticket.toZone = target
  arrived : (world.tickEntityMovement entityId source pos).2.positionAt target entityId = some pos
  left : (world.tickEntityMovement entityId source pos).2.positionAt source entityId = none

/-- The first zone has the entity and the second one can take it. -/
def Movable (entityId : UInt32) (first second : WorldZone) : Prop :=
  (first.entityPosition entityId).isSome ∧
    entityId.toNat < second.spatialGrid.maxEntities ∧ second.entityPosition entityId = none

/-- Once migrated at a position, an entity that is ticked again there does not go back. -/
def Stable (world : WorldManager) (entityId : UInt32) (first second : WorldZone)
    (pos : Vec3Fix) : Prop :=
  world.Migrates entityId first.id second.id pos →
    ¬ (world.tickEntityMovement entityId first.id pos).2.Migrates entityId second.id first.id pos

/-- An entity beyond the midpoint is migrated. -/
def Complete (world : WorldManager) (entityId : UInt32) (first second : WorldZone)
    (pos : Vec3Fix) : Prop :=
  first.bounds.Beyond pos first.neighborIsPositive → world.Migrates entityId first.id second.id pos

variable {world : WorldManager} {first second : WorldZone}

theorem Neighbors.symm (neighbors : world.Neighbors first second) :
    world.Neighbors second first where
  firstHere := neighbors.secondHere
  secondHere := neighbors.firstHere
  seamAxis := neighbors.seamAxis.symm
  seamMin := neighbors.seamMin.symm
  seamMax := neighbors.seamMax.symm
  firstNeighbor := neighbors.secondNeighbor
  secondNeighbor := neighbors.firstNeighbor
  opposite := by
    rw [neighbors.opposite, Bool.not_not]

section

variable (neighbors : world.Neighbors first second)
include neighbors

theorem Neighbors.apart : second.id ≠ first.id := by
  intro same
  have here := neighbors.firstHere
  rw [← same, neighbors.secondHere] at here
  cases here
  exact absurd neighbors.opposite (by simp)

theorem Neighbors.inSeam_eq (pos : Vec3Fix) :
    second.bounds.inSeam pos = first.bounds.inSeam pos := by
  rw [ZoneBounds.inSeam, ZoneBounds.inSeam, neighbors.seamAxis, neighbors.seamMin,
    neighbors.seamMax]

theorem Neighbors.seamCoord_eq (pos : Vec3Fix) :
    second.bounds.seamCoord pos = first.bounds.seamCoord pos := by
  rw [ZoneBounds.seamCoord, ZoneBounds.seamCoord, neighbors.seamAxis]

theorem Neighbors.seamMidpoint_eq : second.bounds.seamMidpoint = first.bounds.seamMidpoint := by
  rw [ZoneBounds.seamMidpoint, ZoneBounds.seamMidpoint, neighbors.seamMin, neighbors.seamMax]

end

def migrated (world : WorldManager) (entityId : UInt32) (first second : WorldZone)
    (pos : Vec3Fix) : WorldManager :=
  (world.setZone first.id (first.removeEntity entityId).2).setZone second.id
    (second.insertEntity entityId pos).2

variable {entityId : UInt32}

theorem getZone_migrated (neighbors : world.Neighbors first second)
    (held : (first.entityPosition entityId).isSome) (pos : Vec3Fix) :
    (world.migrated entityId first second pos).getZone first.id =
        some (first.removeEntity entityId).2 ∧
      (world.migrated entityId first second pos).getZone second.id =
        some (second.insertEntity entityId pos).2 := by
  obtain ⟨prevPos, heldAt⟩ := Option.isSome_iff_exists.mp held
  obtain ⟨removed, removes, gone⟩ := WorldZone.removeEntity_of_held heldAt
  have sourceId : (first.removeEntity entityId).2.id = first.id := by
    rw [removes]
    exact gone.id
  have secondStill : (world.setZone first.id (first.removeEntity entityId).2).getZone second.id =
      some second := by
    rw [getZone_setZone neighbors.firstHere sourceId, if_neg neighbors.apart, neighbors.secondHere]
  have targetId := second.id_insertEntity entityId pos
  rw [migrated]
  constructor
  · rw [getZone_setZone secondStill targetId, if_neg neighbors.apart.symm,
      getZone_setZone neighbors.firstHere sourceId, if_pos rfl]
  rw [getZone_setZone secondStill targetId, if_pos rfl]

variable {pos : Vec3Fix}

theorem tickEntityMovement_movable (neighbors : world.Neighbors first second)
    (crossed : (first.bounds.inSeam pos &&
      first.bounds.isPastMidpoint pos first.neighborIsPositive) = true)
    (movable : Movable entityId first second) :
    world.tickEntityMovement entityId first.id pos = (.ok (some
        { entityId := entityId
          fromZone := first.id
          toZone := second.id
          position := pos
          inSeam := first.bounds.inSeam pos }),
        world.migrated entityId first second pos) := by
  obtain ⟨held, accepted⟩ := movable
  obtain ⟨prevPos, heldAt⟩ := Option.isSome_iff_exists.mp held
  obtain ⟨removed, removes, gone⟩ := WorldZone.removeEntity_of_held heldAt
  have secondStill : (world.setZone first.id removed).getZone second.id = some second := by
    rw [getZone_setZone neighbors.firstHere gone.id, if_neg neighbors.apart, neighbors.secondHere]
  have inserts : (second.insertEntity entityId pos).1 = .ok () := by
    rw [WorldZone.insertEntity_ok_iff, SpatialHashGrid.insert_ok_iff]
    exact accepted
  rw [tickEntityMovement, neighbors.firstHere]
  simp only [neighbors.firstNeighbor, filter_some, crossed, if_true]
  rw [migrateEntity, neighbors.firstHere]
  simp only
  rw [heldAt]
  rw [removes]
  simp only
  rw [secondStill]
  simp only
  rw [migrated, removes]
  rcases outcome : second.insertEntity entityId pos with ⟨result, receiving⟩
  rw [outcome] at inserts
  subst inserts
  rfl

theorem tickEntityMovement_not_movable (neighbors : world.Neighbors first second)
    (crossed : (first.bounds.inSeam pos &&
      first.bounds.isPastMidpoint pos first.neighborIsPositive) = true)
    (blocked : ¬ Movable entityId first second) :
    ∃ error, (world.tickEntityMovement entityId first.id pos).1 = .error error := by
  rw [tickEntityMovement, neighbors.firstHere]
  simp only [neighbors.firstNeighbor, filter_some, crossed, if_true]
  rw [migrateEntity, neighbors.firstHere]
  simp only
  rcases heldAt : first.entityPosition entityId with _ | prevPos
  · exact ⟨_, rfl⟩
  obtain ⟨removed, removes, gone⟩ := WorldZone.removeEntity_of_held heldAt
  have secondStill : (world.setZone first.id removed).getZone second.id = some second := by
    rw [getZone_setZone neighbors.firstHere gone.id, if_neg neighbors.apart, neighbors.secondHere]
  rw [removes]
  simp only
  rw [secondStill]
  simp only
  have refused : (second.insertEntity entityId pos).1 ≠ .ok () := by
    rw [Ne, WorldZone.insertEntity_ok_iff, SpatialHashGrid.insert_ok_iff]
    intro accepted
    exact blocked ⟨by rw [heldAt]; rfl, accepted⟩
  rcases outcome : second.insertEntity entityId pos with ⟨result, receiving⟩
  rw [outcome] at refused
  cases result with
  | ok _ => exact absurd rfl refused
  | error error => exact ⟨error, rfl⟩

theorem toZone_tickEntityMovement (here : world.getZone first.id = some first)
    (stays : (first.bounds.inSeam pos &&
      first.bounds.isPastMidpoint pos first.neighborIsPositive) = false)
    {ticket : MigrationTicket}
    (reported : (world.tickEntityMovement entityId first.id pos).1 = .ok (some ticket)) :
    ticket.toZone = first.id := by
  have noNeighbor : (first.neighborZone.filter fun _ => first.bounds.inSeam pos &&
      first.bounds.isPastMidpoint pos first.neighborIsPositive) = none := by
    rw [stays, filter_eq_none_iff]
    intro neighbor _
    exact Bool.false_ne_true
  rw [tickEntityMovement, here] at reported
  simp only [noNeighbor] at reported
  rcases outcome : first.updatePosition entityId pos with ⟨result, updated⟩
  rw [outcome] at reported
  rcases result with error | crossed
  · cases reported
  simp only at reported
  split at reported
  · cases reported
    rfl
  cases reported

/-- A tick migrates if and only if the position is in the seam and not before its midpoint,
the source has the entity and the target can take it. -/
theorem migrates_iff {world : WorldManager} {first second : WorldZone}
    (neighbors : world.Neighbors first second) {entityId : UInt32} {pos : Vec3Fix} :
    world.Migrates entityId first.id second.id pos ↔ (first.bounds.inSeam pos &&
          first.bounds.isPastMidpoint pos first.neighborIsPositive) = true ∧
        Movable entityId first second := by
  constructor
  · intro migrates
    obtain ⟨ticket, reported, -, target⟩ := migrates.ticket
    by_cases crossed : (first.bounds.inSeam pos &&
        first.bounds.isPastMidpoint pos first.neighborIsPositive) = true
    · refine ⟨crossed, ?_⟩
      by_contra blocked
      obtain ⟨error, failed⟩ := tickEntityMovement_not_movable neighbors crossed blocked
      rw [failed] at reported
      cases reported
    rw [Bool.not_eq_true] at crossed
    have same := toZone_tickEntityMovement neighbors.firstHere crossed reported
    exact absurd (target.symm.trans same) neighbors.apart
  rintro ⟨crossed, movable⟩
  have ticked := tickEntityMovement_movable neighbors crossed movable
  obtain ⟨sourceHere, targetHere⟩ := getZone_migrated neighbors movable.1 pos
  obtain ⟨prevPos, heldAt⟩ := Option.isSome_iff_exists.mp movable.1
  obtain ⟨removed, removes, gone⟩ := WorldZone.removeEntity_of_held heldAt
  have inserts : (second.insertEntity entityId pos).1 = .ok () := by
    rw [WorldZone.insertEntity_ok_iff, SpatialHashGrid.insert_ok_iff]
    exact movable.2
  refine ⟨⟨_, by rw [ticked], rfl, rfl⟩, ?_, ?_⟩
  · rw [ticked]
    rw [positionAt_of_getZone targetHere, WorldZone.entityPosition_insertEntity inserts, if_pos rfl]
  rw [ticked]
  rw [positionAt_of_getZone sourceHere, removes, gone.position, if_pos rfl]

/-- The zones stay neighbors when an entity goes from one to the other, and it could go
back. -/
theorem neighbors_migrated {world : WorldManager} {first second : WorldZone}
    (neighbors : world.Neighbors first second) {entityId : UInt32} {pos : Vec3Fix}
    (movable : Movable entityId first second) :
    (world.migrated entityId first second pos).Neighbors (second.insertEntity entityId pos).2
        (first.removeEntity entityId).2 ∧
      Movable entityId (second.insertEntity entityId pos).2 (first.removeEntity entityId).2 := by
  obtain ⟨sourceHere, targetHere⟩ := getZone_migrated neighbors movable.1 pos
  obtain ⟨prevPos, heldAt⟩ := Option.isSome_iff_exists.mp movable.1
  obtain ⟨removed, removes, gone⟩ := WorldZone.removeEntity_of_held heldAt
  have inserts : (second.insertEntity entityId pos).1 = .ok () := by
    rw [WorldZone.insertEntity_ok_iff, SpatialHashGrid.insert_ok_iff]
    exact movable.2
  have taken := gone.takesBack pos
  rw [WorldZone.insertEntity_ok_iff, SpatialHashGrid.insert_ok_iff] at taken
  constructor
  · rw [WorldZone.insertEntity_eq, WorldZone.removeEntity_eq] at *
    exact
      { firstHere := targetHere
        secondHere := sourceHere
        seamAxis := neighbors.seamAxis.symm
        seamMin := neighbors.seamMin.symm
        seamMax := neighbors.seamMax.symm
        firstNeighbor := neighbors.secondNeighbor
        secondNeighbor := neighbors.firstNeighbor
        opposite := neighbors.symm.opposite }
  refine ⟨?_, ?_⟩
  · rw [WorldZone.entityPosition_insertEntity inserts, if_pos rfl]
    rfl
  rw [removes]
  exact taken

section

variable (neighbors : world.Neighbors first second)
include neighbors

theorem migratesBack_iff (crossed : (first.bounds.inSeam pos &&
      first.bounds.isPastMidpoint pos first.neighborIsPositive) = true)
    (movable : Movable entityId first second) :
    (world.tickEntityMovement entityId first.id pos).2.Migrates entityId second.id first.id pos ↔
      first.bounds.seamCoord pos = first.bounds.seamMidpoint := by
  obtain ⟨still, movableBack⟩ := @neighbors_migrated _ _ _ neighbors entityId pos movable
  rw [WorldZone.insertEntity_eq, WorldZone.removeEntity_eq] at still movableBack
  have again := @migrates_iff _ _ _ still entityId pos
  have inSeam := (Bool.and_eq_true_iff.mp crossed).1
  have past := ZoneBounds.isPastMidpoint_iff.mp (Bool.and_eq_true_iff.mp crossed).2
  have pastBack := @ZoneBounds.isPastMidpoint_iff second.bounds pos second.neighborIsPositive
  rw [neighbors.seamCoord_eq, neighbors.seamMidpoint_eq] at pastBack
  rw [tickEntityMovement_movable neighbors crossed movable]
  refine again.trans ?_
  simp only [neighbors.inSeam_eq, inSeam, Bool.true_and]
  rw [and_iff_left movableBack, pastBack]
  constructor
  · intro either
    refine either.resolve_left ?_
    intro beyondBack
    have opposite : first.bounds.Beyond pos (!first.neighborIsPositive) := by
      rw [← neighbors.opposite, ZoneBounds.Beyond, ← neighbors.seamCoord_eq,
        ← neighbors.seamMidpoint_eq]
      exact beyondBack
    rcases past with beyond | atMidpoint
    · exact ZoneBounds.not_beyond_opposite beyond opposite
    exact ZoneBounds.not_beyond_midpoint atMidpoint opposite
  exact Or.inr

theorem stable_iff : world.Stable entityId first second pos ↔
      (first.bounds.seamCoord pos = first.bounds.seamMidpoint →
        ¬ (first.bounds.inSeam pos = true ∧ Movable entityId first second)) := by
  constructor
  · rintro stable atMidpoint ⟨inSeam, movable⟩
    have crossed : (first.bounds.inSeam pos &&
        first.bounds.isPastMidpoint pos first.neighborIsPositive) = true := by
      rw [inSeam]
      exact ZoneBounds.isPastMidpoint_iff.mpr (Or.inr atMidpoint)
    exact stable ((migrates_iff neighbors).mpr ⟨crossed, movable⟩)
      ((migratesBack_iff neighbors crossed movable).mpr atMidpoint)
  intro apart migrates back
  obtain ⟨crossed, movable⟩ := (migrates_iff neighbors).mp migrates
  have atMidpoint := (migratesBack_iff neighbors crossed movable).mp back
  exact apart atMidpoint ⟨(Bool.and_eq_true_iff.mp crossed).1, movable⟩

theorem complete_iff :
    world.Complete entityId first second pos ↔ (first.bounds.Beyond pos first.neighborIsPositive →
        first.bounds.inSeam pos = true ∧ Movable entityId first second) := by
  apply forall_congr'
  intro beyond
  rw [migrates_iff neighbors, Bool.and_eq_true,
    and_iff_left (ZoneBounds.isPastMidpoint_iff.mpr (Or.inl beyond))]

end

/-- For every pair of neighbors, entity and position, migration is stable and complete if and
only if the entity is not migrated at the very midpoint, and is in the seam whenever it is
beyond the midpoint, held by its zone and accepted by the other one. -/
theorem stable_and_complete_iff {world : WorldManager} {first second : WorldZone}
    (neighbors : world.Neighbors first second) (entityId : UInt32) (pos : Vec3Fix) :
    (world.Stable entityId first second pos ∧ world.Complete entityId first second pos) ↔
      (first.bounds.seamCoord pos = first.bounds.seamMidpoint →
        ¬ (first.bounds.inSeam pos = true ∧ Movable entityId first second)) ∧
      (first.bounds.Beyond pos first.neighborIsPositive →
        first.bounds.inSeam pos = true ∧ Movable entityId first second) := by
  rw [stable_iff neighbors, complete_iff neighbors]

def sharedBounds : ZoneBounds where
  minX := Fixed64.fromRaw (-100)
  maxX := Fixed64.fromRaw 100
  minZ := Fixed64.fromRaw 0
  maxZ := Fixed64.fromRaw 100
  seamAxis := .eastWest
  seamMin := Fixed64.fromRaw (-10)
  seamMax := Fixed64.fromRaw 10

def across (x : Int64) : Vec3Fix :=
  ⟨Fixed64.fromRaw x, Fixed64.fromRaw 0, Fixed64.fromRaw 0⟩

def nearZone : WorldZone :=
  ((WorldZone.new ⟨1⟩ sharedBounds (some ⟨2⟩) true 8).insertEntity 7 (across (-20))).2

def farZone : WorldZone :=
  WorldZone.new ⟨2⟩ sharedBounds (some ⟨1⟩) false 8

def facingZones : WorldManager where
  zones := [nearZone, farZone]

theorem neighbors_facingZones : facingZones.Neighbors nearZone farZone where
  firstHere := rfl
  secondHere := rfl
  seamAxis := rfl
  seamMin := rfl
  seamMax := rfl
  firstNeighbor := rfl
  secondNeighbor := rfl
  opposite := rfl

theorem movable_facingZones : Movable 7 nearZone farZone :=
  ⟨rfl, by decide, rfl⟩

/-- Between the midpoint and the far edge the zones agree. -/
theorem stable_and_complete_five : facingZones.Neighbors nearZone farZone ∧
      facingZones.Stable 7 nearZone farZone (across 5) ∧
        facingZones.Complete 7 nearZone farZone (across 5) := by
  have inSeam : nearZone.bounds.inSeam (across 5) = true := by
    decide
  exact ⟨neighbors_facingZones, (stable_and_complete_iff neighbors_facingZones 7 (across 5)).mpr
      ⟨fun atMidpoint => absurd atMidpoint (by decide), fun _ => ⟨inSeam, movable_facingZones⟩⟩⟩

/-- An entity at the midpoint goes back and forth, and one behind the far edge stays. -/
theorem not_stable_and_complete : ¬ facingZones.Stable 7 nearZone farZone (across 0) ∧
      ¬ facingZones.Complete 7 nearZone farZone (across 11) := by
  rw [stable_iff neighbors_facingZones, complete_iff neighbors_facingZones]
  constructor
  · intro stable
    have atMidpoint : nearZone.bounds.seamCoord (across 0) = nearZone.bounds.seamMidpoint := by
      decide
    have inSeam : nearZone.bounds.inSeam (across 0) = true := by
      decide
    exact stable atMidpoint ⟨inSeam, movable_facingZones⟩
  intro complete
  have beyond : nearZone.bounds.Beyond (across 11) nearZone.neighborIsPositive := by
    rw [ZoneBounds.Beyond]
    decide
  exact Bool.false_ne_true (complete beyond).1

end WorldManager

end Eidolon.World
