import Eidolon.Library.Run
import Eidolon.World.Zone

/-!
# Zone membership

An entity moves between the grids of two zones by a removal and an insertion, the removal
undone when the insertion fails.  Each call leaves the positions of all zones as they were
or changes the one entity, and an entity is never in two zones.
-/

namespace Eidolon.World

open Core Library Spatial

namespace WorldManager

def positionAt (world : WorldManager) (zoneId : ZoneId) (entityId : UInt32) : Option Vec3Fix :=
  (world.getZone zoneId).bind fun zone => zone.entityPosition entityId

variable {world : WorldManager} {zoneId : ZoneId}

theorem positionAt_of_getZone {zone : WorldZone} (found : world.getZone zoneId = some zone)
    (entityId : UInt32) : world.positionAt zoneId entityId = zone.entityPosition entityId := by
  rw [positionAt, found]
  rfl

theorem getZone_setZone {zone changed : WorldZone} (found : world.getZone zoneId = some zone)
    (same : changed.id = zone.id) (other : ZoneId) :
    (world.setZone zoneId changed).getZone other =
      if other = zoneId then some changed else world.getZone other := by
  have named : zone.id = zoneId := KeyedList.key_of_find found
  rw [getZone, setZone]
  rw [KeyedList.find_replace (same.trans named)]
  rw [getZone] at found
  rw [found]
  rfl

theorem zones_setZone {zone changed : WorldZone} (found : world.getZone zoneId = some zone)
    (same : changed.id = zone.id) :
    (world.setZone zoneId changed).zones.map (·.id) = world.zones.map (·.id) := by
  have named : zone.id = zoneId := KeyedList.key_of_find found
  exact KeyedList.map_replace (same.trans named)

theorem positionAt_setZone {zone changed : WorldZone} (found : world.getZone zoneId = some zone)
    (same : changed.id = zone.id) (other : ZoneId) (entityId : UInt32) :
    (world.setZone zoneId changed).positionAt other entityId =
      if other = zoneId then changed.entityPosition entityId
      else world.positionAt other entityId := by
  rw [positionAt, getZone_setZone found same]
  by_cases asked : other = zoneId
  · rw [if_pos asked, if_pos asked]
    rfl
  rw [if_neg asked, if_neg asked]
  rfl

/-- No two zones have one identifier. -/
def DistinctIds (world : WorldManager) : Prop :=
  (world.zones.map (·.id)).Nodup

/-- No entity is in two zones. -/
def HeldAtMostOnce (world : WorldManager) : Prop :=
  ∀ entityId first second, (world.positionAt first entityId).isSome →
    (world.positionAt second entityId).isSome → first = second

structure SamePositions (before after : WorldManager) : Prop where
  ids : after.zones.map (·.id) = before.zones.map (·.id)
  positions : ∀ zoneId entityId,
    after.positionAt zoneId entityId = before.positionAt zoneId entityId

/-- `after` has the zones of `before`, and its positions but for the entity, which is at
the position in the zone and in no other. -/
structure MovedTo (before : WorldManager) (entityId : UInt32) (zoneId : ZoneId)
    (pos : Vec3Fix) (after : WorldManager) : Prop where
  ids : after.zones.map (·.id) = before.zones.map (·.id)
  here : after.positionAt zoneId entityId = some pos
  nowhereElse : ∀ other, other ≠ zoneId → after.positionAt other entityId = none
  others : ∀ other otherId, otherId ≠ entityId →
    after.positionAt other otherId = before.positionAt other otherId

def ticketZone (currentZoneId : ZoneId) (ticket : Option MigrationTicket) : ZoneId :=
  match ticket with
  | some ticket => ticket.toZone
  | none => currentZoneId

def Moves (before : WorldManager) (entityId : UInt32) (currentZoneId : ZoneId)
    (newPos : Vec3Fix) (outcome : Except WorldError (Option MigrationTicket) × WorldManager) :
    Prop :=
  match outcome with
  | (.error _, after) => SamePositions before after
  | (.ok ticket, after) => MovedTo before entityId (ticketZone currentZoneId ticket) newPos after

variable {entityId : UInt32}

theorem positionAt_eq_none (once : world.HeldAtMostOnce) {other : ZoneId}
    (held : (world.positionAt zoneId entityId).isSome) (different : other ≠ zoneId) :
    world.positionAt other entityId = none := by
  rw [← Option.not_isSome_iff_eq_none]
  intro alsoHeld
  exact different (once entityId other zoneId alsoHeld held)

variable {pos : Vec3Fix}

theorem samePositions_restoreEntity {zone removed : WorldZone}
    (found : world.getZone zoneId = some zone) (held : zone.entityPosition entityId = some pos)
    (gone : WorldZone.RemovedFrom zone entityId removed) {after : WorldManager}
    (ids : after.zones.map (·.id) = world.zones.map (·.id))
    (here : after.getZone zoneId = some removed)
    (elsewhere : ∀ other, other ≠ zoneId → ∀ otherId,
      after.positionAt other otherId = world.positionAt other otherId) :
    SamePositions world (after.restoreEntity zoneId entityId pos) := by
  have same : (removed.insertEntity entityId pos).2.id = removed.id :=
    removed.id_insertEntity entityId pos
  rw [restoreEntity, here]
  constructor
  · rw [zones_setZone here same, ids]
  intro other otherId
  rw [positionAt_setZone here same]
  by_cases asked : other = zoneId
  · rw [if_pos asked, asked, positionAt_of_getZone found,
      WorldZone.entityPosition_insertEntity (gone.takesBack pos), gone.position]
    by_cases entity : otherId = entityId
    · rw [if_pos entity, entity, held]
    rw [if_neg entity, if_neg entity]
  rw [if_neg asked, elsewhere other asked]

theorem movedTo_setZone {before : WorldManager} {zone changed : WorldZone}
    (ids : world.zones.map (·.id) = before.zones.map (·.id))
    (nowhere : ∀ other, other ≠ zoneId → world.positionAt other entityId = none)
    (others : ∀ other otherId, otherId ≠ entityId →
      world.positionAt other otherId = before.positionAt other otherId)
    (found : world.getZone zoneId = some zone) (same : changed.id = zone.id)
    (positions : ∀ otherId, changed.entityPosition otherId =
      if otherId = entityId then some pos else zone.entityPosition otherId) :
    MovedTo before entityId zoneId pos (world.setZone zoneId changed) := by
  constructor
  · rw [zones_setZone found same, ids]
  · rw [positionAt_setZone found same, if_pos rfl, positions, if_pos rfl]
  · intro other different
    rw [positionAt_setZone found same, if_neg different, nowhere other different]
  intro other otherId apart
  rw [positionAt_setZone found same, ← others other otherId apart]
  by_cases asked : other = zoneId
  · rw [if_pos asked, positions, if_neg apart, asked, positionAt_of_getZone found]
  rw [if_neg asked]

theorem moves_migrateEntity (once : world.HeldAtMostOnce) {currentZoneId toZoneId : ZoneId}
    {newPos : Vec3Fix} {inSeam : Bool} (held : (world.positionAt currentZoneId entityId).isSome) :
    Moves world entityId currentZoneId newPos
      (world.migrateEntity entityId currentZoneId toZoneId newPos inSeam) := by
  obtain ⟨prevPos, heldAt⟩ := Option.isSome_iff_exists.mp held
  obtain ⟨zone, found, position⟩ := Option.bind_eq_some_iff.mp heldAt
  obtain ⟨removed, removes, gone⟩ := WorldZone.removeEntity_of_held position
  rw [migrateEntity, found]
  simp only
  rw [position]
  rw [removes]
  simp only
  have idsRemoved := zones_setZone found gone.id
  have hereRemoved : (world.setZone currentZoneId removed).getZone currentZoneId =
      some removed := by
    rw [getZone_setZone found gone.id, if_pos rfl]
  have elsewhere : ∀ other, other ≠ currentZoneId → ∀ otherId,
      (world.setZone currentZoneId removed).positionAt other otherId =
        world.positionAt other otherId := by
    intro other different otherId
    rw [positionAt_setZone found gone.id, if_neg different]
  split
  · exact samePositions_restoreEntity found position gone idsRemoved hereRemoved elsewhere
  rename_i target targetFound
  have same : ∀ pos, (target.insertEntity entityId pos).2.id = target.id :=
    target.id_insertEntity entityId
  split
  · -- A refused insertion cannot be into the zone the entity has just left.
    rename_i error refusing inserts
    have refused : (target.insertEntity entityId newPos).1 ≠ .ok () := by
      rw [inserts]
      simp
    have notBack : currentZoneId ≠ toZoneId := by
      intro back
      rw [← back, hereRemoved] at targetFound
      cases targetFound
      exact refused (gone.takesBack newPos)
    have refusingIs : refusing = (target.insertEntity entityId newPos).2 := by
      rw [inserts]
    rw [refusingIs]
    apply samePositions_restoreEntity found position gone
    · rw [zones_setZone targetFound (same newPos), idsRemoved]
    · rw [getZone_setZone targetFound (same newPos), if_neg notBack, hereRemoved]
    intro other different otherId
    rw [positionAt_setZone targetFound (same newPos)]
    by_cases asked : other = toZoneId
    · rw [if_pos asked, WorldZone.entityPosition_insertEntity_of_error refused,
        ← positionAt_of_getZone targetFound, ← asked, elsewhere other different]
    rw [if_neg asked, elsewhere other different]
  rename_i receiving inserts
  have done : (target.insertEntity entityId newPos).1 = .ok () := by
    rw [inserts]
  have receivingIs : receiving = (target.insertEntity entityId newPos).2 := by
    rw [inserts]
  rw [receivingIs]
  apply movedTo_setZone idsRemoved _ _ targetFound (same newPos)
    (WorldZone.entityPosition_insertEntity done)
  · intro other _
    by_cases source : other = currentZoneId
    · rw [source, positionAt_of_getZone hereRemoved, gone.position, if_pos rfl]
    rw [elsewhere other source, positionAt_eq_none once held source]
  intro other otherId apart
  by_cases source : other = currentZoneId
  · rw [source, positionAt_of_getZone hereRemoved, gone.position, if_neg apart,
      positionAt_of_getZone found]
  exact elsewhere other source otherId

theorem moves_tickEntityMovement (once : world.HeldAtMostOnce) {currentZoneId : ZoneId}
    {newPos : Vec3Fix} (held : (world.positionAt currentZoneId entityId).isSome) :
    Moves world entityId currentZoneId newPos
      (world.tickEntityMovement entityId currentZoneId newPos) := by
  obtain ⟨prevPos, heldAt⟩ := Option.isSome_iff_exists.mp held
  obtain ⟨zone, found, position⟩ := Option.bind_eq_some_iff.mp heldAt
  rw [tickEntityMovement, found]
  simp only
  split
  · exact moves_migrateEntity once held
  obtain ⟨crossed, updated, updates, same, positions⟩ :=
    WorldZone.updatePosition_of_held position newPos
  rw [updates]
  have moved : MovedTo world entityId currentZoneId newPos
      (world.setZone currentZoneId updated) := by
    apply movedTo_setZone rfl _ _ found same positions
    · exact fun other different => positionAt_eq_none once held different
    exact fun _ _ _ => rfl
  by_cases seam : zone.bounds.inSeam newPos
  · simp only [seam, if_true]
    exact moved
  simp only [seam]
  exact moved

structure WellPlaced (world : WorldManager) : Prop where
  distinct : world.DistinctIds
  once : world.HeldAtMostOnce

theorem SamePositions.wellPlaced {before after : WorldManager}
    (unchanged : SamePositions before after) (placed : before.WellPlaced) : after.WellPlaced := by
  constructor
  · rw [DistinctIds, unchanged.ids]
    exact placed.distinct
  intro entityId first second atFirst atSecond
  rw [unchanged.positions] at atFirst atSecond
  exact placed.once entityId first second atFirst atSecond

theorem MovedTo.wellPlaced {before after : WorldManager}
    (moved : MovedTo before entityId zoneId pos after) (placed : before.WellPlaced) :
    after.WellPlaced := by
  constructor
  · rw [DistinctIds, moved.ids]
    exact placed.distinct
  intro otherId first second atFirst atSecond
  by_cases entity : otherId = entityId
  · have inZone : ∀ other, (after.positionAt other otherId).isSome → other = zoneId := by
      intro other present
      by_contra different
      rw [entity, moved.nowhereElse other different] at present
      cases present
    rw [inZone first atFirst, inZone second atSecond]
  rw [moved.others _ _ entity] at atFirst atSecond
  exact placed.once otherId first second atFirst atSecond

end WorldManager

/-- A call to move an entity. -/
structure MovementCall where
  entityId : UInt32
  currentZoneId : ZoneId
  newPos : Vec3Fix
  deriving DecidableEq

namespace MovementCall

variable (world : WorldManager) (call : MovementCall)

def outcome : Except WorldError (Option MigrationTicket) × WorldManager :=
  world.tickEntityMovement call.entityId call.currentZoneId call.newPos

def step : WorldManager :=
  (call.outcome world).2

/-- The zone passed has the entity. -/
def NamesHolder : Prop :=
  (world.positionAt call.currentZoneId call.entityId).isSome

/-- The entity is in exactly one zone afterwards, and the positions are as the result
tells. -/
structure KeepsMembership (world : WorldManager) (call : MovementCall) : Prop where
  inOneZone : ∃! zoneId, ((call.step world).positionAt zoneId call.entityId).isSome
  moves : world.Moves call.entityId call.currentZoneId call.newPos (call.outcome world)

variable {world : WorldManager} {call : MovementCall}

theorem moves_outcome (placed : world.WellPlaced) (named : call.NamesHolder world) :
    world.Moves call.entityId call.currentZoneId call.newPos (call.outcome world) :=
  WorldManager.moves_tickEntityMovement placed.once named

theorem wellPlaced_step (placed : world.WellPlaced) (named : call.NamesHolder world) :
    (call.step world).WellPlaced := by
  have moves := moves_outcome placed named
  rw [step]
  rcases outcomeIs : call.outcome world with ⟨result, after⟩
  rw [outcomeIs] at moves
  cases result with
  | error failure => exact WorldManager.SamePositions.wellPlaced moves placed
  | ok ticket => exact WorldManager.MovedTo.wellPlaced moves placed

theorem keepsMembership (placed : world.WellPlaced) (named : call.NamesHolder world) :
    call.KeepsMembership world := by
  have moves := moves_outcome placed named
  have placedAfter := wellPlaced_step placed named
  have somewhere : ∃ zoneId, ((call.step world).positionAt zoneId call.entityId).isSome := by
    rw [step]
    rcases outcomeIs : call.outcome world with ⟨result, after⟩
    rw [outcomeIs] at moves
    rcases result with failure | ticket
    · have unchanged : WorldManager.SamePositions world after := moves
      exact ⟨call.currentZoneId, by rw [unchanged.positions]; exact named⟩
    have moved : WorldManager.MovedTo world call.entityId
        (WorldManager.ticketZone call.currentZoneId ticket) call.newPos after := moves
    exact ⟨_, by rw [moved.here]; rfl⟩
  obtain ⟨zoneId, here⟩ := somewhere
  refine ⟨⟨zoneId, here, ?_⟩, moves⟩
  intro other there
  exact placedAfter.once call.entityId other zoneId there here

/-- Along every run of movements that name the zone holding the entity, each call leaves
the entity in exactly one zone, a failed call leaves all positions, and a successful one
moves only the entity, to the zone it reports. -/
theorem keepsMembership_throughout {world : WorldManager} (distinct : world.DistinctIds)
    (once : world.HeldAtMostOnce) {calls : List MovementCall}
    (named : EachStep (fun world call => step world call)
      (fun world call => NamesHolder world call) world calls) :
    EachStep (fun world call => step world call)
      (fun world call => KeepsMembership world call) world calls :=
  eachStep_of_invariant (fun _ _ placed here => wellPlaced_step placed here)
    (fun _ _ placed here => keepsMembership placed here)
    ⟨distinct, once⟩ named

/-- Two neighbors with a seam around zero; the first one has an entity. -/
def twoZones : WorldManager :=
  let bounds : ZoneBounds :=
    { minX := Fixed64.fromRaw (-100)
      maxX := Fixed64.fromRaw 100
      minZ := Fixed64.fromRaw 0
      maxZ := Fixed64.fromRaw 100
      seamAxis := .eastWest
      seamMin := Fixed64.fromRaw (-10)
      seamMax := Fixed64.fromRaw 10 }
  { zones :=
      [((WorldZone.new ⟨1⟩ bounds (some ⟨2⟩) true 8).insertEntity 7
          ⟨Fixed64.fromRaw (-20), Fixed64.fromRaw 0, Fixed64.fromRaw 0⟩).2,
        WorldZone.new ⟨2⟩ bounds (some ⟨3⟩) true 8] }

/-- Across the seam, and then on towards a neighbor that is missing. -/
def crossings : List MovementCall :=
  [⟨7, ⟨1⟩, ⟨Fixed64.fromRaw 5, Fixed64.fromRaw 0, Fixed64.fromRaw 0⟩⟩,
    ⟨7, ⟨2⟩, ⟨Fixed64.fromRaw 6, Fixed64.fromRaw 0, Fixed64.fromRaw 0⟩⟩]

theorem distinctIds_twoZones : twoZones.DistinctIds := by
  rw [WorldManager.DistinctIds]
  decide

theorem heldAtMostOnce_twoZones : twoZones.HeldAtMostOnce := by
  have onlyFirst : ∀ entityId zoneId, (twoZones.positionAt zoneId entityId).isSome →
      zoneId = ⟨1⟩ := by
    intro entityId zoneId held
    by_contra different
    by_cases second : zoneId = ⟨2⟩
    · rw [second] at held
      cases held
    have unknown : twoZones.getZone zoneId = none := by
      have apart : ∀ zone ∈ twoZones.zones, zone.id = ⟨1⟩ ∨ zone.id = ⟨2⟩ := by
        intro zone member
        rcases List.mem_cons.mp member with here | later
        · rw [here]
          exact Or.inl (WorldZone.id_insertEntity _ _ _)
        rw [List.mem_singleton.mp later]
        exact Or.inr rfl
      apply List.find?_eq_none.mpr
      intro zone member
      rcases apart zone member with first | second'
      · simp [first, Ne.symm different]
      simp [second', Ne.symm second]
    rw [WorldManager.positionAt, unknown] at held
    cases held
  intro entityId first second atFirst atSecond
  rw [onlyFirst entityId first atFirst, onlyFirst entityId second atSecond]

theorem keepsMembership_crossings : EachStep (fun world call => step world call)
      (fun world call => NamesHolder world call) twoZones crossings ∧
    EachStep (fun world call => step world call)
      (fun world call => KeepsMembership world call) twoZones crossings := by
  have named : EachStep (fun world call => step world call)
      (fun world call => NamesHolder world call) twoZones crossings :=
    ⟨rfl, rfl, trivial⟩
  exact ⟨named, keepsMembership_throughout distinctIds_twoZones heldAtMostOnce_twoZones named⟩

end MovementCall

end Eidolon.World
