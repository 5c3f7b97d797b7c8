import Eidolon.Library.Run
import Eidolon.World.Wal
import Eidolon.World.Zone

/-!
# Reconstruction of a zone

A zone is rebuilt from a checkpoint of its entities and the journal records after it.
-/

namespace Eidolon.World

open Core Function Library List Option Spatial

structure CheckpointEntity where
  entityId : UInt32
  position : Vec3Fix
  deriving DecidableEq

structure ZoneCheckpoint where
  zoneId : ZoneId
  checkpointTick : UInt64
  lastLsn : UInt64
  entities : List CheckpointEntity
  deriving DecidableEq

variable (zone : WorldZone)

def capturedEntity (eid : UInt32) : Option CheckpointEntity :=
  (zone.spatialGrid.getPosition eid).map fun pos => { entityId := eid, position := pos }

def ZoneCheckpoint.capture (checkpointTick lastLsn : UInt64) (activeEntityIds : List UInt32) :
    Except WorldError ZoneCheckpoint :=
  .ok
    { zoneId := zone.id
      checkpointTick := checkpointTick
      lastLsn := lastLsn
      entities := activeEntityIds.filterMap (capturedEntity zone) }

def rawToBeBytes (raw : Int64) : List UInt8 :=
  bigEndian 8 raw.toUInt64.toNat

def rawFromBeBytes (bytes : List UInt8) : Int64 :=
  (UInt64.ofNat (ofBigEndian bytes)).toInt64

variable (pos : Vec3Fix)

def encodePositionPayload : List UInt8 :=
  rawToBeBytes pos.x.raw ++ (rawToBeBytes pos.y.raw ++ rawToBeBytes pos.z.raw)

def decodePositionPayload (buf : List UInt8) : Except WorldError Vec3Fix :=
  if buf.length < 24 then
    .error (.walCorruptedRecord "Position payload buffer too short")
  else
    .ok
      { x := Fixed64.fromRaw (rawFromBeBytes (buf.take 8))
        y := Fixed64.fromRaw (rawFromBeBytes ((buf.drop 8).take 8))
        z := Fixed64.fromRaw (rawFromBeBytes ((buf.drop 16).take 8)) }

/-- The payload of a record; none if its length is past the array, where taking the slice
panics. -/
def WalRecord.payloadSlice (record : WalRecord) : Option (List UInt8) :=
  if record.payloadLen.toNat ≤ record.payload.length then
    some (record.payload.take record.payloadLen.toNat)
  else
    none

def keepZone {α : Type} (outcome : Except WorldError α × WorldZone) : Except WorldError WorldZone :=
  match outcome with
  | (.ok _, zone) => .ok zone
  | (.error error, _) => .error error

/-- What a record does to the zone under reconstruction; none is a panic. -/
def applyRecord (record : WalRecord) : Option (Except WorldError WorldZone) :=
  if record.opcode = opEntitySpawn then
    record.payloadSlice.map fun payload =>
      match decodePositionPayload payload with
      | .error error => .error error
      | .ok pos => keepZone (zone.insertEntity record.entityId pos)
  else if record.opcode = opEntityDespawn then
    some (keepZone (zone.removeEntity record.entityId))
  else if record.opcode = opEntityTransform then
    record.payloadSlice.map fun payload =>
      match decodePositionPayload payload with
      | .error error => .error error
      | .ok pos => keepZone (zone.updatePosition record.entityId pos)
  else
    some (.ok zone)

def rehydrate (zone : WorldZone) : List CheckpointEntity → Except WorldError WorldZone
  | [] => .ok zone
  | entity :: rest =>
    match zone.insertEntity entity.entityId entity.position with
    | (.ok (), inserted) => rehydrate inserted rest
    | (.error error, _) => .error error

/-- Replays the records that the checkpoint does not cover; each has to be the next. -/
def replay (lastLsn expectedLsn : UInt64) (zone : WorldZone) :
    List WalRecord → Option (Except WorldError WorldZone)
  | [] => some (.ok zone)
  | record :: records =>
    if record.lsn ≤ lastLsn then
      replay lastLsn expectedLsn zone records
    else
      let nextExpected := saturatingAdd64 expectedLsn 1
      if record.lsn ≠ nextExpected then
        some (.error (.walLsnRegression nextExpected record.lsn))
      else
        match applyRecord zone record with
        | none => none
        | some (.error error) => some (.error error)
        | some (.ok changed) => replay lastLsn record.lsn changed records

def reconstructZoneFromWal (checkpoint : ZoneCheckpoint) (bounds : ZoneBounds)
    (neighborZone : Option ZoneId) (neighborIsPositive : Bool) (maxEntities : Nat)
    (walRecords : List WalRecord) : Option (Except WorldError WorldZone) :=
  match rehydrate
      (WorldZone.new checkpoint.zoneId bounds neighborZone neighborIsPositive maxEntities)
      checkpoint.entities with
  | .error error => some (.error error)
  | .ok zone => replay checkpoint.lastLsn checkpoint.lastLsn zone walRecords

@[simp]
theorem length_rawToBeBytes (raw : Int64) : (rawToBeBytes raw).length = 8 :=
  length_bigEndian 8 _

theorem rawFromBeBytes_rawToBeBytes (raw : Int64) : rawFromBeBytes (rawToBeBytes raw) = raw := by
  have small : raw.toUInt64.toNat < 256 ^ 8 := raw.toUInt64.toNat_lt
  rw [rawFromBeBytes, rawToBeBytes, ofBigEndian_bigEndian small, UInt64.ofNat_toNat]
  rfl

@[simp]
theorem length_encodePositionPayload : (encodePositionPayload pos).length = 24 := by
  rw [encodePositionPayload, length_append, length_append, length_rawToBeBytes,
    length_rawToBeBytes, length_rawToBeBytes]

theorem decodePositionPayload_encodePositionPayload :
    decodePositionPayload (encodePositionPayload pos) = .ok pos := by
  have first : (encodePositionPayload pos).take 8 = rawToBeBytes pos.x.raw :=
    take_left' (length_rawToBeBytes _)
  have second : ((encodePositionPayload pos).drop 8).take 8 = rawToBeBytes pos.y.raw :=
    take_left' (length_rawToBeBytes _)
  have third : ((encodePositionPayload pos).drop 16).take 8 = rawToBeBytes pos.z.raw :=
    take_of_length_le (length_rawToBeBytes _).le
  rw [decodePositionPayload, first, second, third,
    rawFromBeBytes_rawToBeBytes, rawFromBeBytes_rawToBeBytes, rawFromBeBytes_rawToBeBytes]
  rfl

end Eidolon.World

/-!
## Parity of reconstruction

What an operation does depends on a zone's capacity and its map from entity to position
only, and the replay of the record it was logged as does the same.  So a zone rebuilt from
a checkpoint and the records after it has the positions of the zone that was live.
-/

namespace Eidolon.World

open Core Function Library List Option Spatial

/-- The operations on a zone that are logged. -/
inductive ZoneOperation where
  | spawn (entityId : UInt32) (pos : Vec3Fix)
  | despawn (entityId : UInt32)
  | transform (entityId : UInt32) (pos : Vec3Fix)
  deriving DecidableEq

namespace ZoneOperation

def apply (zone : WorldZone) : ZoneOperation → Except WorldError Unit × WorldZone
  | spawn entityId pos => zone.insertEntity entityId pos
  | despawn entityId => zone.removeEntity entityId
  | transform entityId pos =>
    let outcome := zone.updatePosition entityId pos
    (outcome.1.map fun _ => (), outcome.2)

variable (zone : WorldZone) (operation : ZoneOperation)

def step : WorldZone :=
  (operation.apply zone).2

def LoggedAs (record : WalRecord) : ZoneOperation → Prop
  | spawn entityId pos =>
    record.opcode = opEntitySpawn ∧ record.entityId = entityId ∧
      record.payloadSlice = some (encodePositionPayload pos)
  | despawn entityId => record.opcode = opEntityDespawn ∧ record.entityId = entityId
  | transform entityId pos =>
    record.opcode = opEntityTransform ∧ record.entityId = entityId ∧
      record.payloadSlice = some (encodePositionPayload pos)

def record (lsn tick accountId : UInt64) : ZoneOperation → Except WorldError WalRecord
  | spawn entityId pos =>
    WalRecord.new lsn tick accountId entityId opEntitySpawn (encodePositionPayload pos)
  | despawn entityId => WalRecord.new lsn tick accountId entityId opEntityDespawn []
  | transform entityId pos =>
    WalRecord.new lsn tick accountId entityId opEntityTransform (encodePositionPayload pos)

private theorem new_fields {lsn tick accountId : UInt64} {entityId : UInt32} {opcode : UInt8}
    {payloadData : List UInt8} (short : payloadData.length ≤ maxWalPayloadLen) :
    ∃ record, WalRecord.new lsn tick accountId entityId opcode payloadData = .ok record ∧
      record.lsn = lsn ∧ record.opcode = opcode ∧ record.entityId = entityId ∧
      record.payloadSlice = some payloadData := by
  have limit : maxWalPayloadLen = 128 := rfl
  have lengthKept : (UInt8.ofNat payloadData.length).toNat = payloadData.length := by
    rw [UInt8.toNat_ofNat']
    omega
  rw [WalRecord.new, dif_pos short]
  refine ⟨_, rfl, rfl, rfl, rfl, ?_⟩
  rw [WalRecord.payloadSlice]
  rw [lengthKept, take_left, if_pos]
  rw [length_append]
  omega

theorem record_loggedAs (lsn tick accountId : UInt64) :
    ∃ made, operation.record lsn tick accountId = .ok made ∧ made.lsn = lsn ∧
      operation.LoggedAs made := by
  have short : ∀ pos, (encodePositionPayload pos).length ≤ maxWalPayloadLen := by
    intro pos
    rw [length_encodePositionPayload]
    decide
  cases operation with
  | spawn entityId pos =>
    obtain ⟨made, new, lsnIs, opcode, entity, payload⟩ := new_fields (short pos)
    exact ⟨made, new, lsnIs, opcode, entity, payload⟩
  | despawn entityId =>
    obtain ⟨made, new, lsnIs, opcode, entity, _⟩ :=
      @new_fields lsn tick accountId entityId opEntityDespawn [] (by decide)
    exact ⟨made, new, lsnIs, opcode, entity⟩
  | transform entityId pos =>
    obtain ⟨made, new, lsnIs, opcode, entity, payload⟩ := new_fields (short pos)
    exact ⟨made, new, lsnIs, opcode, entity, payload⟩

def Allowed (capacity : Nat) (positions : UInt32 → Option Vec3Fix) : ZoneOperation → Prop
  | spawn entityId _ => entityId.toNat < capacity ∧ positions entityId = none
  | despawn entityId => (positions entityId).isSome
  | transform entityId _ => (positions entityId).isSome

def effect (positions : UInt32 → Option Vec3Fix) : ZoneOperation → UInt32 → Option Vec3Fix
  | spawn entityId pos => Function.update positions entityId (some pos)
  | despawn entityId => Function.update positions entityId none
  | transform entityId pos => Function.update positions entityId (some pos)

structure Refines (zone : WorldZone) (operation : ZoneOperation) : Prop where
  ok_iff : (operation.apply zone).1 = .ok () ↔
    operation.Allowed zone.spatialGrid.maxEntities zone.entityPosition
  capacity :
    (operation.apply zone).2.spatialGrid.maxEntities = zone.spatialGrid.maxEntities
  positions : (operation.apply zone).1 = .ok () →
    (operation.apply zone).2.entityPosition = operation.effect zone.entityPosition

private theorem eq_update {positions changed : UInt32 → Option Vec3Fix} {entityId : UInt32}
    {value : Option Vec3Fix}
    (pointwise : ∀ other, changed other = if other = entityId then value else positions other) :
    changed = Function.update positions entityId value := by
  funext other
  rw [pointwise other, update_apply]

theorem refines_spawn (zone : WorldZone) (entityId : UInt32) (pos : Vec3Fix) :
    Refines zone (spawn entityId pos) where
  ok_iff := WorldZone.insertEntity_ok_iff.trans SpatialHashGrid.insert_ok_iff
  capacity := by
    rw [apply, WorldZone.spatialGrid_insertEntity, SpatialHashGrid.maxEntities_insert]
  positions := fun done => eq_update (WorldZone.entityPosition_insertEntity done)

theorem refines_despawn (entityId : UInt32) : Refines zone (despawn entityId) := by
  rcases held : zone.entityPosition entityId with _ | pos
  · have missing := SpatialHashGrid.remove_of_none held
    have failed : (zone.removeEntity entityId).1 = .error (.entityNotFound entityId) := by
      rw [WorldZone.removeEntity, missing]
    constructor
    · rw [apply, failed, Allowed, held]
      simp
    · rw [apply, WorldZone.removeEntity, missing]
    intro done
    rw [apply, failed] at done
    cases done
  obtain ⟨removes, positions, capacity⟩ := SpatialHashGrid.remove_of_some held
  have outcome : zone.removeEntity entityId =
      (.ok (), { zone with spatialGrid := (zone.spatialGrid.remove entityId).2 }) := by
    rw [WorldZone.removeEntity]
    rcases split : zone.spatialGrid.remove entityId with ⟨result, grid⟩
    rw [split] at removes
    simp only at removes
    rw [removes]
  constructor
  · rw [apply, outcome, Allowed, held]
    exact iff_of_true rfl rfl
  · rw [apply, outcome]
    exact capacity
  intro _
  rw [apply, outcome]
  exact eq_update positions

theorem refines_transform (entityId : UInt32) (pos : Vec3Fix) :
    Refines zone (transform entityId pos) := by
  rcases held : zone.entityPosition entityId with _ | oldPos
  · have missing := SpatialHashGrid.updatePosition_of_none held pos
    have failed : (zone.updatePosition entityId pos).1 = .error (.entityNotFound entityId) := by
      rw [WorldZone.updatePosition, missing]
    have fails : ((transform entityId pos).apply zone).1 ≠ .ok () := by
      simp [apply, failed, Except.map]
    constructor
    · rw [Allowed, held]
      exact iff_of_false fails (by decide)
    · rw [apply, WorldZone.updatePosition, missing]
    exact fun done => absurd done fails
  obtain ⟨⟨crossed, moves⟩, positions, capacity⟩ :=
    SpatialHashGrid.updatePosition_of_some held pos
  have outcome : zone.updatePosition entityId pos = (.ok crossed,
        { zone with spatialGrid := (zone.spatialGrid.updatePosition entityId pos).2 }) := by
    rw [WorldZone.updatePosition]
    rcases split : zone.spatialGrid.updatePosition entityId pos with ⟨result, grid⟩
    rw [split] at moves
    simp only at moves
    rw [moves]
  constructor
  · rw [apply, outcome, Allowed, held]
    exact iff_of_true rfl rfl
  · rw [apply, outcome]
    exact capacity
  intro _
  rw [apply, outcome]
  exact eq_update positions

theorem refines : Refines zone operation := by
  cases operation with
  | spawn entityId pos => exact refines_spawn zone entityId pos
  | despawn entityId => exact refines_despawn zone entityId
  | transform entityId pos => exact refines_transform zone entityId pos

end ZoneOperation

/-- Two zones of one capacity with the same positions. -/
structure Agrees (live replica : WorldZone) : Prop where
  capacity : replica.spatialGrid.maxEntities = live.spatialGrid.maxEntities
  positions : replica.entityPosition = live.entityPosition

theorem Agrees.apply {live replica : WorldZone} (agree : Agrees live replica)
    {operation : ZoneOperation} (done : (operation.apply live).1 = .ok ()) :
    (operation.apply replica).1 = .ok () ∧
      Agrees (operation.apply live).2 (operation.apply replica).2 := by
  have onLive := operation.refines live
  have onReplica := operation.refines replica
  have doneReplica : (operation.apply replica).1 = .ok () := by
    rw [onReplica.ok_iff, agree.capacity, agree.positions]
    exact onLive.ok_iff.mp done
  refine ⟨doneReplica, ?_, ?_⟩
  · rw [onReplica.capacity, onLive.capacity, agree.capacity]
  rw [onReplica.positions doneReplica, onLive.positions done, agree.positions]

theorem keepZone_of_ok {α : Type} {outcome : Except WorldError α × WorldZone} {value : α}
    (done : outcome.1 = .ok value) : keepZone outcome = .ok outcome.2 := by
  rcases outcome with ⟨result, zone⟩
  simp only at done
  rw [done, keepZone]

variable {zone : WorldZone}

theorem applyRecord_of_loggedAs {operation : ZoneOperation} {record : WalRecord}
    (logged : operation.LoggedAs record) (done : (operation.apply zone).1 = .ok ()) :
    applyRecord zone record = some (.ok (operation.apply zone).2) := by
  have transformNotSpawn : opEntityTransform ≠ opEntitySpawn := by decide
  cases operation with
  | spawn entityId pos =>
    obtain ⟨opcode, entity, payload⟩ := logged
    rw [applyRecord, if_pos opcode, payload, map_some,
      decodePositionPayload_encodePositionPayload, entity]
    exact congrArg some (keepZone_of_ok done)
  | despawn entityId =>
    obtain ⟨opcode, entity⟩ := logged
    rw [applyRecord, opcode, entity]
    exact congrArg some (keepZone_of_ok done)
  | transform entityId pos =>
    obtain ⟨opcode, entity, payload⟩ := logged
    have moved : ∃ crossed, (zone.updatePosition entityId pos).1 = .ok crossed := by
      rcases result : (zone.updatePosition entityId pos).1 with error | crossed
      · simp [ZoneOperation.apply, result, Except.map] at done
      exact ⟨crossed, rfl⟩
    obtain ⟨crossed, moved⟩ := moved
    rw [applyRecord, opcode, if_neg transformNotSpawn, payload, map_some,
      decodePositionPayload_encodePositionPayload, entity]
    exact congrArg some (keepZone_of_ok moved)

/-- The checkpoint of a list of entities without repetition, inserted into a zone that has
none of them. -/
theorem rehydrate_ok {entities : List CheckpointEntity}
    (distinct : (entities.map (·.entityId)).Nodup)
    (fits : ∀ entity ∈ entities, entity.entityId.toNat < zone.spatialGrid.maxEntities)
    (free : ∀ entity ∈ entities, zone.entityPosition entity.entityId = none) :
    ∃ filled, rehydrate zone entities = .ok filled ∧
      filled.spatialGrid.maxEntities = zone.spatialGrid.maxEntities ∧
      (∀ entity ∈ entities, filled.entityPosition entity.entityId = some entity.position) ∧
      ∀ other, other ∉ entities.map (·.entityId) →
        filled.entityPosition other = zone.entityPosition other := by
  induction entities generalizing zone with
  | nil =>
    refine ⟨zone, rfl, rfl, ?_, ?_⟩
    · intro entity member
      cases member
    exact fun _ _ => rfl
  | cons entity rest ih =>
    rw [map_cons, nodup_cons] at distinct
    have spec := ZoneOperation.refines_spawn zone entity.entityId entity.position
    have done : (zone.insertEntity entity.entityId entity.position).1 = .ok () :=
      spec.ok_iff.mpr ⟨fits entity mem_cons_self, free entity mem_cons_self⟩
    have capacity := spec.capacity
    have positions := WorldZone.entityPosition_insertEntity done
    rcases outcome : zone.insertEntity entity.entityId entity.position with
      ⟨result, inserted⟩
    rw [outcome] at done positions
    rw [ZoneOperation.apply, outcome] at capacity
    simp only at done positions capacity
    have keepsOther : ∀ other, other ≠ entity.entityId →
        inserted.entityPosition other = zone.entityPosition other := by
      intro other apart
      rw [positions, if_neg apart]
    have restApart : ∀ later ∈ rest, later.entityId ≠ entity.entityId := by
      intro later member same
      exact distinct.1 (List.mem_map.mpr ⟨later, member, same⟩)
    obtain ⟨filled, rest_ok, filledCapacity, inRest, elsewhere⟩ :=
      @ih inserted distinct.2 (by
          intro later member
          rw [capacity]
          exact fits later (mem_cons_of_mem _ member))
        (by
          intro later member
          rw [keepsOther _ (restApart later member)]
          exact free later (mem_cons_of_mem _ member))
    refine ⟨filled, ?_, filledCapacity.trans capacity, ?_, ?_⟩
    · rw [rehydrate, outcome, done]
      exact rest_ok
    · intro held member
      rcases List.mem_cons.mp member with first | later
      · rw [first, elsewhere _ distinct.1, positions, if_pos rfl]
      exact inRest held later
    intro other outside
    rw [map_cons, mem_cons, not_or] at outside
    rw [elsewhere other outside.2, keepsOther other outside.1]

/-- The list has every active identifier of a zone, and none twice. -/
structure ListsActive (zone : WorldZone) (activeEntityIds : List UInt32) : Prop where
  distinct : activeEntityIds.Nodup
  complete : ∀ entityId, (zone.entityPosition entityId).isSome → entityId ∈ activeEntityIds

theorem capturedEntity_eq_some {eid : UInt32} {entity : CheckpointEntity} :
    capturedEntity zone eid = some entity ↔
      entity.entityId = eid ∧ zone.entityPosition eid = some entity.position := by
  rw [capturedEntity, map_eq_some_iff]
  constructor
  · intro captured
    obtain ⟨pos, held, made⟩ := captured
    rw [← made]
    exact ⟨rfl, held⟩
  intro captured
  obtain ⟨same, held⟩ := captured
  exact ⟨entity.position, held, by rw [← same]⟩

theorem sublist_captured (zone : WorldZone) (ids : List UInt32) :
    ((ids.filterMap (capturedEntity zone)).map (·.entityId)).Sublist ids := by
  induction ids with
  | nil => exact List.Sublist.refl _
  | cons eid rest ih =>
    rcases captured : capturedEntity zone eid with _ | entity
    · rw [filterMap_cons_none captured]
      exact ih.cons eid
    rw [filterMap_cons_some captured, map_cons, (capturedEntity_eq_some.mp captured).1]
    exact ih.cons_cons eid

theorem rehydrate_capture {ids : List UInt32} (listed : ListsActive zone ids) {empty : WorldZone}
    (capacity : empty.spatialGrid.maxEntities = zone.spatialGrid.maxEntities)
    (nobody : ∀ entityId, empty.entityPosition entityId = none) :
    ∃ filled, rehydrate empty (ids.filterMap (capturedEntity zone)) = .ok filled ∧
      Agrees zone filled := by
  have captured : ∀ entity ∈ ids.filterMap (capturedEntity zone),
      zone.entityPosition entity.entityId = some entity.position := by
    intro entity member
    obtain ⟨eid, _, here⟩ := List.mem_filterMap.mp member
    obtain ⟨same, held⟩ := capturedEntity_eq_some.mp here
    rw [same, held]
  have fits : ∀ entity ∈ ids.filterMap (capturedEntity zone),
      entity.entityId.toNat < empty.spatialGrid.maxEntities := by
    intro entity member
    rw [capacity]
    exact SpatialHashGrid.lt_of_getPosition (captured entity member)
  obtain ⟨filled, done, filledCapacity, inserted, elsewhere⟩ :=
    rehydrate_ok (listed.distinct.sublist (sublist_captured zone ids)) fits
      (fun entity _ => nobody entity.entityId)
  refine ⟨filled, done, filledCapacity.trans capacity, ?_⟩
  funext entityId
  rcases held : zone.entityPosition entityId with _ | pos
  · rw [elsewhere entityId _, nobody entityId]
    intro member
    obtain ⟨entity, present, same⟩ := List.mem_map.mp member
    have there := captured entity present
    rw [same, held] at there
    cases there
  have here : capturedEntity zone entityId = some { entityId := entityId, position := pos } :=
    capturedEntity_eq_some.mpr ⟨rfl, held⟩
  have active : (zone.entityPosition entityId).isSome := by
    rw [held]
    rfl
  exact inserted _ (List.mem_filterMap.mpr ⟨entityId, listed.complete entityId active, here⟩)

/-- The journal of a live zone from one state to another: records that the checkpoint
covers, records of successful operations, and records of other opcodes, where those that
are not covered have consecutive sequence numbers from the one given. -/
inductive Logged (lastLsn : UInt64) :
    UInt64 → WorldZone → List WalRecord → WorldZone → Prop
  | finish (lsn : UInt64) (zone : WorldZone) : Logged lastLsn lsn zone [] zone
  | covered {lsn : UInt64} {zone final : WorldZone} {record : WalRecord}
      {records : List WalRecord} :
      record.lsn ≤ lastLsn → Logged lastLsn lsn zone records final →
      Logged lastLsn lsn zone (record :: records) final
  | mutation {lsn : UInt64} {zone final : WorldZone} {record : WalRecord}
      {records : List WalRecord} (operation : ZoneOperation) :
      (operation.apply zone).1 = .ok () → operation.LoggedAs record →
      record.lsn.toNat = lsn.toNat + 1 →
      Logged lastLsn record.lsn (operation.apply zone).2 records final →
      Logged lastLsn lsn zone (record :: records) final
  | other {lsn : UInt64} {zone final : WorldZone} {record : WalRecord}
      {records : List WalRecord} :
      record.opcode ≠ opEntitySpawn → record.opcode ≠ opEntityDespawn →
      record.opcode ≠ opEntityTransform → record.lsn.toNat = lsn.toNat + 1 →
      Logged lastLsn record.lsn zone records final →
      Logged lastLsn lsn zone (record :: records) final

theorem replay_next {lastLsn lsn : UInt64} {changed : WorldZone} {record : WalRecord}
    {records : List WalRecord} (reached : lastLsn ≤ lsn)
    (consecutive : record.lsn.toNat = lsn.toNat + 1)
    (applied : applyRecord zone record = some (.ok changed)) :
    replay lastLsn lsn zone (record :: records) = replay lastLsn record.lsn changed records := by
  have later : ¬ record.lsn ≤ lastLsn := by
    rw [UInt64.le_iff_toNat_le] at reached ⊢
    omega
  have next : saturatingAdd64 lsn 1 = record.lsn := by
    apply UInt64.toNat_inj.mp
    have bound := record.lsn.toNat_lt
    have one : (1 : UInt64).toNat = 1 := rfl
    rw [toNat_saturatingAdd64]
    omega
  rw [replay, if_neg later]
  rw [next, if_neg (fun different => different rfl), applied]

theorem replay_of_logged {lastLsn lsn : UInt64} {live final replica : WorldZone}
    {records : List WalRecord} (logged : Logged lastLsn lsn live records final)
    (reached : lastLsn ≤ lsn) (agree : Agrees live replica) :
    ∃ rebuilt, replay lastLsn lsn replica records = some (.ok rebuilt) ∧ Agrees final rebuilt := by
  have onwards : ∀ {lsn next : UInt64}, lastLsn ≤ lsn → next.toNat = lsn.toNat + 1 →
      lastLsn ≤ next := by
    intro lsn next atLsn consecutive
    rw [UInt64.le_iff_toNat_le] at atLsn ⊢
    omega
  induction logged generalizing replica with
  | finish lsn zone => exact ⟨replica, rfl, agree⟩
  | covered isCovered _ ih =>
    rw [replay, if_pos isCovered]
    exact ih reached agree
  | mutation operation done record consecutive _ ih =>
    obtain ⟨doneReplica, agreeAfter⟩ := agree.apply done
    rw [replay_next reached consecutive (applyRecord_of_loggedAs record doneReplica)]
    exact ih (onwards reached consecutive) agreeAfter
  | @other lsn zone final record records notSpawn notDespawn notTransform consecutive _
      ih =>
      have ignored : applyRecord replica record = some (.ok replica) := by
        rw [applyRecord, if_neg notSpawn, if_neg notDespawn, if_neg notTransform]
      rw [replay_next reached consecutive ignored]
      exact ih (onwards reached consecutive) agree

/-- A zone that was reached by any operations, captured with all its active entities, and
rebuilt from the journal of what it did afterwards, has the positions of the live zone. -/
theorem reconstructZoneFromWal_parity {id : ZoneId} {bounds newBounds : ZoneBounds}
    {neighborZone newNeighborZone : Option ZoneId}
    {neighborIsPositive newNeighborIsPositive : Bool} {maxEntities : Nat}
    {operations : List ZoneOperation} {zone final : WorldZone}
    (reached : zone = run (fun zone operation => ZoneOperation.step zone operation)
      (WorldZone.new id bounds neighborZone neighborIsPositive maxEntities) operations)
    {ids : List UInt32} (listed : ListsActive zone ids)
    {checkpointTick lastLsn : UInt64} {checkpoint : ZoneCheckpoint}
    (captured : ZoneCheckpoint.capture zone checkpointTick lastLsn ids = .ok checkpoint)
    {records : List WalRecord} (logged : Logged lastLsn lastLsn zone records final) :
    ∃ rebuilt, reconstructZoneFromWal checkpoint newBounds newNeighborZone newNeighborIsPositive
        maxEntities records = some (.ok rebuilt) ∧
      rebuilt.entityPosition = final.entityPosition := by
  have capacity : zone.spatialGrid.maxEntities = maxEntities := by
    have kept : ∀ (zone : WorldZone) (operation : ZoneOperation),
        zone.spatialGrid.maxEntities = maxEntities →
          (operation.step zone).spatialGrid.maxEntities = maxEntities :=
      fun zone operation same => (operation.refines zone).capacity.trans same
    rw [reached]
    exact (throughout_of_preserved kept rfl operations).run
  cases captured
  have nobody : ∀ entityId, (WorldZone.new zone.id newBounds newNeighborZone
      newNeighborIsPositive maxEntities).entityPosition entityId = none :=
    fun _ => rfl
  obtain ⟨filled, rehydrated, agree⟩ := rehydrate_capture listed capacity.symm nobody
  obtain ⟨rebuilt, replayed, agreeAfter⟩ :=
    replay_of_logged logged (UInt64.le_refl lastLsn) agree
  refine ⟨rebuilt, ?_, agreeAfter.positions⟩
  rw [reconstructZoneFromWal]
  rw [rehydrated]
  exact replayed

def twoEntities : List ZoneOperation :=
  [.spawn 3 (Vec3Fix.fromI32 1 0 2), .spawn 5 (Vec3Fix.fromI32 70 0 (-9))]

def twoEntitiesZone : WorldZone :=
  run (fun zone operation => ZoneOperation.step zone operation)
    (WorldZone.new ⟨4⟩ ⟨⟨0⟩, ⟨9⟩, ⟨0⟩, ⟨9⟩, .eastWest, ⟨8⟩, ⟨9⟩⟩ none true 8) twoEntities

def recordOf (lsn : UInt64) (operation : ZoneOperation) : WalRecord :=
  (operation.record lsn 0 0).toOption.getD WalRecord.default

theorem loggedAs_recordOf (lsn : UInt64) (operation : ZoneOperation) :
    (recordOf lsn operation).lsn = lsn ∧ operation.LoggedAs (recordOf lsn operation) := by
  obtain ⟨made, new, lsnIs, logged⟩ := operation.record_loggedAs lsn 0 0
  rw [recordOf, new]
  exact ⟨lsnIs, logged⟩

theorem listsActive_twoEntities : ListsActive twoEntitiesZone [3, 5] := by
  refine ⟨by decide, ?_⟩
  intro entityId held
  have positions : twoEntitiesZone.entityPosition =
      Function.update (Function.update (fun _ => none) 3 (some (Vec3Fix.fromI32 1 0 2))) 5
        (some (Vec3Fix.fromI32 70 0 (-9))) := by
    rw [twoEntitiesZone, twoEntities, run_cons, run_cons, run_nil]
    rw [ZoneOperation.step, (ZoneOperation.refines_spawn _ _ _).positions rfl, ZoneOperation.step,
      (ZoneOperation.refines_spawn _ _ _).positions rfl]
    rfl
  rw [positions] at held
  rw [mem_cons, mem_singleton]
  by_contra outside
  rw [not_or] at outside
  rw [update_of_ne outside.2, update_of_ne outside.1] at held
  cases held

/-- An entity is moved, removed and spawned again. -/
def respawn : List ZoneOperation :=
  [.transform 5 (Vec3Fix.fromI32 71 0 0), .despawn 5, .spawn 5 (Vec3Fix.fromI32 0 0 8)]

def respawnJournal : List WalRecord :=
  [recordOf 10 (.spawn 5 (Vec3Fix.fromI32 70 0 (-9))),
    recordOf 11 (.transform 5 (Vec3Fix.fromI32 71 0 0)), recordOf 12 (.despawn 5),
    { WalRecord.default with lsn := 13, opcode := opCurrencyDelta },
    recordOf 14 (.spawn 5 (Vec3Fix.fromI32 0 0 8))]

theorem logged_respawnJournal : Logged 10 10 twoEntitiesZone respawnJournal
      (run (fun zone operation => ZoneOperation.step zone operation) twoEntitiesZone respawn) := by
  apply Logged.covered
  · decide
  apply Logged.mutation (.transform 5 (Vec3Fix.fromI32 71 0 0)) rfl (loggedAs_recordOf 11 _).2
  · rfl
  apply Logged.mutation (.despawn 5) rfl (loggedAs_recordOf 12 _).2
  · rfl
  apply Logged.other (by decide) (by decide) (by decide)
  · rfl
  apply Logged.mutation (.spawn 5 (Vec3Fix.fromI32 0 0 8)) rfl (loggedAs_recordOf 14 _).2
  · rfl
  exact Logged.finish _ _

theorem reconstructZoneFromWal_respawn : ∃ checkpoint rebuilt,
      ZoneCheckpoint.capture twoEntitiesZone 6 10 [3, 5] = .ok checkpoint ∧
      reconstructZoneFromWal checkpoint ⟨⟨0⟩, ⟨9⟩, ⟨0⟩, ⟨9⟩, .eastWest, ⟨8⟩, ⟨9⟩⟩ none true 8
        respawnJournal = some (.ok rebuilt) ∧
      rebuilt.entityPosition =
        (run (fun zone operation => ZoneOperation.step zone operation) twoEntitiesZone
          respawn).entityPosition := by
  have reached : twoEntitiesZone = run (fun zone operation => ZoneOperation.step zone operation)
      (WorldZone.new ⟨4⟩ ⟨⟨0⟩, ⟨9⟩, ⟨0⟩, ⟨9⟩, .eastWest, ⟨8⟩, ⟨9⟩⟩ none true 8) twoEntities :=
    rfl
  obtain ⟨rebuilt, done, positions⟩ :=
    reconstructZoneFromWal_parity reached listsActive_twoEntities rfl logged_respawnJournal
  exact ⟨_, rebuilt, rfl, done, positions⟩

end Eidolon.World
