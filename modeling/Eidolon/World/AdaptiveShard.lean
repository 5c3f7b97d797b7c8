import Mathlib.Data.Finmap
import Eidolon.Library.MachineInt
import Eidolon.World.Error

/-!
# Adaptive shards

The assignment of sectors to worker shards.  Sectors with many entities are moved away
from the background shard, and sectors with few entities back to it.
-/

namespace Eidolon.World

open Library

def maxWorkerShards : Nat := 64

def defaultHotspotEntityThreshold : UInt32 := 500

def defaultWildernessEntityThreshold : UInt32 := 10

inductive RebalanceReason where
  | hotspotContraction
  | wildernessMerge
  | workerOverload
  | manual
  deriving DecidableEq

structure ShardRebalanceAction where
  sectorX : Int32
  sectorZ : Int32
  fromShard : UInt32
  toShard : UInt32
  reason : RebalanceReason
  deriving DecidableEq

structure ShardMetrics where
  shardId : UInt32
  activeSectors : UInt32
  totalEntities : UInt32
  deriving DecidableEq

structure SectorMetadata where
  shardId : UInt32
  entityCount : UInt32
  lastRebalancedTick : UInt64
  deriving DecidableEq

structure AdaptiveShardManager where
  shards : List ShardMetrics
  shardCount : Nat
  sectors : Finmap fun _ : Int32 × Int32 => SectorMetadata
  hotspotThreshold : UInt32
  wildernessThreshold : UInt32
  backgroundShardId : UInt32

def ShardMetrics.new (shardId : UInt32) : ShardMetrics where
  shardId := shardId
  activeSectors := 0
  totalEntities := 0

def ShardMetrics.losing (metrics : ShardMetrics) (entityCount : UInt32) : ShardMetrics :=
  { metrics with
    activeSectors := saturatingSub32 metrics.activeSectors 1
    totalEntities := saturatingSub32 metrics.totalEntities entityCount }

def ShardMetrics.gaining (metrics : ShardMetrics) (entityCount : UInt32) : ShardMetrics :=
  { metrics with
    activeSectors := saturatingAdd32 metrics.activeSectors 1
    totalEntities := saturatingAdd32 metrics.totalEntities entityCount }

namespace AdaptiveShardManager

def new (numShards : Nat) : Except WorldError AdaptiveShardManager :=
  let count := min numShards maxWorkerShards
  if count = 0 then
    .error (.shardNotFound 0)
  else
    .ok
      { shards := (List.range maxWorkerShards).map fun index =>
          ShardMetrics.new (if index < count then UInt32.ofNat index else 0)
        shardCount := count
        sectors := ∅
        hotspotThreshold := defaultHotspotEntityThreshold
        wildernessThreshold := defaultWildernessEntityThreshold
        backgroundShardId := 0 }

variable (manager : AdaptiveShardManager)

def configureThresholds (hotspot wilderness : UInt32) (backgroundShard : UInt32) :
    AdaptiveShardManager :=
  { manager with
    hotspotThreshold := hotspot
    wildernessThreshold := wilderness
    backgroundShardId :=
      if backgroundShard.toNat < manager.shardCount then backgroundShard
      else manager.backgroundShardId }

def shardMetrics (shardId : UInt32) : Option ShardMetrics :=
  if shardId.toNat < manager.shardCount then manager.shards[shardId.toNat]? else none

def getShardForSector (sectorX sectorZ : Int32) : Option UInt32 :=
  (manager.sectors.lookup (sectorX, sectorZ)).map (·.shardId)

def moveMetrics (shards : List ShardMetrics) (fromShard toShard entityCount : UInt32) :
    List ShardMetrics :=
  (shards.modify fromShard.toNat fun metrics => metrics.losing entityCount).modify
    toShard.toNat fun metrics => metrics.gaining entityCount

def assignSector (sectorX sectorZ : Int32) (shardId : UInt32) :
    Except WorldError AdaptiveShardManager :=
  if manager.shardCount ≤ shardId.toNat then
    .error (.shardNotFound shardId)
  else
    match manager.sectors.lookup (sectorX, sectorZ) with
    | some metadata =>
      if metadata.shardId ≠ shardId then
        .ok
          { manager with
            sectors := manager.sectors.insert (sectorX, sectorZ)
              { metadata with shardId := shardId }
            shards := moveMetrics manager.shards metadata.shardId shardId metadata.entityCount }
      else
        .ok manager
    | none =>
      .ok
        { manager with
          sectors := manager.sectors.insert (sectorX, sectorZ)
            { shardId := shardId, entityCount := 0, lastRebalancedTick := 0 }
          shards := manager.shards.modify shardId.toNat fun metrics => metrics.gaining 0 }

def updateSectorEntityCount (sectorX sectorZ : Int32) (newCount : UInt32) :
    Except WorldError AdaptiveShardManager :=
  match manager.sectors.lookup (sectorX, sectorZ) with
  | none => .error (.entityNotFound 0)
  | some metadata =>
    .ok
      { manager with
        sectors := manager.sectors.insert (sectorX, sectorZ)
          { metadata with entityCount := newCount }
        shards := manager.shards.modify metadata.shardId.toNat fun shard =>
          { shard with
            totalEntities := saturatingAdd32
              (saturatingSub32 shard.totalEntities metadata.entityCount) newCount } }

def moveSector (reason : RebalanceReason) (sectorX sectorZ : Int32) (target : UInt32)
    (currentTick : UInt64) :
    Except WorldError (ShardRebalanceAction × AdaptiveShardManager) :=
  match manager.sectors.lookup (sectorX, sectorZ) with
  | none => .error (.shardNotFound 0)
  | some metadata =>
    let action : ShardRebalanceAction :=
      ⟨sectorX, sectorZ, metadata.shardId, target, reason⟩
    if metadata.shardId = target then
      .ok (action, manager)
    else
      .ok (action,
        { manager with
          sectors := manager.sectors.insert (sectorX, sectorZ)
            { metadata with shardId := target, lastRebalancedTick := currentTick }
          shards := moveMetrics manager.shards metadata.shardId target metadata.entityCount })

def contractHotspotToShard (sectorX sectorZ : Int32) (target : UInt32) (currentTick : UInt64) :
    Except WorldError (ShardRebalanceAction × AdaptiveShardManager) :=
  if manager.shardCount ≤ target.toNat then
    .error (.shardNotFound target)
  else
    manager.moveSector .hotspotContraction sectorX sectorZ target currentTick

def mergeWildernessToBackground (sectorX sectorZ : Int32) (currentTick : UInt64) :
    Except WorldError (ShardRebalanceAction × AdaptiveShardManager) :=
  manager.moveSector .wildernessMerge sectorX sectorZ manager.backgroundShardId currentTick

/-- The manager after an attempted move, and the action if something moved. -/
def applied (moved : Except WorldError (ShardRebalanceAction × AdaptiveShardManager)) :
    AdaptiveShardManager × List ShardRebalanceAction :=
  match moved with
  | .error _ => (manager, [])
  | .ok (action, changed) => (changed, if action.fromShard ≠ action.toShard then [action] else [])

def leastLoaded : Option UInt32 :=
  ((manager.shards.take manager.shardCount).foldl (fun (best : Option UInt32 × UInt32) shard =>
      if shard.shardId ≠ manager.backgroundShardId ∧ shard.totalEntities < best.2 then
        (some shard.shardId, shard.totalEntities)
      else best)
    (none, 0xFFFFFFFF)).1

def isHotspot (metadata : SectorMetadata) : Bool :=
  manager.hotspotThreshold ≤ metadata.entityCount && metadata.shardId == manager.backgroundShardId

def isWilderness (metadata : SectorMetadata) : Bool :=
  metadata.entityCount ≤ manager.wildernessThreshold &&
    metadata.shardId != manager.backgroundShardId

def candidates (fits : SectorMetadata → Bool) (order : List (Int32 × Int32)) :
    List (Int32 × Int32) :=
  order.filter fun sector => (manager.sectors.lookup sector).any fits

/-- Moves wilderness to the background shard and hotspots away from it.  The order is the
one in which the table of sectors is visited. -/
def evaluateRebalance (currentTick : UInt64) (order : List (Int32 × Int32)) :
    AdaptiveShardManager × List ShardRebalanceAction :=
  let wilderness := manager.candidates
    (fun metadata => !manager.isHotspot metadata && manager.isWilderness metadata) order
  let hotspots := manager.candidates manager.isHotspot order
  let merged := wilderness.foldl
    (fun (state : AdaptiveShardManager × List ShardRebalanceAction) sector =>
      let moved := state.1.applied
        (state.1.mergeWildernessToBackground sector.1 sector.2 currentTick)
      (moved.1, state.2 ++ moved.2))
    (manager, [])
  hotspots.foldl (fun (state : AdaptiveShardManager × List ShardRebalanceAction) sector =>
      match state.1.leastLoaded with
      | none => state
      | some target =>
        let moved := state.1.applied
          (state.1.contractHotspotToShard sector.1 sector.2 target currentTick)
        (moved.1, state.2 ++ moved.2))
    merged

end AdaptiveShardManager

end Eidolon.World
