import Eidolon.Server.MultiProcess
import Eidolon.World.PredictiveMigration

/-!
# The continental orchestrator

A worker of the cluster that announces the migrations it expects to the worker they lead
to, and keeps the announcements that it receives.

An operation yields nothing where an arithmetic operation of it overflows.  The datagrams
that an operation hands to the socket are part of its result; whether they arrive is up
to the network.
-/

namespace Eidolon.Server

open Core Library World

universe u

def opPredictiveMigrationPreAuth : UInt8 := 10

def opPredictiveMigrationCommit : UInt8 := 11

def opShardRebalance : UInt8 := 12

structure ContinentalMetrics where
  rebalancesExecuted : UInt64
  preAuthsIssued : UInt64
  preAuthsCommitted : UInt64
  deriving DecidableEq

structure ContinentalOrchestrator (Address : Type u) where
  localShardId : UInt32
  shardManager : AdaptiveShardManager
  predictor : PredictiveSeamPredictor
  isBound : Bool
  nodeAddrs : Finmap fun _ : UInt32 => Address
  inboundPreAuths : Finmap fun _ : UInt64 => PredictiveMigrationPreAuth
  currentTick : UInt64
  metrics : ContinentalMetrics

variable (bytes : List UInt8) (offset : Nat)

def readU64 : UInt64 :=
  UInt64.ofNat (ofBigEndian ((bytes.drop offset).take 8))

def readU32 : UInt32 :=
  UInt32.ofNat (ofBigEndian ((bytes.drop offset).take 4))

def readI32 : Int32 :=
  (readU32 bytes offset).toInt32

def preAuthPacket (entityId : UInt32) (token : PredictiveMigrationPreAuth) : RealSocketPacket where
  opcode := opPredictiveMigrationPreAuth
  identifier := entityId.toUInt64
  sequence := token.tokenId
  payload :=
    bigEndian 8 token.tokenId.toNat ++ (bigEndian 4 token.entityId.toNat ++
      (bigEndian 4 token.sourceShard.toNat ++ (bigEndian 4 token.targetShard.toNat ++
        (bigEndian 4 token.targetSectorX.toUInt32.toNat ++
          (bigEndian 4 token.targetSectorZ.toUInt32.toNat ++
            (bigEndian 8 token.issuedTick.toNat ++ bigEndian 8 token.expiryTick.toNat))))))

def commitPacket (tokenId : UInt64) (entityId : UInt32) : RealSocketPacket where
  opcode := opPredictiveMigrationCommit
  identifier := entityId.toUInt64
  sequence := tokenId
  payload := bigEndian 8 tokenId.toNat ++ bigEndian 4 entityId.toNat

def rebalancePacket (currentTick : UInt64) (action : ShardRebalanceAction) : RealSocketPacket where
  opcode := opShardRebalance
  identifier := action.toShard.toUInt64
  sequence := currentTick
  payload :=
    bigEndian 4 action.sectorX.toUInt32.toNat ++ (bigEndian 4 action.sectorZ.toUInt32.toNat ++
      (bigEndian 4 action.fromShard.toNat ++ bigEndian 4 action.toShard.toNat))

def readPreAuth (payload : List UInt8) : Option PredictiveMigrationPreAuth :=
  (checkedAdd64 (readU64 payload 28) 30).map fun expiryTick =>
    { tokenId := readU64 payload 0
      entityId := readU32 payload 8
      sourceShard := readU32 payload 12
      targetShard := readU32 payload 16
      targetSectorX := readI32 payload 20
      targetSectorZ := readI32 payload 24
      issuedTick := readU64 payload 28
      expiryTick := expiryTick
      isConsumed := false }

namespace ContinentalOrchestrator

variable {Address : Type u} (orchestrator : ContinentalOrchestrator Address)

/-- The datagrams that a packet becomes if it fits the buffer and a socket is bound. -/
def datagrams (packet : RealSocketPacket) (bufferLen : Nat) (destinations : List Address) :
    List (Address × List UInt8) :=
  match packet.encode bufferLen with
  | .error _ => []
  | .ok bytes => if orchestrator.isBound then destinations.map fun peer => (peer, bytes) else []

def evaluateEntityMovement (entityId : UInt32) (coord : GlobalCoord) (velocity : Vec3Fix) :
    Option (Option PredictiveMigrationPreAuth × ContinentalOrchestrator Address ×
      List (Address × List UInt8)) :=
  match orchestrator.predictor.evaluateAndPreAuthenticate entityId coord velocity
      orchestrator.localShardId orchestrator.shardManager orchestrator.currentTick with
  | (predictor, none) => some (none, { orchestrator with predictor := predictor }, [])
  | (predictor, some token) =>
    (checkedAdd64 orchestrator.metrics.preAuthsIssued 1).map fun issued =>
      (some token,
        { orchestrator with
          predictor := predictor
          metrics := { orchestrator.metrics with preAuthsIssued := issued } },
        orchestrator.datagrams (preAuthPacket entityId token) 256
          (orchestrator.nodeAddrs.lookup token.targetShard).toList)

def commitMigration (tokenId : UInt64) (entityId targetShard : UInt32) :
    Option (Except WorldError PredictiveMigrationPreAuth × ContinentalOrchestrator Address ×
      List (Address × List UInt8)) :=
  match orchestrator.predictor.validateAndConsume tokenId entityId targetShard
      orchestrator.currentTick with
  | (.error error, predictor) =>
    some (.error error, { orchestrator with predictor := predictor }, [])
  | (.ok token, predictor) =>
    (checkedAdd64 orchestrator.metrics.preAuthsCommitted 1).map fun committed =>
      (.ok token,
        { orchestrator with
          predictor := predictor
          metrics := { orchestrator.metrics with preAuthsCommitted := committed } },
        orchestrator.datagrams (commitPacket tokenId entityId) 128
          (orchestrator.nodeAddrs.lookup targetShard).toList)

/-- Advances the tick, drops tokens and rebalances the sectors; every node is told of every
sector that moves.  The two orders are those in which the tables are visited. -/
def stepTick (currentTick : UInt64) (sectorOrder : List (Int32 × Int32)) (nodeOrder : List UInt32) :
    Option (List ShardRebalanceAction × ContinentalOrchestrator Address ×
      List (Address × List UInt8)) :=
  let (shardManager, actions) :=
    orchestrator.shardManager.evaluateRebalance currentTick sectorOrder
  (checkedAdd64 orchestrator.metrics.rebalancesExecuted actions.length.toUInt64).map
    fun executed =>
      (actions,
        { orchestrator with
          currentTick := currentTick
          predictor := orchestrator.predictor.purgeExpired currentTick
          shardManager := shardManager
          metrics := { orchestrator.metrics with rebalancesExecuted := executed } },
        actions.flatMap fun action =>
          orchestrator.datagrams (rebalancePacket currentTick action) 128
            (nodeOrder.filterMap fun shard => orchestrator.nodeAddrs.lookup shard))

def handleClusterPacket (packet : RealSocketPacket) : Option (ContinentalOrchestrator Address) :=
  if packet.opcode = opPredictiveMigrationPreAuth ∧ 36 ≤ packet.payload.length then
    (readPreAuth packet.payload).map fun preAuth =>
      { orchestrator with
        inboundPreAuths := orchestrator.inboundPreAuths.insert preAuth.tokenId preAuth }
  else if packet.opcode = opPredictiveMigrationCommit ∧ 8 ≤ packet.payload.length then
    let tokenId := readU64 packet.payload 0
    match orchestrator.inboundPreAuths.lookup tokenId with
    | none => some orchestrator
    | some token =>
      (checkedAdd64 orchestrator.metrics.preAuthsCommitted 1).map fun committed =>
        { orchestrator with
          inboundPreAuths := orchestrator.inboundPreAuths.insert tokenId
            { token with isConsumed := true }
          metrics := { orchestrator.metrics with preAuthsCommitted := committed } }
  else if packet.opcode = opShardRebalance ∧ 16 ≤ packet.payload.length then
    match orchestrator.shardManager.assignSector (readI32 packet.payload 0)
        (readI32 packet.payload 4) (readU32 packet.payload 12) with
    | .error _ => some orchestrator
    | .ok shardManager => some { orchestrator with shardManager := shardManager }
  else
    some orchestrator

end ContinentalOrchestrator

end Eidolon.Server
