import Eidolon.Core.GlobalCoord
import Eidolon.Core.Kinematics
import Eidolon.Library.KeyedList
import Eidolon.World.AdaptiveShard

/-!
# Predictive migration

Tokens that authorize the migration of an entity before it crosses into another shard.  A
token is issued for an entity that will be in a sector of another shard half a second
from now, and consumed when the entity crosses.
-/

namespace Eidolon.World

open Core Library List

def maxActivePreAuths : Nat := 512

def defaultPreAuthTtlTicks : UInt64 := 30

def lookaheadSeconds : Fixed64 :=
  Fixed64.half

structure PredictiveMigrationPreAuth where
  tokenId : UInt64
  entityId : UInt32
  sourceShard : UInt32
  targetShard : UInt32
  targetSectorX : Int32
  targetSectorZ : Int32
  issuedTick : UInt64
  expiryTick : UInt64
  isConsumed : Bool
  deriving DecidableEq

namespace PredictiveMigrationPreAuth

variable (token : PredictiveMigrationPreAuth)

def isReclaimable (currentTick : UInt64) : Bool :=
  token.isConsumed || token.expiryTick < currentTick

def unconsumed : PredictiveMigrationPreAuth :=
  { token with isConsumed := false }

def isActiveFor (entityId targetShard : UInt32) (currentTick : UInt64) : Bool :=
  token.entityId == entityId && token.targetShard == targetShard && !token.isConsumed &&
    currentTick ≤ token.expiryTick

end PredictiveMigrationPreAuth

structure PredictiveSeamPredictor where
  tokens : List (Option PredictiveMigrationPreAuth)
  nextTokenId : UInt64
  tokenTtlTicks : UInt64
  length_tokens : tokens.length = maxActivePreAuths

namespace PredictiveSeamPredictor

def default : PredictiveSeamPredictor where
  tokens := List.replicate maxActivePreAuths none
  nextTokenId := 1
  tokenTtlTicks := defaultPreAuthTtlTicks
  length_tokens := length_replicate

def projectEntityTrajectory (currentCoord : GlobalCoord) (velocity : Vec3Fix) : GlobalCoord :=
  currentCoord.translate (velocity.scale lookaheadSeconds)

/-- Where the entity will be, and the other shard that the place is on. -/
def crossing (currentCoord : GlobalCoord) (velocity : Vec3Fix) (sourceShard : UInt32)
    (shardManager : AdaptiveShardManager) : Option (GlobalCoord × UInt32) :=
  let projected := projectEntityTrajectory currentCoord velocity
  match shardManager.getShardForSector projected.sectorX projected.sectorZ with
  | none => none
  | some targetShard => if targetShard = sourceShard then none else some (projected, targetShard)

variable (predictor : PredictiveSeamPredictor)

def activeToken (entityId targetShard : UInt32) (currentTick : UInt64) :
    Option PredictiveMigrationPreAuth :=
  predictor.tokens.findSome? fun slot =>
    slot.filter fun token => token.isActiveFor entityId targetShard currentTick

/-- Stores a token in the first empty slot, else in the first one that can be reclaimed,
else in the very first one. -/
def storeToken (token : PredictiveMigrationPreAuth) (currentTick : UInt64) :
    PredictiveSeamPredictor :=
  let reclaimable := fun slot : Option PredictiveMigrationPreAuth =>
    slot.any fun existing => existing.isReclaimable currentTick
  if none ∈ predictor.tokens then
    { predictor with
      tokens := KeyedList.replace id predictor.tokens none (some token)
      length_tokens := by rw [KeyedList.length_replace, predictor.length_tokens] }
  else if true ∈ predictor.tokens.map reclaimable then
    { predictor with
      tokens := KeyedList.replace reclaimable predictor.tokens true (some token)
      length_tokens := by rw [KeyedList.length_replace, predictor.length_tokens] }
  else
    { predictor with
      tokens := predictor.tokens.set 0 (some token)
      length_tokens := by rw [length_set, predictor.length_tokens] }

/-- The token that is issued when no stored one authorizes the entity. -/
def newToken (entityId : UInt32) (projected : GlobalCoord) (sourceShard targetShard : UInt32)
    (currentTick : UInt64) : PredictiveMigrationPreAuth where
  tokenId := predictor.nextTokenId
  entityId := entityId
  sourceShard := sourceShard
  targetShard := targetShard
  targetSectorX := projected.sectorX
  targetSectorZ := projected.sectorZ
  issuedTick := currentTick
  expiryTick := saturatingAdd64 currentTick predictor.tokenTtlTicks
  isConsumed := false

def evaluateAndPreAuthenticate (entityId : UInt32) (currentCoord : GlobalCoord)
    (velocity : Vec3Fix) (sourceShard : UInt32) (shardManager : AdaptiveShardManager)
    (currentTick : UInt64) : PredictiveSeamPredictor × Option PredictiveMigrationPreAuth :=
  match crossing currentCoord velocity sourceShard shardManager with
  | none => (predictor, none)
  | some (projected, targetShard) =>
    match predictor.activeToken entityId targetShard currentTick with
    | some token => (predictor, some token)
    | none =>
      let token := predictor.newToken entityId projected sourceShard targetShard currentTick
      ({ predictor.storeToken token currentTick with
          nextTokenId := predictor.nextTokenId + 1 }, some token)

def slotId (slot : Option PredictiveMigrationPreAuth) : Option UInt64 :=
  slot.map (·.tokenId)

def validateAndConsume (tokenId : UInt64) (entityId targetShard : UInt32) (currentTick : UInt64) :
    Except WorldError PredictiveMigrationPreAuth × PredictiveSeamPredictor :=
  match KeyedList.find slotId predictor.tokens (some tokenId) with
  | some (some token) =>
    if token.entityId ≠ entityId ∨ token.targetShard ≠ targetShard then
      (.error .preAuthInvalid, predictor)
    else if token.isConsumed then
      (.error .preAuthInvalid, predictor)
    else if token.expiryTick < currentTick then
      (.error .preAuthExpired, predictor)
    else
      let consumed := { token with isConsumed := true }
      (.ok consumed,
        { predictor with
          tokens := KeyedList.replace slotId predictor.tokens (some tokenId) (some consumed)
          length_tokens := by rw [KeyedList.length_replace, predictor.length_tokens] })
  | _ => (.error .preAuthInvalid, predictor)

def purgeExpired (currentTick : UInt64) : PredictiveSeamPredictor :=
  { predictor with
    tokens := predictor.tokens.map fun slot =>
      slot.filter fun token => !token.isReclaimable currentTick
    length_tokens := by rw [length_map, predictor.length_tokens] }

end PredictiveSeamPredictor

end Eidolon.World
