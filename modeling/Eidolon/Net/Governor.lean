import Mathlib.Data.List.GetD
import Eidolon.Library.MachineInt

/-!
# The bandwidth governor

A bucket of tokens for each client, one for a byte, that is refilled every tick.  Updates
are admitted by tier and headroom, and datagrams are paid for when they are sent.
-/

namespace Eidolon.Net

open Library List

inductive DensityProfile where
  | budgetMobile
  | standardMmo
  | massiveFleetOrSiege
  | custom (maxBytesPerSec : UInt32)
  deriving DecidableEq

namespace DensityProfile

def maxBytesPerSec : DensityProfile → UInt32
  | budgetMobile => 1200
  | standardMmo => 2500
  | massiveFleetOrSiege => 4500
  | custom maxBytesPerSec => maxBytesPerSec

def bytesPerTick (profile : DensityProfile) : UInt32 :=
  profile.maxBytesPerSec / 20

def bucketCapacity (profile : DensityProfile) : UInt32 :=
  profile.bytesPerTick * 3

end DensityProfile

structure ClientTokenBucket where
  tokens : UInt32
  bytesSentEpoch : UInt64
  deriving DecidableEq

namespace ClientTokenBucket

def new (initialTokens : UInt32) : ClientTokenBucket where
  tokens := initialTokens
  bytesSentEpoch := 0

variable (bucket : ClientTokenBucket)

def replenish (addTokens maxCapacity : UInt32) :
    ClientTokenBucket :=
  { bucket with tokens := min (saturatingAdd32 bucket.tokens addTokens) maxCapacity }

def canSend (bytes : Nat) : Bool :=
  UInt32.ofNat bytes ≤ bucket.tokens

def consume (bytes : Nat) : Bool × ClientTokenBucket :=
  if UInt32.ofNat bytes ≤ bucket.tokens then
    (true,
      { tokens := bucket.tokens - UInt32.ofNat bytes
        bytesSentEpoch :=
          saturatingAdd64 bucket.bytesSentEpoch (UInt32.ofNat bytes).toUInt64 })
  else
    (false, bucket)

end ClientTokenBucket

structure BandwidthGovernor where
  profile : DensityProfile
  maxClients : Nat
  buckets : List ClientTokenBucket
  active : List Bool
  length_buckets : buckets.length = maxClients
  length_active : active.length = maxClients

namespace BandwidthGovernor

def new (maxClients : Nat) (profile : DensityProfile) : BandwidthGovernor where
  profile := profile
  maxClients := maxClients
  buckets := List.replicate maxClients (ClientTokenBucket.new profile.bucketCapacity)
  active := List.replicate maxClients false
  length_buckets := length_replicate
  length_active := length_replicate

variable (governor : BandwidthGovernor) (clientId : UInt32)

def registerClient : BandwidthGovernor :=
  { governor with
    active := governor.active.set clientId.toNat true
    buckets := governor.buckets.set clientId.toNat
      (ClientTokenBucket.new governor.profile.bucketCapacity)
    length_active := by rw [length_set, governor.length_active]
    length_buckets := by rw [length_set, governor.length_buckets] }

def unregisterClient : BandwidthGovernor :=
  { governor with
    active := governor.active.set clientId.toNat false
    length_active := by rw [length_set, governor.length_active] }

def bucketOf : Option ClientTokenBucket :=
  if governor.active.getD clientId.toNat false then governor.buckets[clientId.toNat]? else none

def tick : BandwidthGovernor :=
  { governor with
    buckets := governor.buckets.mapIdx fun index bucket =>
      if governor.active.getD index false then
        bucket.replenish governor.profile.bytesPerTick governor.profile.bucketCapacity
      else bucket
    length_buckets := by rw [length_mapIdx, governor.length_buckets] }

def canSend (clientId : UInt32) (bytes : Nat) : Bool :=
  (governor.bucketOf clientId).any fun bucket => bucket.canSend bytes

def consume (clientId : UInt32) (bytes : Nat) : Bool × BandwidthGovernor :=
  match governor.bucketOf clientId with
  | none => (false, governor)
  | some bucket =>
    let (paid, changed) := bucket.consume bytes
    (paid,
      { governor with
        buckets := governor.buckets.set clientId.toNat changed
        length_buckets := by rw [length_set, governor.length_buckets] })

def shouldAdmitTier (tierIndex : UInt8) (payloadBytes : Nat) : Bool :=
  match governor.bucketOf clientId with
  | none => false
  | some bucket =>
    let cap := governor.profile.bucketCapacity
    if !bucket.canSend payloadBytes then false
    else if tierIndex = 0 ∨ tierIndex = 1 then true
    else if tierIndex = 2 then cap / 4 ≤ bucket.tokens
    else if tierIndex = 3 then cap / 2 ≤ bucket.tokens
    else cap * 3 / 4 ≤ bucket.tokens

def availableTokens : UInt32 :=
  match governor.bucketOf clientId with
  | none => 0
  | some bucket => bucket.tokens

end BandwidthGovernor

end Eidolon.Net
