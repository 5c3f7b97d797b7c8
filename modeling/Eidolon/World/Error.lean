import Mathlib.Logic.Basic

/-!
# Errors of the world crate

The variants of `WorldError` that the modelled functions return.
-/

namespace Eidolon.World

/-- Identifier of a zone. -/
structure ZoneId where
  value : UInt32
  deriving DecidableEq

structure InstanceId where
  value : UInt64
  deriving DecidableEq

inductive WorldError where
  | zoneNotFound (zoneId : ZoneId)
  | entityNotFound (entityId : UInt32)
  | entityAlreadyExists (entityId : UInt32)
  | zoneFull (zoneId : ZoneId)
  | walBufferFull
  | walStorageUnavailable
  | walCorruptedRecord (reason : String)
  | walChecksumMismatch (expected actual : UInt32)
  | walLsnRegression (current incoming : UInt64)
  | transactionAborted (reason : String)
  | insufficientBalance (required actual : UInt64)
  | itemNotFound (itemId : UInt32)
  | duplicateTransaction (txId : UInt64)
  | staleSessionMutation (expected actual : UInt64)
  | partitionSevered (localZone remoteZone : ZoneId)
  | leaseExpired (leaseId : UInt64) (zoneId : ZoneId)
  | shardNotFound (shardId : UInt32)
  | snapshotCorrupted
  | invalidSnapshot (reason : String)
  | preAuthInvalid
  | preAuthExpired
  | structureNotFound (structureId : UInt32)
  | pieceNotFound (pieceId : UInt32)
  | structurallyUnsound
  | instanceNotFound (instanceId : InstanceId)
  | instancePoolExhausted
  | invalidInstanceState (expected actual : String)
  | partyFull
  deriving DecidableEq

end Eidolon.World
