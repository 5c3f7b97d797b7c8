import Eidolon.Library.MachineInt
import Eidolon.Library.SlotArray

/-!
# Generation locks

Authorization tokens with a generation counter and a lease, and the fixed-capacity
registry of the active ones.  An entry of the registry that is not occupied is an empty
slot: nothing reads the token that the source leaves in it.
-/

namespace Eidolon.Core

open Library

def maxTrackedLocks : Nat := 1024

inductive LockError where
  | contention (accountId : UInt64) (lockId : UInt32) (holderSessionId remainingTicks : UInt64)
  | staleGeneration (expected actual : UInt64)
  | sessionMismatch (expected actual : UInt64)
  | leaseExpired (expiredAtTick currentTick : UInt64)
  | capacityExceeded
  deriving DecidableEq

/-- Authorization token proving ownership of a lock. -/
structure LockToken where
  accountId : UInt64
  lockId : UInt32
  generation : UInt64
  holderSessionId : UInt64
  grantedTick : UInt64
  leaseDurationTicks : UInt32
  deriving DecidableEq

namespace LockToken

variable (token : LockToken)

def expiresAt : UInt64 :=
  saturatingAdd64 token.grantedTick token.leaseDurationTicks.toUInt64

def isValidAt (currentTick : UInt64) : Bool :=
  decide (token.grantedTick ≤ currentTick) && decide (currentTick < token.expiresAt)

def isFor (accountId : UInt64) (lockId : UInt32) : Bool :=
  decide (token.accountId = accountId) && decide (token.lockId = lockId)

end LockToken

structure GenerationLockRegistry (capacity : Nat) where
  entries : SlotArray capacity LockToken
  count : Nat
  deriving DecidableEq

namespace GenerationLockRegistry

variable {capacity : Nat}

def new (capacity : Nat) : GenerationLockRegistry capacity where
  entries := SlotArray.empty _ _
  count := 0

variable (registry : GenerationLockRegistry capacity)

def acquireLock (accountId : UInt64) (lockId : UInt32) (sessionId currentTick : UInt64)
    (leaseDurationTicks : UInt32) (forceTakeover : Bool) :
    Except LockError LockToken × GenerationLockRegistry capacity :=
  match registry.entries.findFirst? (·.isFor accountId lockId) with
  | some (index, token) =>
    if token.holderSessionId = sessionId then
      -- the same session renews its lease under the same generation
      let renewed : LockToken :=
        { token with grantedTick := currentTick, leaseDurationTicks := leaseDurationTicks }
      (.ok renewed, { registry with entries := registry.entries.set index (some renewed) })
    else if token.isValidAt currentTick && !forceTakeover then
      (.error (.contention accountId lockId token.holderSessionId
        (if currentTick ≤ token.expiresAt then token.expiresAt - currentTick else 0)),
        registry)
    else
      let granted : LockToken :=
        { accountId := accountId
          lockId := lockId
          generation := saturatingAdd64 token.generation 1
          holderSessionId := sessionId
          grantedTick := currentTick
          leaseDurationTicks := leaseDurationTicks }
      (.ok granted, { registry with entries := registry.entries.set index (some granted) })
  | none =>
    match registry.entries.firstEmpty? with
    | some index =>
      let granted : LockToken :=
        { accountId := accountId
          lockId := lockId
          generation := 1
          holderSessionId := sessionId
          grantedTick := currentTick
          leaseDurationTicks := leaseDurationTicks }
      (.ok granted,
        { entries := registry.entries.set index (some granted)
          count := registry.count + 1 })
    | none => (.error .capacityExceeded, registry)

def validateMutation (token : LockToken) (sessionId currentTick : UInt64) : Except LockError Unit :=
  match registry.entries.findFirst? (·.isFor token.accountId token.lockId) with
  | some (_, active) =>
    if active.holderSessionId ≠ sessionId then
      .error (.sessionMismatch active.holderSessionId sessionId)
    else if active.generation ≠ token.generation then
      .error (.staleGeneration active.generation token.generation)
    else if !active.isValidAt currentTick then
      .error (.leaseExpired active.expiresAt currentTick)
    else
      .ok ()
  | none => .error (.leaseExpired token.expiresAt currentTick)

def releaseLock (accountId : UInt64) (lockId : UInt32) (sessionId generation : UInt64) :
    Except LockError Unit × GenerationLockRegistry capacity :=
  match registry.entries.findFirst? (·.isFor accountId lockId) with
  | some (index, active) =>
    if active.holderSessionId ≠ sessionId then
      (.error (.sessionMismatch active.holderSessionId sessionId), registry)
    else if active.generation ≠ generation then
      (.error (.staleGeneration active.generation generation), registry)
    else
      (.ok (), { entries := registry.entries.set index none, count := registry.count - 1 })
  | none => (.ok (), registry)

end GenerationLockRegistry

end Eidolon.Core
