import Eidolon.Core.LockFencing

/-!
# Mutual exclusion of the lock table

The slots of a registry are reused, and every operation trusts the first slot it finds for
its pair.  In every run there is no second one, the counter is the number of occupied
slots, and one session at most passes validation for a pair.  A lock goes to another
session without force only when its lease is not active: after it has expired, or at a tick
before the one it was granted at.
-/

namespace Eidolon.Core

open Library

namespace GenerationLockRegistry

variable {capacity : Nat}

def step (registry : GenerationLockRegistry capacity) : LockCall → GenerationLockRegistry capacity
  | .acquire accountId lockId sessionId currentTick leaseDurationTicks forceTakeover =>
    (registry.acquireLock accountId lockId sessionId currentTick leaseDurationTicks forceTakeover).2
  | .release accountId lockId sessionId generation =>
    (registry.releaseLock accountId lockId sessionId generation).2
  | .validate _ _ _ => registry

/-- What the slots of a registry guarantee to those who share it. -/
structure Exclusive (registry : GenerationLockRegistry capacity) : Prop where
  unique : ∀ first second firstToken secondToken,
    registry.entries.get? first = some firstToken →
    registry.entries.get? second = some secondToken →
      firstToken.pair = secondToken.pair → first = second
  counted : registry.count = registry.entries.entries.length
  sole : ∀ first second firstSessionId secondSessionId firstTick secondTick,
    first.pair = second.pair →
    registry.validateMutation first firstSessionId firstTick = .ok () →
    registry.validateMutation second secondSessionId secondTick = .ok () →
      firstSessionId = secondSessionId
  kept : ∀ accountId lockId sessionId currentTick leaseDurationTicks token after,
    registry.acquireLock accountId lockId sessionId currentTick leaseDurationTicks false =
      (.ok token, after) →
    ∀ active ∈ registry.entries.entries, active.pair = (accountId, lockId) →
      active.holderSessionId ≠ sessionId → active.isValidAt currentTick = false

/-- The outcomes of an acquisition: the holder renews, another session takes over what it
may, an empty slot is filled, or nothing changes. -/
inductive Acquired (registry : GenerationLockRegistry capacity) (pair : UInt64 × UInt32)
    (sessionId currentTick : UInt64) (forceTakeover : Bool) :
    Except LockError LockToken × GenerationLockRegistry capacity → Prop
  | renewed {index : Nat} {active token : LockToken}
      (held : registry.entries.get? index = some active) (forPair : active.pair = pair)
      (own : active.holderSessionId = sessionId) :
      Acquired registry pair sessionId currentTick forceTakeover
        (.ok token, { registry with entries := registry.entries.set index (some token) })
  | takenOver {index : Nat} {active token : LockToken}
      (held : registry.entries.get? index = some active) (forPair : active.pair = pair)
      (yields : (active.isValidAt currentTick && !forceTakeover) = false) :
      Acquired registry pair sessionId currentTick forceTakeover
        (.ok token, { registry with entries := registry.entries.set index (some token) })
  | added {index : Nat} {token : LockToken}
      (missing : ∀ active ∈ registry.entries.entries, active.pair ≠ pair)
      (free : registry.entries.firstEmpty? = some index) :
      Acquired registry pair sessionId currentTick forceTakeover
        (.ok token,
          { entries := registry.entries.set index (some token), count := registry.count + 1 })
  | failed {error : LockError} :
      Acquired registry pair sessionId currentTick forceTakeover (.error error, registry)

variable (registry : GenerationLockRegistry capacity)

theorem acquired_acquireLock (accountId : UInt64) (lockId : UInt32)
    (sessionId currentTick : UInt64) (leaseDurationTicks : UInt32) (forceTakeover : Bool) :
    Acquired registry (accountId, lockId) sessionId currentTick forceTakeover
      (registry.acquireLock accountId lockId sessionId currentTick leaseDurationTicks
        forceTakeover) := by
  rw [acquireLock]
  cases found : registry.entries.findFirst? (·.isFor accountId lockId) with
  | some place =>
    rcases place with ⟨index, active⟩
    obtain ⟨held, forPair, -⟩ := SlotArray.findFirst?_eq_some found
    have pairIs := LockToken.isFor_iff.mp forPair
    simp only
    by_cases own : active.holderSessionId = sessionId
    · rw [if_pos own]
      exact .renewed held pairIs own
    rw [if_neg own]
    split
    · exact .failed
    next yields =>
      rw [Bool.not_eq_true] at yields
      exact .takenOver held pairIs yields
  | none =>
    have missing : ∀ active ∈ registry.entries.entries, active.pair ≠ (accountId, lockId) := by
      intro active member same
      have fails := SlotArray.findFirst?_eq_none_iff.mp found active member
      rw [LockToken.isFor_iff.mpr same] at fails
      cases fails
    cases free : registry.entries.firstEmpty? with
    | some index => exact .added missing free
    | none => exact .failed

theorem releaseLock_cases (accountId : UInt64) (lockId : UInt32) (sessionId generation : UInt64) :
    (registry.releaseLock accountId lockId sessionId generation).2 = registry ∨
      ∃ index active, registry.entries.get? index = some active ∧
        (registry.releaseLock accountId lockId sessionId generation).2 =
          { entries := registry.entries.set index none, count := registry.count - 1 } := by
  rw [releaseLock]
  cases found : registry.entries.findFirst? (·.isFor accountId lockId) with
  | some place =>
    rcases place with ⟨index, active⟩
    obtain ⟨held, -, -⟩ := SlotArray.findFirst?_eq_some found
    simp only
    split
    · exact Or.inl rfl
    split
    · exact Or.inl rfl
    exact Or.inr ⟨index, active, held, rfl⟩
  | none => exact Or.inl rfl

theorem holder_of_validateMutation {registry : GenerationLockRegistry capacity}
    {token : LockToken} {sessionId currentTick : UInt64}
    (passes : registry.validateMutation token sessionId currentTick = .ok ()) :
    ∃ index active, registry.entries.get? index = some active ∧ active.pair = token.pair ∧
      active.holderSessionId = sessionId := by
  rw [validateMutation] at passes
  rcases found : registry.entries.findFirst? (·.isFor token.accountId token.lockId) with _ | place
  · rw [found] at passes
    cases passes
  rcases place with ⟨index, active⟩
  obtain ⟨held, forPair, -⟩ := SlotArray.findFirst?_eq_some found
  rw [found] at passes
  simp only at passes
  split at passes
  · cases passes
  next own => exact ⟨index, active, held, LockToken.isFor_iff.mp forPair, not_not.mp own⟩

theorem counted_step {registry : GenerationLockRegistry capacity}
    (counted : registry.count = registry.entries.entries.length) (call : LockCall) :
    (registry.step call).count = (registry.step call).entries.entries.length := by
  cases call with
  | acquire accountId lockId sessionId currentTick leaseDurationTicks forceTakeover =>
    have outcome := acquired_acquireLock registry accountId lockId sessionId currentTick
      leaseDurationTicks forceTakeover
    rw [step]
    generalize registry.acquireLock accountId lockId sessionId currentTick leaseDurationTicks
      forceTakeover = result at outcome ⊢
    cases outcome with
    | renewed held _ _ => exact counted.trans (SlotArray.length_entries_replace held _).symm
    | takenOver held _ _ => exact counted.trans (SlotArray.length_entries_replace held _).symm
    | added _ free =>
      have filled := SlotArray.entries_set_some (SlotArray.firstEmpty?_eq_some free).1
        (SlotArray.firstEmpty?_get? free)
      exact (congrArg (· + 1) counted).trans (filled _).length_eq.symm
    | failed => exact counted
  | release accountId lockId sessionId generation =>
    rw [step]
    rcases registry.releaseLock_cases accountId lockId sessionId generation with
      same | ⟨index, active, held, freed⟩
    · rw [same]
      exact counted
    rw [freed]
    have emptied := (SlotArray.entries_set_none held).length_eq
    rw [List.length_cons] at emptied
    simp only
    omega
  | validate token sessionId currentTick => exact counted

variable (history : LockHistory capacity)

theorem registry_step (call : LockCall) :
    (history.step call).registry = history.registry.step call := by
  cases call with
  | acquire accountId lockId sessionId currentTick leaseDurationTicks forceTakeover =>
    rw [LockHistory.step, step]
    split
    · next granted => rw [granted]
    next refused => rw [refused]
  | release accountId lockId sessionId generation =>
    rw [LockHistory.step, step]
    split
    · next released => rw [released]
    next refused => rw [refused]
  | validate token sessionId currentTick => rfl

/-- The state of a run together with the tokens it issued. -/
private structure Kept (history : LockHistory capacity) : Prop where
  tracked : history.Tracked
  counted : history.registry.count = history.registry.entries.entries.length

private theorem Kept.step {history : LockHistory capacity} (kept : Kept history)
    (call : LockCall) : Kept (history.step call) where
  tracked := LockHistory.tracked_step kept.tracked call
  counted := by
    rw [registry_step]
    exact counted_step kept.counted call

private theorem kept_start (capacity : Nat) : Kept (LockHistory.start capacity) where
  tracked := LockHistory.tracked_start capacity
  counted := by simp [LockHistory.start, new]

private theorem Kept.exclusive {history : LockHistory capacity} (kept : Kept history) :
    history.registry.Exclusive where
  unique := kept.tracked.unique
  counted := kept.counted
  sole := by
    intro first second firstSessionId secondSessionId firstTick secondTick samePair
      firstPasses secondPasses
    obtain ⟨place, active, held, forFirst, own⟩ := holder_of_validateMutation firstPasses
    obtain ⟨other, otherActive, otherHeld, forSecond, otherOwn⟩ :=
      holder_of_validateMutation secondPasses
    have same := kept.tracked.unique place other active otherActive held otherHeld
      (forFirst.trans (samePair.trans forSecond.symm))
    rw [same, otherHeld] at held
    cases held
    exact own.symm.trans otherOwn
  kept := by
    intro accountId lockId sessionId currentTick leaseDurationTicks token after granted active
      member forPair other
    obtain ⟨place, held⟩ := SlotArray.mem_entries_iff_get?.mp member
    have outcome := acquired_acquireLock history.registry accountId lockId sessionId
      currentTick leaseDurationTicks false
    rw [granted] at outcome
    cases outcome with
    | renewed foundHeld foundPair own =>
      have same := kept.tracked.unique _ _ _ _ held foundHeld (forPair.trans foundPair.symm)
      rw [same, foundHeld] at held
      cases held
      exact absurd own other
    | takenOver foundHeld foundPair yields =>
      have same := kept.tracked.unique _ _ _ _ held foundHeld (forPair.trans foundPair.symm)
      rw [same, foundHeld] at held
      cases held
      rwa [Bool.not_false, Bool.and_true] at yields
    | added missing _ => exact absurd forPair (missing active member)

private theorem registry_run (calls : List LockCall) :
    (run LockHistory.step history calls).registry = run step history.registry calls := by
  induction calls generalizing history with
  | nil => rfl
  | cons call calls ih => rw [run_cons, run_cons, ih, registry_step]

/-- In every state that calls on an empty registry reach, each pair has one occupied entry
at most, the counter counts the occupied entries, one session at most passes validation for
a pair, and a lock whose lease is active is not granted to another session without force. -/
theorem exclusive_run (capacity : Nat) (calls : List LockCall) :
    (run step (new capacity) calls).Exclusive := by
  have kept : Kept (run LockHistory.step (LockHistory.start capacity) calls) :=
    (@throughout_of_preserved _ _ LockHistory.step Kept
      (fun _ call keeps => keeps.step call) _ (kept_start capacity) calls).run
  have reached := kept.exclusive
  rwa [registry_run] at reached

/-- A session takes the lock at tick 100 for 20 ticks.  Another one gets it at tick 50
without force, although the lease does not expire before tick 120. -/
theorem granted_beforeGrantedTick :
    let registry := run step (new 1) [.acquire 1001 0 1 100 20 false]
    let active : LockToken :=
      { accountId := 1001, lockId := 0, generation := 1, holderSessionId := 1
        grantedTick := 100, leaseDurationTicks := 20 }
    active ∈ registry.entries.entries ∧ 50 < active.expiresAt ∧
      (registry.acquireLock 1001 0 2 50 20 false).1 =
        .ok { active with generation := 2, holderSessionId := 2, grantedTick := 50 } := by
  decide

end GenerationLockRegistry

end Eidolon.Core
