import Eidolon.Core.Lock
import Eidolon.Library.Run

/-!
# Fencing of stale lock tokens

Runs of a lock registry together with the tokens that it has issued.  A token is retired
when the lock of its pair is released or granted anew to another session.  The registry
keeps generations in occupied slots only, so that a pair that is released and acquired
again starts over at the first generation, and the counter stops at its largest value.
Both bring retired tokens back to life, and nothing else does.
-/

namespace Eidolon.Core

open Library List Option

namespace LockToken

def pair (token : LockToken) : UInt64 × UInt32 :=
  (token.accountId, token.lockId)

theorem isFor_iff {token : LockToken} {accountId : UInt64} {lockId : UInt32} :
    token.isFor accountId lockId = true ↔ token.pair = (accountId, lockId) := by
  simp [isFor, pair]

end LockToken

/-- One call on a registry. -/
inductive LockCall where
  | acquire (accountId : UInt64) (lockId : UInt32) (sessionId currentTick : UInt64)
      (leaseDurationTicks : UInt32) (forceTakeover : Bool)
  | release (accountId : UInt64) (lockId : UInt32) (sessionId generation : UInt64)
  | validate (token : LockToken) (sessionId currentTick : UInt64)

structure LockHistory (capacity : Nat) where
  registry : GenerationLockRegistry capacity
  issued : List LockToken
  retired : List LockToken

namespace LockHistory

variable {capacity : Nat}

def start (capacity : Nat) : LockHistory capacity where
  registry := GenerationLockRegistry.new capacity
  issued := []
  retired := []

variable (history : LockHistory capacity)

def retire (accountId : UInt64) (lockId : UInt32) : List LockToken :=
  history.issued.filter (·.isFor accountId lockId) ++ history.retired

def renews (accountId : UInt64) (lockId : UInt32) (sessionId : UInt64) : Bool :=
  (history.registry.entries.findFirst? (·.isFor accountId lockId)).any
    fun (_, active) => decide (active.holderSessionId = sessionId)

def step (history : LockHistory capacity) : LockCall → LockHistory capacity
  | .acquire accountId lockId sessionId currentTick leaseDurationTicks forceTakeover =>
    match history.registry.acquireLock accountId lockId sessionId currentTick
      leaseDurationTicks forceTakeover with
    | (.ok token, after) =>
      { registry := after
        issued := token :: history.issued
        retired :=
          if history.renews accountId lockId sessionId then history.retired
          else history.retire accountId lockId }
    | (.error _, after) => { history with registry := after }
  | .release accountId lockId sessionId generation =>
    match history.registry.releaseLock accountId lockId sessionId generation with
    | (.ok (), after) =>
      { history with registry := after, retired := history.retire accountId lockId }
    | (.error _, after) => { history with registry := after }
  | .validate _ _ _ => history

/-- No retired token passes validation, whichever session presents it and whenever, and
the generation of an active lock is past those of all retired tokens of its pair. -/
def Fenced : Prop :=
  ∀ token ∈ history.retired, (∀ sessionId currentTick,
      history.registry.validateMutation token sessionId currentTick ≠ .ok ()) ∧
    ∀ active ∈ history.registry.entries.entries,
      active.pair = token.pair → token.generation < active.generation

/-- A call that grants a lock to a new holder does so for a pair without an issued token,
or over an entry whose generation can still grow. -/
def Advances (history : LockHistory capacity) : LockCall → Prop
  | .acquire accountId lockId sessionId currentTick _ forceTakeover =>
    match history.registry.entries.findFirst? (·.isFor accountId lockId) with
    | some (_, active) =>
      active.holderSessionId ≠ sessionId →
        (active.isValidAt currentTick && !forceTakeover) = false →
          active.generation.toNat ≠ 2 ^ 64 - 1
    | none =>
      history.registry.entries.firstEmpty?.isSome →
        ∀ token ∈ history.issued, token.pair ≠ (accountId, lockId)
  | .release _ _ _ _ => True
  | .validate _ _ _ => True

/-- Each pair has one entry at most, entries hold issued tokens, and an issued token is
retired or of the generation of the entry of its pair. -/
structure Tracked (history : LockHistory capacity) : Prop where
  unique : ∀ first second firstToken secondToken,
    history.registry.entries.get? first = some firstToken →
    history.registry.entries.get? second = some secondToken →
      firstToken.pair = secondToken.pair → first = second
  active_issued : ∀ active ∈ history.registry.entries.entries, active ∈ history.issued
  current : ∀ token ∈ history.issued, token ∈ history.retired ∨
    ∃ active ∈ history.registry.entries.entries,
      active.pair = token.pair ∧ active.generation = token.generation
  positive : ∀ token ∈ history.issued, 0 < token.generation.toNat
  retired_issued : ∀ token ∈ history.retired, token ∈ history.issued

theorem tracked_start (capacity : Nat) : Tracked (start capacity) := by
  refine ⟨?_, ?_, ?_, ?_, ?_⟩
  · intro first second firstToken secondToken held
    have member := SlotArray.mem_entries_of_get? held
    simp [start, GenerationLockRegistry.new] at member
  · intro active member
    simp [start, GenerationLockRegistry.new] at member
  · intro token member
    cases member
  · intro token member
    cases member
  intro token member
  cases member

theorem fenced_start (capacity : Nat) : Fenced (start capacity) := by
  intro token member
  cases member

private theorem validateMutation_ne_ok {registry : GenerationLockRegistry capacity}
    {token : LockToken}
    (behind : ∀ active ∈ registry.entries.entries,
      active.pair = token.pair → token.generation < active.generation)
    (sessionId currentTick : UInt64) :
    registry.validateMutation token sessionId currentTick ≠ .ok () := by
  intro passes
  rw [GenerationLockRegistry.validateMutation] at passes
  rcases found : registry.entries.findFirst? (·.isFor token.accountId token.lockId) with _ | place
  · rw [found] at passes
    cases passes
  rcases place with ⟨index, active⟩
  obtain ⟨held, forPair, -⟩ := SlotArray.findFirst?_eq_some found
  have older := behind active (SlotArray.mem_entries_of_get? held) (LockToken.isFor_iff.mp forPair)
  have different : active.generation ≠ token.generation := by
    intro same
    rw [same] at older
    exact absurd older (UInt64.lt_irrefl _)
  rw [found] at passes
  simp only [different, ne_eq, not_false_eq_true, if_true] at passes
  split at passes <;> cases passes

private theorem fenced_iff {history : LockHistory capacity} :
    Fenced history ↔ ∀ token ∈ history.retired, ∀ active ∈ history.registry.entries.entries,
        active.pair = token.pair → token.generation < active.generation :=
  ⟨fun fenced token member => (fenced token member).2,
    fun behind token member =>
      ⟨validateMutation_ne_ok (behind token member), behind token member⟩⟩

variable {history : LockHistory capacity} {accountId : UInt64} {lockId : UInt32}
  {index count : Nat} {active granted renewed token : LockToken}

/-- An index at which a token can be put: no other slot holds an entry of its pair, and
the slot itself holds nothing else. -/
private structure Fits (registry : GenerationLockRegistry capacity) (index : Nat)
    (pair : UInt64 × UInt32) : Prop where
  inside : index < capacity
  only : ∀ place other, registry.entries.get? place = some other → other.pair = pair →
    place = index
  here : ∀ other, registry.entries.get? index = some other → other.pair = pair

private theorem fits_of_found (tracked : Tracked history)
    (found : history.registry.entries.findFirst? (·.isFor accountId lockId) = some (index, active)) :
    Fits history.registry index (accountId, lockId) := by
  obtain ⟨held, forPair, -⟩ := SlotArray.findFirst?_eq_some found
  have pairIs := LockToken.isFor_iff.mp forPair
  refine ⟨SlotArray.lt_of_get? held, ?_, ?_⟩
  · intro place other otherHeld samePair
    exact tracked.unique place index other active otherHeld held (samePair.trans pairIs.symm)
  intro other otherHeld
  rw [held] at otherHeld
  cases otherHeld
  exact pairIs

private theorem fits_of_empty {registry : GenerationLockRegistry capacity}
    (missing : registry.entries.findFirst? (·.isFor accountId lockId) = none)
    (free : registry.entries.firstEmpty? = some index) :
    Fits registry index (accountId, lockId) := by
  refine ⟨(SlotArray.firstEmpty?_eq_some free).1, ?_, ?_⟩
  · intro place other held samePair
    have fails := SlotArray.findFirst?_eq_none_iff.mp missing other
      (SlotArray.mem_entries_of_get? held)
    rw [LockToken.isFor_iff.mpr samePair] at fails
    cases fails
  intro other held
  rw [SlotArray.firstEmpty?_get? free] at held
  cases held

private theorem mem_entries_granted {registry : GenerationLockRegistry capacity}
    (fits : Fits registry index granted.pair) :
    active ∈ (registry.entries.set index (some granted)).entries ↔
      active = granted ∨ (active ∈ registry.entries.entries ∧ active.pair ≠ granted.pair) := by
  constructor
  · intro member
    obtain ⟨place, held⟩ := SlotArray.mem_entries_iff_get?.mp member
    by_cases same : index = place
    · subst same
      rw [SlotArray.get?_set_self fits.inside] at held
      exact .inl (some.inj held).symm
    rw [SlotArray.get?_set_of_ne same] at held
    refine .inr ⟨SlotArray.mem_entries_of_get? held, ?_⟩
    intro samePair
    exact same (fits.only place active held samePair).symm
  intro either
  rcases either with this | other
  · rw [this]
    exact SlotArray.mem_entries_of_get? (SlotArray.get?_set_self fits.inside _)
  obtain ⟨place, held⟩ := SlotArray.mem_entries_iff_get?.mp other.1
  have apart : index ≠ place := by
    intro same
    rw [← same] at held
    exact other.2 (fits.here active held)
  apply SlotArray.mem_entries_of_get?
  rw [SlotArray.get?_set_of_ne apart]
  exact held

private abbrev put (history : LockHistory capacity) (index : Nat) (granted : LockToken)
    (count : Nat) (retired : List LockToken) : LockHistory capacity where
  registry := { entries := history.registry.entries.set index (some granted), count := count }
  issued := granted :: history.issued
  retired := retired

private theorem tracked_grant (tracked : Tracked history) {retired : List LockToken}
    (fits : Fits history.registry index granted.pair) (positive : 0 < granted.generation.toNat)
    (kept : ∀ token ∈ history.retired, token ∈ retired)
    (old : ∀ token ∈ retired, token ∈ history.issued)
    (covered : ∀ token ∈ history.issued, token.pair = granted.pair →
      token ∈ retired ∨ token.generation = granted.generation) :
    Tracked (history.put index granted count retired) := by
  have place_of : ∀ place token,
      (history.registry.entries.set index (some granted)).get? place = some token →
        token.pair = granted.pair → place = index := by
    intro place token held samePair
    by_contra apart
    rw [SlotArray.get?_set_of_ne (Ne.symm apart)] at held
    exact apart (fits.only place token held samePair)
  refine ⟨?_, ?_, ?_, ?_, ?_⟩
  · intro first second firstToken secondToken firstHeld secondHeld samePair
    by_cases forPair : firstToken.pair = granted.pair
    · rw [place_of first firstToken firstHeld forPair,
        place_of second secondToken secondHeld (samePair.symm.trans forPair)]
    have firstApart : index ≠ first := by
      intro same
      subst same
      rw [SlotArray.get?_set_self fits.inside] at firstHeld
      cases firstHeld
      exact forPair rfl
    have secondApart : index ≠ second := by
      intro same
      subst same
      rw [SlotArray.get?_set_self fits.inside] at secondHeld
      cases secondHeld
      exact forPair samePair
    rw [SlotArray.get?_set_of_ne firstApart] at firstHeld
    rw [SlotArray.get?_set_of_ne secondApart] at secondHeld
    exact tracked.unique first second firstToken secondToken firstHeld secondHeld samePair
  · intro active member
    rcases (mem_entries_granted fits).mp member with this | other
    · rw [this]
      exact mem_cons_self
    exact mem_cons_of_mem _ (tracked.active_issued active other.1)
  · intro token member
    have grantedMember : granted ∈ (history.registry.entries.set index (some granted)).entries :=
      (mem_entries_granted fits).mpr (.inl rfl)
    rcases List.mem_cons.mp member with this | before
    · exact .inr ⟨granted, grantedMember, by rw [this], by rw [this]⟩
    rcases tracked.current token before with gone | live
    · exact .inl (kept token gone)
    rcases live with ⟨active, activeMember, samePair, sameGeneration⟩
    by_cases forPair : token.pair = granted.pair
    · rcases covered token before forPair with gone | renewed
      · exact .inl gone
      exact .inr ⟨granted, grantedMember, forPair.symm, renewed.symm⟩
    refine .inr ⟨active, ?_, samePair, sameGeneration⟩
    refine (mem_entries_granted fits).mpr (.inr ⟨activeMember, ?_⟩)
    rw [samePair]
    exact forPair
  · intro token member
    rcases List.mem_cons.mp member with this | before
    · rw [this]
      exact positive
    exact tracked.positive token before
  intro token member
  exact mem_cons_of_mem _ (old token member)

/-- A grant to a new holder keeps the fence exactly if its generation is past those of
all tokens issued for the pair. -/
private theorem fenced_grant_iff (tracked : Tracked history) (fenced : Fenced history)
    (forPair : granted.pair = (accountId, lockId))
    (fits : Fits history.registry index (accountId, lockId)) :
    Fenced (history.put index granted count (history.retire accountId lockId)) ↔
      ∀ token ∈ history.issued, token.pair = (accountId, lockId) →
        token.generation < granted.generation := by
  rw [← forPair] at fits
  rw [fenced_iff]
  constructor
  · intro behind token member samePair
    apply behind token
    · exact mem_append_left _ (List.mem_filter.mpr ⟨member, LockToken.isFor_iff.mpr samePair⟩)
    · exact (mem_entries_granted fits).mpr (.inl rfl)
    exact forPair.trans samePair.symm
  intro past token member active activeMember samePair
  have issued : token ∈ history.issued := by
    rcases List.mem_append.mp member with now | before
    · exact (List.mem_filter.mp now).1
    exact tracked.retired_issued token before
  rcases (mem_entries_granted fits).mp activeMember with this | other
  · rw [this] at samePair ⊢
    exact past token issued (samePair.symm.trans forPair)
  have notNow : token ∉ history.issued.filter (·.isFor accountId lockId) := by
    intro now
    apply other.2
    rw [samePair, forPair]
    exact LockToken.isFor_iff.mp (List.mem_filter.mp now).2
  have before := (List.mem_append.mp member).resolve_left notNow
  exact (fenced token before).2 active other.1 samePair

private theorem mem_retire : token ∈ history.retire accountId lockId ↔
      (token ∈ history.issued ∧ token.pair = (accountId, lockId)) ∨ token ∈ history.retired := by
  rw [retire, mem_append, mem_filter, LockToken.isFor_iff]

private theorem retire_issued (tracked : Tracked history)
    (member : token ∈ history.retire accountId lockId) : token ∈ history.issued := by
  rcases mem_retire.mp member with now | before
  · exact now.1
  exact tracked.retired_issued token before

private theorem tracked_newGrant (tracked : Tracked history)
    (forPair : granted.pair = (accountId, lockId))
    (fits : Fits history.registry index (accountId, lockId))
    (positive : 0 < granted.generation.toNat) :
    Tracked (history.put index granted count (history.retire accountId lockId)) := by
  apply tracked_grant tracked (by rw [forPair]; exact fits) positive
  · intro token member
    exact mem_retire.mpr (.inr member)
  · intro token member
    exact (retire_issued tracked member :)
  intro token member samePair
  exact .inl (mem_retire.mpr (.inl ⟨member, samePair.trans forPair⟩))

private theorem tracked_renewal (tracked : Tracked history)
    (found : history.registry.entries.findFirst? (·.isFor accountId lockId) = some (index, active))
    (samePair : renewed.pair = active.pair)
    (sameGeneration : renewed.generation = active.generation) :
    Tracked (history.put index renewed history.registry.count history.retired) := by
  obtain ⟨held, forPair, -⟩ := SlotArray.findFirst?_eq_some found
  have fits := fits_of_found tracked found
  rw [← LockToken.isFor_iff.mp forPair, ← samePair] at fits
  have issued := tracked.active_issued active (SlotArray.mem_entries_of_get? held)
  apply tracked_grant tracked fits
  · rw [sameGeneration]
    exact tracked.positive active issued
  · exact fun token member => member
  · exact tracked.retired_issued
  intro token member tokenPair
  rcases tracked.current token member with gone | live
  · exact .inl gone
  rcases live with ⟨other, otherMember, otherPair, otherGeneration⟩
  obtain ⟨place, otherHeld⟩ := SlotArray.mem_entries_iff_get?.mp otherMember
  have same := fits.only place other otherHeld (otherPair.trans tokenPair)
  rw [same, held] at otherHeld
  cases otherHeld
  exact .inr (otherGeneration.symm.trans sameGeneration.symm)

private theorem fenced_renewal (tracked : Tracked history) (fenced : Fenced history)
    (found : history.registry.entries.findFirst? (·.isFor accountId lockId) = some (index, active))
    (samePair : renewed.pair = active.pair)
    (sameGeneration : renewed.generation = active.generation) :
    Fenced (history.put index renewed history.registry.count history.retired) := by
  obtain ⟨held, forPair, -⟩ := SlotArray.findFirst?_eq_some found
  have fits := fits_of_found tracked found
  rw [← LockToken.isFor_iff.mp forPair, ← samePair] at fits
  rw [fenced_iff]
  intro token member other otherMember otherPair
  rcases (mem_entries_granted fits).mp otherMember with this | unchanged
  · rw [this] at otherPair ⊢
    rw [sameGeneration]
    exact (fenced token member).2 active (SlotArray.mem_entries_of_get? held)
      (samePair.symm.trans otherPair)
  exact (fenced token member).2 other unchanged.1 otherPair

private theorem tracked_release (tracked : Tracked history)
    (found : history.registry.entries.findFirst? (·.isFor accountId lockId) = some (index, active)) :
    Tracked
      { registry := { entries := history.registry.entries.set index none, count := count }
        issued := history.issued
        retired := history.retire accountId lockId } := by
  have fits := fits_of_found tracked found
  have before_of : ∀ place token,
      (history.registry.entries.set index none).get? place = some token →
        history.registry.entries.get? place = some token := by
    intro place token held
    rw [SlotArray.get?_set] at held
    split at held
    · cases held
    exact held
  refine ⟨?_, ?_, ?_, tracked.positive, ?_⟩
  · intro first second firstToken secondToken firstHeld secondHeld samePair
    exact tracked.unique first second firstToken secondToken (before_of _ _ firstHeld)
      (before_of _ _ secondHeld) samePair
  · intro other member
    exact tracked.active_issued other (SlotArray.mem_entries_set_none member)
  · intro token member
    by_cases forPair : token.pair = (accountId, lockId)
    · exact .inl (mem_retire.mpr (.inl ⟨member, forPair⟩))
    rcases tracked.current token member with gone | live
    · exact .inl (mem_retire.mpr (.inr gone))
    rcases live with ⟨other, otherMember, otherPair, otherGeneration⟩
    obtain ⟨place, held⟩ := SlotArray.mem_entries_iff_get?.mp otherMember
    have apart : index ≠ place := by
      intro same
      rw [← same] at held
      exact forPair (otherPair.symm.trans (fits.here other held))
    refine .inr ⟨other, ?_, otherPair, otherGeneration⟩
    apply SlotArray.mem_entries_of_get?
    rw [SlotArray.get?_set_of_ne apart]
    exact held
  intro token member
  exact (retire_issued tracked member :)

private theorem fenced_release (tracked : Tracked history) (fenced : Fenced history)
    (found : history.registry.entries.findFirst? (·.isFor accountId lockId) = some (index, active)) :
    Fenced
      { registry := { entries := history.registry.entries.set index none, count := count }
        issued := history.issued
        retired := history.retire accountId lockId } := by
  have fits := fits_of_found tracked found
  rw [fenced_iff]
  intro token member other otherMember otherPair
  obtain ⟨place, held⟩ := SlotArray.mem_entries_iff_get?.mp otherMember
  have apart : index ≠ place := by
    intro same
    rw [same, SlotArray.get?_set_self (same ▸ fits.inside)] at held
    cases held
  rw [SlotArray.get?_set_of_ne apart] at held
  rcases mem_retire.mp member with now | before
  · exact absurd (fits.only place other held (otherPair.trans now.2)).symm apart
  exact (fenced token before).2 other (SlotArray.mem_entries_of_get? held) otherPair

private theorem fenced_absentRelease (fenced : Fenced history)
    (missing : history.registry.entries.findFirst? (·.isFor accountId lockId) = none) :
    Fenced { history with retired := history.retire accountId lockId } := by
  rw [fenced_iff]
  intro token member other otherMember otherPair
  rcases mem_retire.mp member with now | before
  · have fails := SlotArray.findFirst?_eq_none_iff.mp missing other otherMember
    rw [LockToken.isFor_iff.mpr (otherPair.trans now.2)] at fails
    cases fails
  exact (fenced token before).2 other otherMember otherPair

private theorem issued_le_active (tracked : Tracked history) (fenced : Fenced history)
    (found : history.registry.entries.findFirst? (·.isFor accountId lockId) = some (index, active))
    (issued : token ∈ history.issued) (forPair : token.pair = (accountId, lockId)) :
    token.generation ≤ active.generation := by
  obtain ⟨held, activeFor, -⟩ := SlotArray.findFirst?_eq_some found
  have activePair := LockToken.isFor_iff.mp activeFor
  have fits := fits_of_found tracked found
  rcases tracked.current token issued with gone | live
  · exact UInt64.le_of_lt ((fenced token gone).2 active (SlotArray.mem_entries_of_get? held)
      (activePair.trans forPair.symm))
  rcases live with ⟨other, otherMember, otherPair, otherGeneration⟩
  obtain ⟨place, otherHeld⟩ := SlotArray.mem_entries_iff_get?.mp otherMember
  have same := fits.only place other otherHeld (otherPair.trans forPair)
  rw [same, held] at otherHeld
  cases otherHeld
  rw [otherGeneration]
  exact UInt64.le_refl _

theorem nextGeneration_pos (generation : UInt64) : 0 < (saturatingAdd64 generation 1).toNat := by
  rw [toNat_saturatingAdd64, UInt64.toNat_one]
  omega

theorem lt_nextGeneration_iff {generation : UInt64} :
    generation < saturatingAdd64 generation 1 ↔ generation.toNat ≠ 2 ^ 64 - 1 := by
  have bounded := generation.toNat_lt
  rw [UInt64.lt_iff_toNat_lt, toNat_saturatingAdd64, UInt64.toNat_one]
  omega

theorem tracked_step {history : LockHistory capacity} (tracked : Tracked history)
    (call : LockCall) : Tracked (history.step call) := by
  cases call with
  | acquire accountId lockId sessionId currentTick leaseDurationTicks forceTakeover =>
    cases found : history.registry.entries.findFirst? (·.isFor accountId lockId) with
    | some place =>
      rcases place with ⟨index, active⟩
      simp only [step, GenerationLockRegistry.acquireLock, renews, found, any_some]
      by_cases renewal : active.holderSessionId = sessionId
      · simp only [renewal, if_true, decide_true]
        exact tracked_renewal tracked found rfl rfl
      simp only [renewal, if_false, decide_false, Bool.false_eq_true]
      by_cases blocked : (active.isValidAt currentTick && !forceTakeover) = true
      · simp only [blocked, if_true]
        exact tracked
      simp only [blocked, if_false, Bool.false_eq_true]
      exact tracked_newGrant tracked rfl (fits_of_found tracked found)
        (nextGeneration_pos active.generation)
    | none =>
      cases free : history.registry.entries.firstEmpty? with
      | some index =>
        simp only [step, GenerationLockRegistry.acquireLock, renews, found, free,
          any_none, Bool.false_eq_true, if_false]
        exact tracked_newGrant tracked rfl (fits_of_empty found free)
          (by exact (by decide : 0 < (1 : UInt64).toNat))
      | none =>
        simp only [step, GenerationLockRegistry.acquireLock, found, free]
        exact tracked
  | release accountId lockId sessionId generation =>
    cases found : history.registry.entries.findFirst? (·.isFor accountId lockId) with
    | some place =>
      rcases place with ⟨index, active⟩
      simp only [step, GenerationLockRegistry.releaseLock, found]
      by_cases other : active.holderSessionId ≠ sessionId
      · simp only [other, if_true, ne_eq, not_false_eq_true]
        exact tracked
      by_cases stale : active.generation ≠ generation
      · simp only [other, stale, if_true, if_false, ne_eq, not_false_eq_true]
        exact tracked
      simp only [other, stale, if_false]
      exact tracked_release tracked found
    | none =>
      simp only [step, GenerationLockRegistry.releaseLock, found]
      refine ⟨tracked.unique, tracked.active_issued, ?_, tracked.positive, ?_⟩
      · intro token member
        rcases tracked.current token member with gone | live
        · exact .inl (mem_retire.mpr (.inr gone))
        exact .inr live
      intro token member
      exact (retire_issued tracked member :)
  | validate token sessionId currentTick => exact tracked

theorem fenced_step_iff {history : LockHistory capacity} (tracked : Tracked history)
    (fenced : Fenced history) (call : LockCall) :
    Fenced (history.step call) ↔ history.Advances call := by
  cases call with
  | acquire accountId lockId sessionId currentTick leaseDurationTicks forceTakeover =>
    cases found : history.registry.entries.findFirst? (·.isFor accountId lockId) with
    | some place =>
      rcases place with ⟨index, active⟩
      obtain ⟨held, forPair, -⟩ := SlotArray.findFirst?_eq_some found
      simp only [step, GenerationLockRegistry.acquireLock, renews, found, any_some, Advances]
      by_cases renewal : active.holderSessionId = sessionId
      · simp only [renewal, if_true, decide_true]
        exact iff_of_true (fenced_renewal tracked fenced found rfl rfl)
          (fun other => absurd rfl other)
      simp only [renewal, if_false, decide_false, Bool.false_eq_true]
      by_cases blocked : (active.isValidAt currentTick && !forceTakeover) = true
      · simp only [blocked, if_true]
        exact iff_of_true fenced (fun _ free => absurd free (by decide))
      simp only [blocked, if_false, Bool.false_eq_true]
      refine Iff.trans (fenced_grant_iff tracked fenced rfl (fits_of_found tracked found)) ?_
      constructor
      · intro past _ _
        have issued := tracked.active_issued active (SlotArray.mem_entries_of_get? held)
        have grows := past active issued (LockToken.isFor_iff.mp forPair)
        exact lt_nextGeneration_iff.mp grows
      intro grows token issued tokenPair
      have le := issued_le_active tracked fenced found issued tokenPair
      have room := lt_nextGeneration_iff.mpr (grows renewal trivial)
      exact UInt64.lt_of_le_of_lt le room
    | none =>
      cases free : history.registry.entries.firstEmpty? with
      | some index =>
        simp only [step, GenerationLockRegistry.acquireLock, renews, found, free,
          any_none, Bool.false_eq_true, if_false, Advances]
        refine Iff.trans (fenced_grant_iff tracked fenced rfl (fits_of_empty found free)) ?_
        constructor
        · intro past _ token issued tokenPair
          have first := past token issued tokenPair
          have positive := tracked.positive token issued
          rw [UInt64.lt_iff_toNat_lt, UInt64.toNat_one] at first
          omega
        intro fresh token issued tokenPair
        exact absurd tokenPair (fresh rfl token issued)
      | none =>
        simp only [step, GenerationLockRegistry.acquireLock, found, free, Advances]
        exact iff_of_true fenced (fun some => absurd some (by decide))
  | release accountId lockId sessionId generation =>
    simp only [Advances, iff_true]
    cases found : history.registry.entries.findFirst? (·.isFor accountId lockId) with
    | some place =>
      rcases place with ⟨index, active⟩
      simp only [step, GenerationLockRegistry.releaseLock, found]
      by_cases other : active.holderSessionId ≠ sessionId
      · simp only [other, if_true, ne_eq, not_false_eq_true]
        exact fenced
      by_cases stale : active.generation ≠ generation
      · simp only [other, stale, if_true, if_false, ne_eq, not_false_eq_true]
        exact fenced
      simp only [other, stale, if_false]
      exact fenced_release tracked fenced found
    | none =>
      simp only [step, GenerationLockRegistry.releaseLock, found]
      exact fenced_absentRelease fenced found
  | validate token sessionId currentTick => exact iff_of_true fenced trivial

/-- In every run from an empty registry, no retired token ever passes validation and
generations grow with every new holder, if and only if every grant of the run advances. -/
theorem fenced_throughout_iff (capacity : Nat) (calls : List LockCall) :
    Throughout step Fenced (start capacity) calls ↔
      EachStep step Advances (start capacity) calls := by
  apply @throughout_iff_eachStep _ _ step Advances Tracked Fenced
  · exact fun history call tracked _ => tracked_step tracked call
  · exact fun history call tracked fenced => fenced_step_iff tracked fenced call
  · exact tracked_start capacity
  exact fenced_start capacity

/-- Account 1001 acquires its lock, releases it and acquires it again: the released token
passes validation, because the generation is the first one again. -/
theorem released_token_validates :
    let calls : List LockCall :=
      [.acquire 1001 0 999 100 20 false, .release 1001 0 999 1, .acquire 1001 0 999 105 20 false]
    let released : LockToken :=
      { accountId := 1001, lockId := 0, generation := 1, holderSessionId := 999
        grantedTick := 100, leaseDurationTicks := 20 }
    let history := run step (start 2) calls
    released ∈ history.retired ∧ history.registry.validateMutation released 999 110 = .ok () := by
  decide

end LockHistory

end Eidolon.Core
