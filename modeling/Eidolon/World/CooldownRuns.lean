import Eidolon.Library.Run
import Eidolon.World.Ability

/-!
# Cooldowns over runs

A cooldown that the tracker remembers is enforced until it is over.  One that is not over is
dropped only when sixteen others could be: then the one in the first slot goes, which need
not be the next one that is over.
-/

namespace Eidolon.World

open Function Library List Option UInt64

namespace CooldownTracker

variable {tracker : CooldownTracker}

theorem readyAt_eq_some_iff (distinct : (tracker.entries.entries.map Prod.fst).Nodup)
    {abilityId : UInt32} {readyTick : UInt64} :
    tracker.readyAt abilityId = some readyTick ↔
      (abilityId, readyTick) ∈ tracker.entries.entries := by
  rw [readyAt, map_eq_some_iff]
  constructor
  · intro found
    rcases found with ⟨entry, found, rfl⟩
    rw [← KeyedList.key_of_find found]
    exact KeyedList.mem_of_find found
  intro listed
  exact ⟨_, (KeyedList.find_eq_some_iff distinct).mpr ⟨listed, rfl⟩, rfl⟩

/-- One trigger: the ability is entered, what stood in its slot is gone, and the other
abilities keep what they had. -/
structure Triggered (before after : CooldownTracker) (abilityId : UInt32)
    (currentTick readyTick : UInt64) (old : Option (UInt32 × UInt64)) : Prop where
  yields : before.Yields abilityId currentTick old
  named : (∃ entry ∈ old, entry.1 = abilityId) ∨
    ∀ entry ∈ before.entries.entries, entry.1 ≠ abilityId
  distinct : (after.entries.entries.map Prod.fst).Nodup
  held : ∀ entry ∈ old, entry ∈ before.entries.entries
  entered : after.readyAt abilityId = some readyTick
  others : ∀ other, other ≠ abilityId →
    after.readyAt other =
      if old.map Prod.fst = some other then none else before.readyAt other
  entries : ∀ entry ∈ after.entries.entries,
    entry = (abilityId, readyTick) ∨ entry ∈ before.entries.entries

theorem exists_triggered (distinct : (tracker.entries.entries.map Prod.fst).Nodup)
    (abilityId : UInt32) (currentTick : UInt64) (cooldownTicks : UInt32) :
    ∃ old, tracker.Triggered (tracker.trigger abilityId currentTick cooldownTicks) abilityId
      currentTick (currentTick + cooldownTicks.toUInt64) old := by
  obtain ⟨old, rest, whole, yields, named, changed⟩ :=
    tracker.trigger_perm abilityId currentTick cooldownTicks
  have others := tracker.rest_ne distinct whole named
  have apart := (whole.map Prod.fst).nodup_iff.mp distinct
  rw [map_append] at apart
  have distinctAfter : ((tracker.trigger abilityId currentTick
      cooldownTicks).entries.entries.map Prod.fst).Nodup := by
    rw [(changed.map Prod.fst).nodup_iff, map_cons, nodup_cons]
    refine ⟨?_, apart.of_append_right⟩
    intro listed
    obtain ⟨entry, here, same⟩ := List.mem_map.mp listed
    exact others entry here same
  refine ⟨old, yields, named, distinctAfter, ?_, ?_, ?_, ?_⟩
  · intro entry isOld
    rw [Option.mem_def.mp isOld] at whole
    exact whole.mem_iff.mpr mem_cons_self
  · rw [readyAt, KeyedList.find_perm distinctAfter changed, KeyedList.find_cons, if_pos rfl]
    rfl
  · intro other different
    rw [readyAt, KeyedList.find_perm distinctAfter changed, KeyedList.find_cons,
      if_neg (Ne.symm different), readyAt, KeyedList.find_perm distinct whole]
    rcases old with _ | entry
    · rfl
    rw [toList_some, singleton_append, KeyedList.find_cons, map_some]
    by_cases here : entry.1 = other
    · rw [if_pos (congrArg some here)]
      rw [map_eq_none_iff]
      apply KeyedList.find_eq_none_of_not_mem
      rw [← here]
      exact (List.nodup_cons.mp apart).1
    rw [if_neg here, if_neg (fun same => here (some.inj same))]
  intro entry here
  rcases List.mem_cons.mp (changed.mem_iff.mp here) with isNew | stays
  · exact Or.inl isNew
  exact Or.inr (whole.mem_iff.mpr (mem_append_right _ stays))

end CooldownTracker

structure CooldownTrigger where
  abilityId : UInt32
  currentTick : UInt64
  cooldownTicks : UInt32

namespace CooldownTrigger

variable (trigger : CooldownTrigger)

def readyTick : UInt64 :=
  trigger.currentTick + trigger.cooldownTicks.toUInt64

def apply (tracker : CooldownTracker) : CooldownTracker :=
  tracker.trigger trigger.abilityId trigger.currentTick trigger.cooldownTicks

def drops (tracker : CooldownTracker) (abilityId : UInt32) : Bool :=
  (tracker.readyAt abilityId).any (fun readyTick => trigger.currentTick < readyTick) &&
    ((trigger.apply tracker).readyAt abilityId).isNone

end CooldownTrigger

structure CooldownLog where
  tracker : CooldownTracker
  lastTick : UInt64
  /-- When an ability is ready by its last trigger. -/
  due : UInt32 → Option UInt64
  /-- The cooldown of the ability was dropped before it was over. -/
  forgotten : UInt32 → Bool

namespace CooldownLog

def start : CooldownLog where
  tracker := CooldownTracker.new
  lastTick := 0
  due := fun _ => none
  forgotten := fun _ => false

variable (log : CooldownLog) (trigger : CooldownTrigger)

def step : CooldownLog where
  tracker := trigger.apply log.tracker
  lastTick := trigger.currentTick
  due := Function.update log.due trigger.abilityId (some trigger.readyTick)
  forgotten := fun abilityId =>
    decide (abilityId ≠ trigger.abilityId) &&
      (log.forgotten abilityId || trigger.drops log.tracker abilityId)

/-- Ticks do not go back, and the cooldown ends at one. -/
def Timely : Prop :=
  log.lastTick ≤ trigger.currentTick ∧
    trigger.currentTick.toNat + trigger.cooldownTicks.toNat < 2 ^ 64

instance (log : CooldownLog) (trigger : CooldownTrigger) : Decidable (log.Timely trigger) :=
  instDecidableAnd

/-- From now on an ability that was not forgotten is ready exactly from its tick on, and the
ticks until then are known. -/
def Enforced : Prop :=
  ∀ abilityId, log.forgotten abilityId = false → ∀ currentTick, log.lastTick ≤ currentTick →
    (log.tracker.isReady abilityId currentTick = false ↔
      ∃ readyTick, log.due abilityId = some readyTick ∧ currentTick < readyTick) ∧
    (log.tracker.remainingTicks abilityId currentTick).toNat =
      (log.due abilityId).elim 0 fun readyTick => readyTick.toNat - currentTick.toNat

/-- A cooldown is dropped only when all slots hold active ones of other abilities, and it is
one that is over next. -/
def ForgetsEarliest : Prop :=
  ∀ abilityId readyTick, log.tracker.readyAt abilityId = some readyTick →
    trigger.drops log.tracker abilityId = true →
    log.tracker.Saturated trigger.currentTick ∧ ∀ entry ∈ log.tracker.entries.entries,
        entry.1 ≠ trigger.abilityId ∧ readyTick ≤ entry.2

/-- When all slots hold active cooldowns of other abilities, the one in the first slot is over
next. -/
def FirstIsEarliest : Prop :=
  log.tracker.entries.entries.length = maxCooldownsPerEntity →
    (∀ entry ∈ log.tracker.entries.entries,
      trigger.currentTick < entry.2 ∧ entry.1 ≠ trigger.abilityId) →
    ∀ first ∈ log.tracker.entries.get? 0, ∀ entry ∈ log.tracker.entries.entries, first.2 ≤ entry.2

instance (log : CooldownLog) (trigger : CooldownTrigger) :
    Decidable (log.FirstIsEarliest trigger) :=
  @instDecidableForall _ _ (instDecidableEqNat _ _) <|
    @instDecidableForall _ _ (List.decidableBAll _ _) <|
      @Option.decidableForallMem _ _ (fun _ => List.decidableBAll _ _) _

structure Tracked (log : CooldownLog) : Prop where
  distinct : (log.tracker.entries.entries.map Prod.fst).Nodup
  near : ∀ entry ∈ log.tracker.entries.entries,
    entry.2.toNat < log.lastTick.toNat + 2 ^ 32
  remembers : ∀ abilityId, log.forgotten abilityId = false →
    log.tracker.readyAt abilityId = log.due abilityId ∨
      log.tracker.readyAt abilityId = none ∧
        ∃ readyTick, log.due abilityId = some readyTick ∧ readyTick ≤ log.lastTick

theorem tracked_start : start.Tracked where
  distinct :=
    nodup_nil
  near := by
    intro entry here
    cases here
  remembers := fun _ _ => Or.inl rfl

variable {trigger : CooldownTrigger}

theorem toNat_readyTick (fits : trigger.currentTick.toNat + trigger.cooldownTicks.toNat < 2 ^ 64) :
    trigger.readyTick.toNat = trigger.currentTick.toNat + trigger.cooldownTicks.toNat := by
  rw [CooldownTrigger.readyTick, UInt64.toNat_add, UInt32.toNat_toUInt64, Nat.mod_eq_of_lt fits]

variable {log : CooldownLog}

section

variable (tracked : log.Tracked)
include tracked

theorem Tracked.remembers_step (later : log.lastTick ≤ trigger.currentTick)
    {old : Option (UInt32 × UInt64)}
    (triggered : log.tracker.Triggered (trigger.apply log.tracker) trigger.abilityId
      trigger.currentTick trigger.readyTick old) {other : UInt32}
    (different : other ≠ trigger.abilityId)
    (remembered : (log.step trigger).forgotten other = false) :
    (log.step trigger).tracker.readyAt other = log.due other ∨
      (log.step trigger).tracker.readyAt other = none ∧
        ∃ readyTick, log.due other = some readyTick ∧ readyTick ≤ trigger.currentTick := by
  have notForgotten : log.forgotten other = false ∧ trigger.drops log.tracker other = false := by
    simpa [step, different] using remembered
  have after := triggered.others other different
  change (trigger.apply log.tracker).readyAt other = log.due other ∨
    (trigger.apply log.tracker).readyAt other = none ∧ _
  rcases tracked.remembers other notForgotten.1 with same | ⟨absent, readyTick, due, passed⟩
  · by_cases gone : old.map Prod.fst = some other
    · rw [if_pos gone] at after
      rcases readyAt : log.tracker.readyAt other with _ | readyTick
      · left
        rw [after, ← same, readyAt]
      right
      refine ⟨after, readyTick, by rw [← same, readyAt], ?_⟩
      have notActive := notForgotten.2
      rw [CooldownTrigger.drops, readyAt, after] at notActive
      simpa using notActive
    left
    rw [after, if_neg gone, same]
  right
  refine ⟨?_, readyTick, due, UInt64.le_trans passed later⟩
  rw [after, absent, ite_self]

theorem Tracked.step (timely : log.Timely trigger) : (log.step trigger).Tracked := by
  rcases timely with ⟨later, fits⟩
  obtain ⟨old, triggered⟩ := CooldownTracker.exists_triggered tracked.distinct
    trigger.abilityId trigger.currentTick trigger.cooldownTicks
  refine ⟨triggered.distinct, ?_, ?_⟩
  · intro entry here
    change entry.2.toNat < trigger.currentTick.toNat + 2 ^ 32
    rcases triggered.entries entry here with isNew | stays
    · have sum := toNat_readyTick fits
      have small := trigger.cooldownTicks.toNat_lt
      rw [isNew]
      change trigger.readyTick.toNat < _
      omega
    have bound := tracked.near entry stays
    rw [le_iff_toNat_le] at later
    omega
  intro abilityId remembered
  change _ = Function.update log.due trigger.abilityId (some trigger.readyTick) abilityId ∨
    _ ∧ ∃ readyTick, Function.update log.due trigger.abilityId (some trigger.readyTick)
      abilityId = some readyTick ∧ readyTick ≤ trigger.currentTick
  by_cases same : abilityId = trigger.abilityId
  · left
    rw [same, update_self]
    exact triggered.entered
  rw [update_of_ne same]
  exact tracked.remembers_step later triggered same remembered

theorem Tracked.enforced : log.Enforced := by
  intro abilityId remembered currentTick later
  rw [CooldownTracker.isReady, CooldownTracker.remainingTicks]
  rcases tracked.remembers abilityId remembered with same | ⟨absent, readyTick, due, passed⟩
  · rw [← same]
    rcases readyAt : log.tracker.readyAt abilityId with _ | readyTick
    · simp
    have listed := (CooldownTracker.readyAt_eq_some_iff tracked.distinct).mp readyAt
    have near := tracked.near _ listed
    change readyTick.toNat < _ at near
    rw [le_iff_toNat_le] at later
    refine ⟨by simp, ?_⟩
    simp only [toNat_toUInt32, toNat_saturatingSub64, elim_some]
    omega
  have notBefore : readyTick ≤ currentTick := UInt64.le_trans passed later
  rw [absent, due]
  refine ⟨by simpa using notBefore, ?_⟩
  rw [le_iff_toNat_le] at notBefore
  simp only [UInt32.toNat_zero, elim_some]
  omega

theorem drops_iff {old : Option (UInt32 × UInt64)}
    (triggered : log.tracker.Triggered (trigger.apply log.tracker) trigger.abilityId
      trigger.currentTick trigger.readyTick old) (abilityId : UInt32) :
    trigger.drops log.tracker abilityId = true ↔ abilityId ≠ trigger.abilityId ∧
        ∃ readyTick, old = some (abilityId, readyTick) ∧ trigger.currentTick < readyTick := by
  rw [CooldownTrigger.drops, Bool.and_eq_true, Option.any_eq_true, isNone_iff_eq_none]
  constructor
  · intro dropped
    rcases dropped with ⟨⟨readyTick, held, active⟩, absent⟩
    have different : abilityId ≠ trigger.abilityId := by
      rintro rfl
      rw [triggered.entered] at absent
      cases absent
    refine ⟨different, readyTick, ?_, of_decide_eq_true active⟩
    rw [triggered.others abilityId different] at absent
    by_cases gone : old.map Prod.fst = some abilityId
    · obtain ⟨entry, isOld, rfl⟩ := Option.map_eq_some_iff.mp gone
      have heldEntry := (CooldownTracker.readyAt_eq_some_iff tracked.distinct).mpr
        (triggered.held entry isOld)
      rw [heldEntry] at held
      cases held
      exact isOld
    rw [if_neg gone, held] at absent
    cases absent
  intro gone
  rcases gone with ⟨different, readyTick, isOld, active⟩
  refine ⟨⟨readyTick, ?_, decide_eq_true active⟩, ?_⟩
  · exact (CooldownTracker.readyAt_eq_some_iff tracked.distinct).mpr (triggered.held _ isOld)
  rw [triggered.others abilityId different, isOld, map_some, if_pos rfl]

theorem forgetsEarliest_iff (trigger : CooldownTrigger) :
    log.ForgetsEarliest trigger ↔ log.FirstIsEarliest trigger := by
  obtain ⟨old, triggered⟩ := CooldownTracker.exists_triggered tracked.distinct
    trigger.abilityId trigger.currentTick trigger.cooldownTicks
  have dropped := drops_iff tracked triggered
  constructor
  · intro forgets full others first isFirst entry listed
    have oldIs : old = some first := by
      rcases old with _ | oldEntry
      · exact absurd full (Nat.ne_of_lt triggered.yields)
      have oldHeld := others oldEntry (triggered.held oldEntry rfl)
      rcases triggered.yields with same | ⟨_, passed | ⟨_, isOld⟩⟩
      · exact absurd same oldHeld.2
      · exact absurd oldHeld.1 (UInt64.not_lt.mpr passed)
      exact isOld.symm.trans isFirst
    have firstHeld := triggered.held first oldIs
    have active := others first firstHeld
    have drops : trigger.drops log.tracker first.1 = true :=
      (dropped first.1).mpr ⟨active.2, first.2, oldIs, active.1⟩
    exact ((forgets first.1 first.2
      ((CooldownTracker.readyAt_eq_some_iff tracked.distinct).mpr firstHeld) drops).2
      entry listed).2
  intro earliest abilityId readyTick held drops
  rcases (dropped abilityId).mp drops with ⟨different, oldTick, isOld, active⟩
  have yields := triggered.yields
  rw [isOld] at yields
  rcases yields with same | ⟨full, passed | ⟨saturated, isFirst⟩⟩
  · exact absurd same different
  · exact absurd active (UInt64.not_lt.mpr passed)
  have listedHeld := (CooldownTracker.readyAt_eq_some_iff tracked.distinct).mpr
    (triggered.held _ isOld)
  rw [held] at listedHeld
  cases listedHeld
  have others : ∀ entry ∈ log.tracker.entries.entries, entry.1 ≠ trigger.abilityId := by
    refine triggered.named.resolve_left ?_
    rintro ⟨entry, isEntry, named⟩
    rw [isOld] at isEntry
    cases isEntry
    exact different named
  refine ⟨saturated, fun entry listed => ⟨others entry listed, ?_⟩⟩
  exact earliest full (fun entry listed => ⟨saturated.active entry listed,
    others entry listed⟩) _ isFirst entry listed

end

theorem forgetsEarliest_run {triggers : List CooldownTrigger}
    (timely : EachStep step Timely start triggers) :
    EachStep step ForgetsEarliest start triggers ↔ EachStep step FirstIsEarliest start triggers :=
  eachStep_iff_of_invariant (fun _ _ tracked now _ => tracked.step now)
    (fun _ trigger tracked _ => forgetsEarliest_iff tracked trigger) tracked_start timely

/-- Every run enforces what it remembers, and it drops only what is over next exactly when
that stands first whenever an active cooldown has to go. -/
theorem enforces_iff (triggers : List CooldownTrigger)
    (timely : EachStep step Timely start triggers) :
    Throughout step Enforced start triggers ∧ (EachStep step ForgetsEarliest start triggers ↔
        EachStep step FirstIsEarliest start triggers) := by
  refine ⟨?_, forgetsEarliest_run timely⟩
  exact (throughout_of_eachStep (fun _ _ tracked now => tracked.step now)
    tracked_start timely).imp fun _ tracked => tracked.enforced

/-- Sixteen abilities are used at tick 100, the first of them with a long cooldown, and then
another one. -/
def longFirst : List CooldownTrigger :=
  (List.range 17).map fun index =>
    { abilityId := UInt32.ofNat index
      currentTick := 100
      cooldownTicks := if index = 0 then 600 else 50 }

def longLast : List CooldownTrigger :=
  (List.range 17).map fun index =>
    { abilityId := UInt32.ofNat index
      currentTick := 100
      cooldownTicks := if index = 15 then 600 else 50 }

theorem enforces_iff_longLast : Throughout step Enforced start longLast ∧
      (EachStep step ForgetsEarliest start longLast ↔
        EachStep step FirstIsEarliest start longLast) :=
  enforces_iff longLast (by decide)

/-- The long cooldown is dropped although all others are over before it. -/
theorem not_forgetsEarliest_longFirst : ¬ EachStep step ForgetsEarliest start longFirst := by
  rw [forgetsEarliest_run (by decide)]
  decide

end CooldownLog

end Eidolon.World
