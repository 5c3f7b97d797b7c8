import Eidolon.Library.MachineInt
import Eidolon.Library.Run

/-!
# Tick pacing

The governor of the simulation clock.  Instants are nanoseconds since some origin, before
which no instant can be represented, and durations are nanoseconds up to the greatest one.

No sleep is longer than a tick and no reported lag longer than the ticks that may be caught
up.  The target of each tick is computed from the baseline, so that nothing drifts, up to the
point where the number of ticks since the baseline is narrowed to 32 bits.
-/

namespace Eidolon.Server

open Eidolon.Library Nat

def durationMax : Nat := 2 ^ 64 * 10 ^ 9 - 1

def saturatingTimes (duration count : Nat) : Nat :=
  min (duration * count) durationMax

inductive TickPacingAction where
  | sleepHeadroom (headroom : Nat)
  | catchUpImmediate (lag : Nat) (clamped : Bool)
  | virtualizationResync (pauseDuration : Nat) (clampedTicks : UInt32)
  deriving DecidableEq

def TickPacingAction.headroom : TickPacingAction → Nat
  | .sleepHeadroom headroom => headroom
  | _ => 0

def TickPacingAction.rebases : TickPacingAction → Bool
  | .sleepHeadroom _ => false
  | .catchUpImmediate _ clamped => clamped
  | .virtualizationResync _ _ => true

structure ClockMetrics where
  totalTicks : UInt64
  virtualizationPausesAbsorbed : UInt64
  catchUpClampedEvents : UInt64
  maxGapMicros : UInt64
  totalLagMicros : UInt64
  deriving DecidableEq

structure ClockGovernorConfig where
  tickInterval : Nat
  suspendThreshold : Nat
  maxCatchUpTicks : UInt32
  deriving DecidableEq

structure ClockGovernor where
  config : ClockGovernorConfig
  currentTick : UInt64
  baselineTick : UInt64
  baselineInstant : Nat
  lastTickInstant : Nat
  accumulatedLag : Nat
  metrics : ClockMetrics
  deriving DecidableEq

namespace ClockGovernor

def withBaseline (config : ClockGovernorConfig) (baseline : Nat) : ClockGovernor where
  config := config
  currentTick := 0
  baselineTick := 0
  baselineInstant := baseline
  lastTickInstant := baseline
  accumulatedLag := 0
  metrics := ⟨0, 0, 0, 0, 0⟩

variable (governor : ClockGovernor)

def maxAllowedLag : Nat :=
  saturatingTimes governor.config.tickInterval governor.config.maxCatchUpTicks.toNat

def elapsedTicks : UInt64 :=
  saturatingSub64 governor.currentTick governor.baselineTick

def targetInstant : Nat :=
  governor.baselineInstant +
    saturatingTimes governor.config.tickInterval (min governor.elapsedTicks.toNat (2 ^ 32 - 1))

def gap (now : Nat) : Nat :=
  now - governor.lastTickInstant

def countTick (now : Nat) : ClockGovernor :=
  let gapMicros := UInt64.ofNat (governor.gap now / 1000)
  { governor with
    currentTick := governor.currentTick + 1
    metrics :=
      { governor.metrics with
        totalTicks := governor.metrics.totalTicks + 1
        maxGapMicros := max gapMicros governor.metrics.maxGapMicros } }

def clampBaseline (now : Nat) : ClockGovernor :=
  { governor with
    baselineInstant := if governor.maxAllowedLag ≤ now then now - governor.maxAllowedLag else now
    baselineTick :=
      saturatingSub64 governor.currentTick governor.config.maxCatchUpTicks.toUInt64
    accumulatedLag := governor.maxAllowedLag
    lastTickInstant := now }

def resync (now pauseDuration : Nat) : TickPacingAction × ClockGovernor :=
  (.virtualizationResync pauseDuration governor.config.maxCatchUpTicks,
    { governor.clampBaseline now with
      metrics :=
        { governor.metrics with
          virtualizationPausesAbsorbed := governor.metrics.virtualizationPausesAbsorbed + 1 } })

def pace (now : Nat) : TickPacingAction × ClockGovernor :=
  if now < governor.targetInstant then
    (.sleepHeadroom (governor.targetInstant - now),
      { governor with lastTickInstant := now, accumulatedLag := 0 })
  else
    let lag := now - governor.targetInstant
    let lagging :=
      { governor with
        lastTickInstant := now
        accumulatedLag := governor.accumulatedLag + lag
        metrics :=
          { governor.metrics with
            totalLagMicros :=
              saturatingAdd64 governor.metrics.totalLagMicros (UInt64.ofNat (lag / 1000)) } }
    if governor.maxAllowedLag < lag then
      (.catchUpImmediate governor.maxAllowedLag true,
        { lagging.clampBaseline now with
          metrics :=
            { lagging.metrics with
              catchUpClampedEvents := lagging.metrics.catchUpClampedEvents + 1 } })
    else (.catchUpImmediate lag false, lagging)

def evaluatePacing (now _executionDuration : Nat) : TickPacingAction × ClockGovernor :=
  if governor.config.suspendThreshold ≤ governor.gap now then
    (governor.countTick now).resync now (governor.gap now)
  else (governor.countTick now).pace now

theorem saturatingTimes_le (duration count : Nat) :
    saturatingTimes duration count ≤ count * duration :=
  Nat.le_trans (Nat.min_le_left _ _) (Nat.le_of_eq (Nat.mul_comm duration count))

theorem saturatingTimes_mono {duration fewer more : Nat} (le : fewer ≤ more) :
    saturatingTimes duration fewer ≤ saturatingTimes duration more := by
  have product := mul_le_mul_left duration le
  rw [saturatingTimes, saturatingTimes]
  omega

theorem saturatingTimes_add_one_le (duration count : Nat) :
    saturatingTimes duration (count + 1) ≤ saturatingTimes duration count + duration := by
  rw [saturatingTimes, saturatingTimes, mul_succ]
  omega

variable {governor} {now : Nat}

theorem targetInstant_clampBaseline (subtracts : governor.maxAllowedLag ≤ now) :
    (governor.clampBaseline now).targetInstant ≤ now := by
  have few : (governor.clampBaseline now).elapsedTicks.toNat ≤
      governor.config.maxCatchUpTicks.toNat := by
    rw [elapsedTicks, toNat_saturatingSub64]
    change governor.currentTick.toNat - (saturatingSub64 _ _).toNat ≤ _
    rw [toNat_saturatingSub64, UInt32.toNat_toUInt64]
    omega
  have caughtUp : saturatingTimes governor.config.tickInterval
      (min (governor.clampBaseline now).elapsedTicks.toNat (2 ^ 32 - 1)) ≤
        governor.maxAllowedLag :=
    saturatingTimes_mono (Nat.le_trans (Nat.min_le_left _ _) few)
  have baseline : (governor.clampBaseline now).baselineInstant = now - governor.maxAllowedLag :=
    if_pos subtracts
  have config_eq : (governor.clampBaseline now).config = governor.config := rfl
  rw [targetInstant, config_eq]
  omega

structure Paced (governor : ClockGovernor) (now : Nat)
    (result : TickPacingAction × ClockGovernor) : Prop where
  config : result.2.config = governor.config
  currentTick : result.2.currentTick = governor.currentTick
  baselineTick : result.2.baselineTick =
    if result.1.rebases then
      saturatingSub64 governor.currentTick governor.config.maxCatchUpTicks.toUInt64
    else governor.baselineTick
  lastTickInstant : result.2.lastTickInstant = now
  due : result.2.targetInstant ≤ now + result.1.headroom

theorem paced_resync (pauseDuration : Nat) (subtracts : governor.maxAllowedLag ≤ now) :
    Paced governor now (governor.resync now pauseDuration) :=
  ⟨rfl, rfl, rfl, rfl, targetInstant_clampBaseline subtracts⟩

theorem paced_pace : Paced governor now (governor.pace now) := by
  unfold pace
  by_cases early : now < governor.targetInstant
  · rw [if_pos early]
    exact ⟨rfl, rfl, rfl, rfl, Nat.le_of_eq (Nat.add_sub_of_le (Nat.le_of_lt early)).symm⟩
  · rw [if_neg early]
    by_cases far : governor.maxAllowedLag < now - governor.targetInstant
    · rw [if_pos far]
      have subtracts : governor.maxAllowedLag ≤ now := by omega
      exact ⟨rfl, rfl, rfl, rfl, targetInstant_clampBaseline subtracts⟩
    · rw [if_neg far]
      exact ⟨rfl, rfl, rfl, rfl, Nat.le_of_not_lt early⟩

theorem paced_evaluatePacing (executionDuration : Nat)
    (subtracts : governor.config.suspendThreshold ≤ governor.gap now →
      governor.maxAllowedLag ≤ now) :
    Paced (governor.countTick now) now (governor.evaluatePacing now executionDuration) := by
  unfold evaluatePacing
  split
  · rename_i late
    exact paced_resync (governor.gap now) (subtracts late)
  · exact paced_pace

variable {executionDuration lag : Nat} {clamped : Bool}

theorem evaluatePacing_lag_le
    (behind : (governor.evaluatePacing now executionDuration).1 = .catchUpImmediate lag clamped) :
    lag ≤ governor.config.maxCatchUpTicks.toNat * governor.config.tickInterval := by
  have allowed : lag ≤ governor.maxAllowedLag := by
    unfold evaluatePacing at behind
    split at behind
    · cases behind
    · unfold pace at behind
      split at behind
      · cases behind
      · simp only at behind
        split at behind
        · cases behind
          exact Nat.le_refl _
        · rename_i near
          cases behind
          exact Nat.le_of_not_lt near
  exact Nat.le_trans allowed (saturatingTimes_le _ _)

theorem eq_of_sleepHeadroom {headroom : Nat}
    (sleeps : (governor.evaluatePacing now executionDuration).1 = .sleepHeadroom headroom) :
    governor.gap now < governor.config.suspendThreshold ∧
      headroom = (governor.countTick now).targetInstant - now := by
  unfold evaluatePacing at sleeps
  split at sleeps
  · cases sleeps
  · rename_i inTime
    refine ⟨Nat.lt_of_not_le inTime, ?_⟩
    unfold pace at sleeps
    split at sleeps
    · cases sleeps
      rfl
    · simp only at sleeps
      split at sleeps <;> cases sleeps

end ClockGovernor

/-- A call, with its time. -/
structure PacingCall where
  now : Nat
  executionDuration : Nat

/-- A governor with the headroom that it last returned, the number of its calls, and the
number of the tick that its baseline belongs to. -/
structure PacedClock where
  governor : ClockGovernor
  headroom : Nat
  ticks : Nat
  baseTicks : Nat

namespace PacedClock

def start (config : ClockGovernorConfig) (baseline : Nat) : PacedClock where
  governor := .withBaseline config baseline
  headroom := 0
  ticks := 0
  baseTicks := 0

def step (clock : PacedClock) (call : PacingCall) : PacedClock :=
  let (action, governor) := clock.governor.evaluatePacing call.now call.executionDuration
  { governor := governor
    headroom := action.headroom
    ticks := clock.ticks + 1
    baseTicks :=
      if action.rebases then clock.ticks + 1 - governor.config.maxCatchUpTicks.toNat
      else clock.baseTicks }

/-- The call is not before the last one and the headroom that it returned, and the subtraction
of a pause does not fail. -/
structure Forward (clock : PacedClock) (call : PacingCall) : Prop where
  later : clock.ticks ≠ 0 → clock.governor.lastTickInstant + clock.headroom ≤ call.now
  subtracts : clock.governor.config.suspendThreshold ≤ clock.governor.gap call.now →
    clock.governor.maxAllowedLag ≤ call.now

def elapsed (clock : PacedClock) : Nat :=
  clock.ticks + 1 - clock.baseTicks

def InTime (clock : PacedClock) (call : PacingCall) : Prop :=
  clock.governor.gap call.now < clock.governor.config.suspendThreshold

/-- The tick counter does not wrap around. -/
def Counted (clock : PacedClock) (_call : PacingCall) : Prop :=
  clock.ticks + 1 < 2 ^ 64

instance : DecidableRel Counted := fun clock _ =>
  inferInstanceAs (Decidable (clock.ticks + 1 < 2 ^ 64))

/-- Sleeps and lags are bounded, and the target is computed without drift. -/
structure Paces (clock : PacedClock) (call : PacingCall) : Prop where
  headroom : ∀ headroom,
    (clock.governor.evaluatePacing call.now call.executionDuration).1 = .sleepHeadroom headroom →
      headroom ≤ clock.governor.config.tickInterval
  lag : ∀ lag clamped,
    (clock.governor.evaluatePacing call.now call.executionDuration).1 =
        .catchUpImmediate lag clamped →
      lag ≤ clock.governor.config.maxCatchUpTicks.toNat * clock.governor.config.tickInterval
  target : clock.InTime call →
    (clock.governor.countTick call.now).targetInstant =
      clock.governor.baselineInstant +
        clock.elapsed * clock.governor.config.tickInterval

/-- The call is not before the last one, the ticks since the baseline fit 32 bits, and their
time fits a duration. -/
def CountFits (clock : PacedClock) (call : PacingCall) : Prop :=
  clock.InTime call → clock.governor.lastTickInstant ≤ call.now ∧ clock.elapsed < 2 ^ 32 ∧
      clock.elapsed * clock.governor.config.tickInterval ≤ durationMax

/-- The target of the last tick is not behind the time of its call and the headroom. -/
structure Sound (interval : Nat) (clock : PacedClock) : Prop where
  interval_eq : clock.governor.config.tickInterval = interval
  ticks_eq : clock.governor.currentTick.toNat = clock.ticks
  baseTicks_eq : clock.governor.baselineTick.toNat = clock.baseTicks
  ordered : clock.baseTicks ≤ clock.ticks
  due : clock.governor.targetInstant ≤ clock.governor.lastTickInstant + clock.headroom
  begins : clock.ticks = 0 →
    clock.headroom = 0 ∧ clock.governor.baselineInstant = clock.governor.lastTickInstant

theorem sound_start (config : ClockGovernorConfig) (baseline : Nat) :
    Sound config.tickInterval (start config baseline) := by
  refine ⟨rfl, rfl, rfl, Nat.le_refl 0, ?_, fun _ => ⟨rfl, rfl⟩⟩
  have none : (start config baseline).governor.elapsedTicks.toNat = 0 := by
    rw [ClockGovernor.elapsedTicks, toNat_saturatingSub64]
    rfl
  rw [ClockGovernor.targetInstant, none]
  exact Nat.le_refl _

variable {interval : Nat} {clock : PacedClock} {call : PacingCall}

theorem sound_step (sound : Sound interval clock) (forward : Forward clock call)
    (counted : Counted clock call) : Sound interval (step clock call) := by
  have paced := ClockGovernor.paced_evaluatePacing call.executionDuration forward.subtracts
  have next : (clock.governor.countTick call.now).currentTick.toNat = clock.ticks + 1 := by
    rw [ClockGovernor.countTick, UInt64.toNat_add, sound.ticks_eq, UInt64.toNat_one,
      mod_eq_of_lt counted]
  have ordered := sound.ordered
  refine ⟨?_, ?_, ?_, ?_, ?_, fun none => absurd none (succ_ne_zero _)⟩
  · exact (congrArg ClockGovernorConfig.tickInterval paced.config).trans sound.interval_eq
  · exact (congrArg UInt64.toNat paced.currentTick).trans next
  · refine (congrArg UInt64.toNat paced.baselineTick).trans ?_
    simp only [step]
    split
    · rw [toNat_saturatingSub64, next, UInt32.toNat_toUInt64, paced.config]
    · exact sound.baseTicks_eq
  · simp only [step]
    split <;> omega
  · simp only [step]
    rw [paced.lastTickInstant]
    exact paced.due

theorem Sound.elapsedTicks_countTick (sound : Sound interval clock) (counted : Counted clock call) :
    (clock.governor.countTick call.now).elapsedTicks.toNat =
      clock.elapsed := by
  have next : (clock.governor.currentTick + 1).toNat = clock.ticks + 1 := by
    rw [UInt64.toNat_add, sound.ticks_eq, UInt64.toNat_one, mod_eq_of_lt counted]
  rw [ClockGovernor.elapsedTicks, toNat_saturatingSub64]
  change (clock.governor.currentTick + 1).toNat - clock.governor.baselineTick.toNat = _
  rw [next, sound.baseTicks_eq]
  rfl

theorem Sound.targetInstant_countTick (sound : Sound interval clock)
    (counted : Counted clock call) :
    (clock.governor.countTick call.now).targetInstant = clock.governor.baselineInstant +
        saturatingTimes clock.governor.config.tickInterval (min clock.elapsed (2 ^ 32 - 1)) := by
  rw [ClockGovernor.targetInstant, sound.elapsedTicks_countTick counted]
  rfl

theorem Sound.targetInstant_le (sound : Sound interval clock) (counted : Counted clock call) :
    (clock.governor.countTick call.now).targetInstant ≤
      clock.governor.targetInstant + clock.governor.config.tickInterval := by
  rw [sound.targetInstant_countTick counted, ClockGovernor.targetInstant,
    ClockGovernor.elapsedTicks, toNat_saturatingSub64, sound.ticks_eq, sound.baseTicks_eq,
    add_assoc]
  apply Nat.add_le_add_left
  refine Nat.le_trans (ClockGovernor.saturatingTimes_mono ?_)
    (ClockGovernor.saturatingTimes_add_one_le _ _)
  rw [elapsed]
  omega

theorem saturatingTimes_min_eq_iff {count : Nat} (positive : 0 < interval) :
    saturatingTimes interval (min count (2 ^ 32 - 1)) = count * interval ↔
      count < 2 ^ 32 ∧ count * interval ≤ durationMax := by
  rw [saturatingTimes, Nat.mul_comm]
  by_cases fits : count < 2 ^ 32
  · rw [Nat.min_eq_left (Nat.le_sub_one_of_lt fits)]
    omega
  · have cut : (2 ^ 32 - 1) * interval < count * interval :=
      Nat.mul_lt_mul_of_pos_right (by omega) positive
    rw [Nat.min_eq_right (by omega : 2 ^ 32 - 1 ≤ count)]
    refine iff_of_false (fun same => ?_) (fun both => fits both.1)
    have below := Nat.min_le_left ((2 ^ 32 - 1) * interval) durationMax
    rw [same] at below
    exact Nat.not_lt_of_le below cut

theorem Sound.paces_iff (sound : Sound interval clock) (positive : 0 < interval)
    (forward : Forward clock call) (counted : Counted clock call) :
    Paces clock call ↔ CountFits clock call := by
  rw [← sound.interval_eq] at positive
  have target_iff : (clock.governor.countTick call.now).targetInstant =
      clock.governor.baselineInstant + clock.elapsed * clock.governor.config.tickInterval ↔
      clock.elapsed < 2 ^ 32 ∧
        clock.elapsed * clock.governor.config.tickInterval ≤ durationMax := by
    rw [sound.targetInstant_countTick counted, add_right_inj]
    exact saturatingTimes_min_eq_iff positive
  constructor
  · intro paces inTime
    have onTarget := paces.target inTime
    refine ⟨?_, target_iff.mp onTarget⟩
    apply Nat.le_of_not_lt
    intro early
    -- Only the first call may be early, and then it sleeps until a tick after the baseline.
    have first : clock.ticks = 0 := by
      by_cases first : clock.ticks = 0
      · exact first
      · have later := forward.later first
        omega
    have ordered := sound.ordered
    have begins := sound.begins first
    have atOne : clock.elapsed = 1 := by
      rw [elapsed]
      omega
    rw [atOne] at onTarget
    have sleeps := paces.headroom ((clock.governor.countTick call.now).targetInstant - call.now)
      (by rw [ClockGovernor.evaluatePacing, if_neg (Nat.not_le_of_lt inTime), ClockGovernor.pace,
        if_pos (by omega)])
    omega
  · intro fits
    refine ⟨?_, fun lag clamped => ClockGovernor.evaluatePacing_lag_le, ?_⟩
    · intro headroom sleeps
      rcases ClockGovernor.eq_of_sleepHeadroom sleeps with ⟨inTime, rfl⟩
      have above := sound.targetInstant_le counted
      have due := sound.due
      have passed : clock.governor.lastTickInstant + clock.headroom ≤ call.now := by
        by_cases first : clock.ticks = 0
        · rw [(sound.begins first).1]
          exact (fits inTime).1
        · exact forward.later first
      omega
    · intro inTime
      exact target_iff.mpr (fits inTime).2

/-- Nothing drifts and no sleep or lag is too long, up to the first call for which the ticks
since the baseline are cut off. -/
theorem eachStep_paces_iff (config : ClockGovernorConfig) (baseline : Nat)
    (calls : List PacingCall) (positive : 0 < config.tickInterval)
    (forward : EachStep step Forward (start config baseline) calls)
    (counted : EachStep step Counted (start config baseline) calls) :
    EachStep step Paces (start config baseline) calls ↔
      EachStep step CountFits (start config baseline) calls := by
  have preserved : ∀ clock call, Sound config.tickInterval clock →
      Forward clock call ∧ Counted clock call → Paces clock call →
        Sound config.tickInterval (step clock call) :=
    fun _ _ sound assumed _ => sound_step sound assumed.1 assumed.2
  have exactly : ∀ clock call, Sound config.tickInterval clock →
      Forward clock call ∧ Counted clock call → (Paces clock call ↔ CountFits clock call) :=
    fun _ _ sound assumed => sound.paces_iff positive assumed.1 assumed.2
  exact eachStep_iff_of_invariant preserved exactly (sound_start config baseline)
    (forward.and counted)

/-- The configuration of the drift test. -/
def driftConfig : ClockGovernorConfig :=
  ⟨50000000, 200000000, 4⟩

theorem eachStep_paces_iff_drift :
    EachStep step Paces (start driftConfig 0) [⟨0, 0⟩, ⟨50000000, 0⟩, ⟨170000000, 0⟩] ↔
      EachStep step CountFits (start driftConfig 0) [⟨0, 0⟩, ⟨50000000, 0⟩, ⟨170000000, 0⟩] :=
  eachStep_paces_iff driftConfig 0 _ (by decide)
    ⟨⟨by decide, by decide⟩, ⟨by decide, by decide⟩, ⟨by decide, by decide⟩, trivial⟩
    ⟨by decide, by decide, by decide, trivial⟩

/-- Calls that are all made when the last sleep ends. -/
def onTimeCalls (interval count : Nat) : List PacingCall :=
  (List.range count).map fun tick => ⟨tick * interval, 0⟩

variable {config : ClockGovernorConfig} {count : Nat}

structure OnTime (config : ClockGovernorConfig) (count : Nat) (clock : PacedClock) : Prop where
  sound : Sound config.tickInterval clock
  config_eq : clock.governor.config = config
  ticks_eq : clock.ticks = count
  baseTicks_eq : clock.baseTicks = 0
  baselineInstant_eq : clock.governor.baselineInstant = 0
  last : clock.governor.lastTickInstant = (count - 1) * config.tickInterval
  due : clock.governor.lastTickInstant + clock.headroom = count * config.tickInterval

theorem OnTime.inTime (onTime : OnTime config count clock)
    (short : config.tickInterval < config.suspendThreshold) (executionDuration : Nat) :
    Forward clock ⟨count * config.tickInterval, executionDuration⟩ ∧
      clock.governor.gap (count * config.tickInterval) <
        clock.governor.config.suspendThreshold := by
  have gap_le : clock.governor.gap (count * config.tickInterval) ≤ config.tickInterval := by
    rw [ClockGovernor.gap, onTime.last, ← Nat.mul_sub_right_distrib]
    have one : (count - (count - 1)) * config.tickInterval ≤ 1 * config.tickInterval :=
      Nat.mul_le_mul_right _ (by omega)
    rwa [one_mul] at one
  have gap_lt := Nat.lt_of_le_of_lt gap_le short
  rw [← onTime.config_eq] at gap_lt ⊢
  have notLate := Nat.not_le_of_lt gap_lt
  have due := onTime.due
  rw [← onTime.config_eq] at due
  exact ⟨⟨fun _ => Nat.le_of_eq due, fun late => absurd late notLate⟩, gap_lt⟩

theorem OnTime.counted (onTime : OnTime config count clock) (few : count < 2 ^ 32)
    (call : PacingCall) : Counted clock call := by
  rw [Counted, onTime.ticks_eq]
  omega

theorem onTimeCalls_succ (interval count : Nat) :
    onTimeCalls interval (count + 1) = onTimeCalls interval count ++ [⟨count * interval, 0⟩] := by
  rw [onTimeCalls, List.range_succ, List.map_append]
  rfl

section

variable (positive : 0 < config.tickInterval)
  (short : config.tickInterval < config.suspendThreshold)
  (fits : 2 ^ 32 * config.tickInterval ≤ durationMax)
include positive short fits

theorem OnTime.step (onTime : OnTime config count clock) (few : count + 1 < 2 ^ 32) :
    OnTime config (count + 1) (step clock ⟨count * config.tickInterval, 0⟩) := by
  rcases onTime.inTime short 0 with ⟨forward, inTime⟩
  have counted := onTime.counted (lt_of_succ_lt few) ⟨count * config.tickInterval, 0⟩
  have target : (clock.governor.countTick (count * config.tickInterval)).targetInstant =
      count * config.tickInterval + config.tickInterval := by
    refine (onTime.sound.targetInstant_countTick counted).trans ?_
    rw [elapsed, onTime.sound.interval_eq, onTime.ticks_eq, onTime.baseTicks_eq,
      onTime.baselineInstant_eq, zero_add, ← succ_mul]
    have inside := Nat.mul_le_mul_right config.tickInterval (Nat.le_of_lt few)
    exact (saturatingTimes_min_eq_iff positive).mpr ⟨few, Nat.le_trans inside fits⟩
  have early : count * config.tickInterval <
      (clock.governor.countTick (count * config.tickInterval)).targetInstant := by
    omega
  have sleeps : clock.governor.evaluatePacing (count * config.tickInterval) 0 =
      (.sleepHeadroom config.tickInterval,
        { clock.governor.countTick (count * config.tickInterval) with
          lastTickInstant := count * config.tickInterval
          accumulatedLag := 0 }) := by
    rw [ClockGovernor.evaluatePacing, if_neg (Nat.not_le_of_lt inTime), ClockGovernor.pace,
      if_pos early, target, Nat.add_sub_cancel_left]
  have sound := sound_step onTime.sound forward counted
  rw [PacedClock.step, sleeps] at sound ⊢
  refine ⟨sound, onTime.config_eq, congrArg (· + 1) onTime.ticks_eq, onTime.baseTicks_eq,
    onTime.baselineInstant_eq, ?_, (succ_mul _ _).symm⟩
  rw [Nat.add_sub_cancel]

theorem onTime_run (few : count < 2 ^ 32) :
    OnTime config count (run step (start config 0) (onTimeCalls config.tickInterval count)) ∧
      EachStep step (fun clock call => Forward clock call ∧ Counted clock call)
        (start config 0) (onTimeCalls config.tickInterval count) := by
  induction count with
  | zero =>
    refine ⟨⟨sound_start config 0, rfl, rfl, rfl, rfl, ?_, ?_⟩, trivial⟩
    · exact (zero_mul config.tickInterval).symm
    · exact (zero_mul config.tickInterval).symm
  | succ count ih =>
    rcases ih (lt_of_succ_lt few) with ⟨onTime, assumed⟩
    have now := (onTime.inTime short 0).1
    have counted := onTime.counted (lt_of_succ_lt few) ⟨count * config.tickInterval, 0⟩
    rw [onTimeCalls_succ, run_append, eachStep_append]
    exact ⟨OnTime.step positive short fits onTime few, assumed, ⟨now, counted⟩, trivial⟩

/-- After 2 ^ 32 - 1 calls that are all in time, the next target is one tick behind. -/
theorem not_paces_cutOff (last : count + 1 = 2 ^ 32) :
    EachStep step (fun clock call => Forward clock call ∧ Counted clock call)
        (start config 0) (onTimeCalls config.tickInterval (count + 1)) ∧
      ¬ EachStep step Paces (start config 0) (onTimeCalls config.tickInterval (count + 1)) := by
  have few : count < 2 ^ 32 := by omega
  rcases onTime_run positive short fits few with ⟨onTime, assumed⟩
  have now := onTime.inTime short 0
  have counted := onTime.counted few ⟨count * config.tickInterval, 0⟩
  rw [onTimeCalls_succ, eachStep_append, eachStep_append]
  refine ⟨⟨assumed, ⟨now.1, counted⟩, trivial⟩, fun paces => ?_⟩
  have countFits := (onTime.sound.paces_iff positive now.1 counted).mp paces.2.1
  have cut := (countFits now.2).2.1
  rw [elapsed, onTime.ticks_eq, onTime.baseTicks_eq] at cut
  omega

end

theorem not_eachStep_paces_drift :
    EachStep step (fun clock call => Forward clock call ∧ Counted clock call)
        (start driftConfig 0) (onTimeCalls 50000000 (2 ^ 32 - 1 + 1)) ∧
      ¬ EachStep step Paces (start driftConfig 0) (onTimeCalls 50000000 (2 ^ 32 - 1 + 1)) :=
  @not_paces_cutOff driftConfig (2 ^ 32 - 1) (by decide) (by decide) (by decide) (by decide)

end PacedClock

end Eidolon.Server
