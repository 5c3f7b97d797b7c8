import Eidolon.Core.Kinematics
import Eidolon.Library.Priority
import Eidolon.Library.RollingBuffer
import Eidolon.Library.Run
import Eidolon.Library.SortedTable
import Eidolon.World.WalIntegrity

/-!
# The flight recorder

Rolling buffers of inputs and keyframes, and sessions that replay them: a session goes to a
tick by restoring the nearest keyframe before it and applying the inputs since then.
-/

namespace Eidolon.World

open Core Library List Option

def maxInputFramesCapacity : Nat := 256

def maxKeyframesCapacity : Nat := 32

def frameBufferLength : Nat := 64

inductive ReplayError where
  | tickOutOfRange (requested earliest latest : UInt64)
  | keyframeNotFound
  deriving DecidableEq

inductive PlaybackSpeed where
  | quarter
  | normal
  | fast
  | ultra
  deriving DecidableEq

structure FlightRecorder where
  inputFrames : RollingBuffer maxInputFramesCapacity RecordedInputFrame
  keyframes : RollingBuffer maxKeyframesCapacity KeyframeSnapshot
  keyframeIntervalTicks : UInt32
  latestTick : UInt64
  earliestTick : UInt64

namespace FlightRecorder

def new (keyframeIntervalTicks : UInt32) : FlightRecorder where
  inputFrames := RollingBuffer.empty _ _
  keyframes := RollingBuffer.empty _ _
  keyframeIntervalTicks := max keyframeIntervalTicks 1
  latestTick := 0
  earliestTick := 0

variable (recorder : FlightRecorder)

def noteTick (tick : UInt64) : FlightRecorder :=
  let first := recorder.inputFrames.count = 0 ∧ recorder.keyframes.count = 0
  { recorder with
    earliestTick :=
      if first ∨ tick < recorder.earliestTick then tick else recorder.earliestTick
    latestTick := if recorder.latestTick < tick then tick else recorder.latestTick }

def recordInput (frame : RecordedInputFrame) : FlightRecorder :=
  { recorder.noteTick frame.tick with inputFrames := recorder.inputFrames.push frame }

def recordKeyframe (tick : UInt64) (entities : List EntityStateSnapshot) : FlightRecorder :=
  { recorder.noteTick tick with
    keyframes := recorder.keyframes.push (KeyframeSnapshot.new tick entities) }

def findNearestPriorKeyframe (targetTick : UInt64) : Option KeyframeSnapshot :=
  firstBest (fun candidate current => decide (current.tick < candidate.tick))
    (recorder.keyframes.stored.filter fun keyframe => decide (keyframe.tick ≤ targetTick))

def copyInputFramesRange (startTick endTick : UInt64) (outLen : Nat) : List RecordedInputFrame :=
  (recorder.inputFrames.stored.filter fun frame =>
    decide (startTick ≤ frame.tick ∧ frame.tick ≤ endTick)).take outLen

end FlightRecorder

structure ReplaySession where
  currentTick : UInt64
  speed : PlaybackSpeed
  activeEntities : List EntityStateSnapshot
  recorder : FlightRecorder

def FlightRecorder.createReplaySession (recorder : FlightRecorder) :
    Except ReplayError ReplaySession :=
  if recorder.keyframes.count = 0 then .error .keyframeNotFound
  else
    match recorder.findNearestPriorKeyframe recorder.earliestTick with
    | none => .error .keyframeNotFound
    | some initial =>
      .ok
        { currentTick := initial.tick
          speed := .normal
          activeEntities := initial.entities
          recorder := recorder }

def replayTickDuration : Fixed64 :=
  Fixed64.fromRaw 214748364

def applyFrame (entities : List EntityStateSnapshot) (frame : RecordedInputFrame) :
    List EntityStateSnapshot :=
  entities.map fun entity =>
    if entity.entityId = frame.entityId then
      extrapolateWithInput entity frame replayTickDuration
    else entity

def ticksThrough (start stop : UInt64) : List UInt64 :=
  (List.range' start.toNat (stop.toNat + 1 - start.toNat)).map UInt64.ofNat

namespace ReplaySession

def replayTick (session : ReplaySession) (tick : UInt64) : ReplaySession :=
  { session with
    activeEntities := (session.recorder.copyInputFramesRange tick tick frameBufferLength).foldl
      applyFrame session.activeEntities
    currentTick := tick }

/-- The tick after that of the keyframe wraps around as in a release build. -/
def scrubToTick (session : ReplaySession) (targetTick : UInt64) :
    Except ReplayError UInt64 × ReplaySession :=
  let earliest := session.recorder.earliestTick
  let latest := session.recorder.latestTick
  if targetTick < earliest ∨ latest < targetTick then
    (.error (.tickOutOfRange targetTick earliest latest), session)
  else
    match session.recorder.findNearestPriorKeyframe targetTick with
    | none => (.error .keyframeNotFound, session)
    | some base =>
      let restored :=
        { session with currentTick := base.tick, activeEntities := base.entities }
      let replayed := (ticksThrough (base.tick + 1) targetTick).foldl replayTick restored
      (.ok replayed.currentTick, replayed)

end ReplaySession

end Eidolon.World

/-!
## Fidelity of replays

A scrub that succeeds should show the entities of the last keyframe up to the tick with all
later inputs applied in the order of recording.  It does when the buffers still give that
keyframe and, for its entities, these inputs.
-/

namespace Eidolon.World

open Core Library List Option

def applyInputs (entity : EntityStateSnapshot) (frames : List RecordedInputFrame) :
    EntityStateSnapshot :=
  frames.foldl (fun current frame => extrapolateWithInput current frame replayTickDuration) entity

def framesFor (entityId : UInt32) (frames : List RecordedInputFrame) : List RecordedInputFrame :=
  frames.filter fun frame => decide (frame.entityId = entityId)

theorem foldl_applyFrame (frames : List RecordedInputFrame) (entities : List EntityStateSnapshot) :
    frames.foldl applyFrame entities =
      entities.map fun entity => applyInputs entity (framesFor entity.entityId frames) := by
  induction frames generalizing entities with
  | nil => exact (List.map_id' entities).symm
  | cons frame rest ih =>
    rw [foldl_cons, ih, applyFrame, List.map_map]
    refine map_congr_left ?_
    intro entity member
    simp only [Function.comp_apply]
    by_cases same : entity.entityId = frame.entityId
    · rw [if_pos same, framesFor, framesFor, filter_cons_of_pos (by simpa using same.symm)]
      rfl
    rw [if_neg same, framesFor, framesFor, filter_cons_of_neg (by simpa using Ne.symm same)]

theorem foldl_applyFrame_congr {first second : List RecordedInputFrame}
    {entities : List EntityStateSnapshot}
    (same : ∀ entity ∈ entities,
      framesFor entity.entityId first = framesFor entity.entityId second) :
    first.foldl applyFrame entities = second.foldl applyFrame entities := by
  rw [foldl_applyFrame, foldl_applyFrame]
  refine map_congr_left ?_
  intro entity member
  rw [same entity member]

namespace ReplaySession

variable (ticks : List UInt64) (session : ReplaySession)

theorem recorder_replay : (ticks.foldl replayTick session).recorder = session.recorder := by
  induction ticks generalizing session with
  | nil => rfl
  | cons tick rest ih =>
    rw [foldl_cons, ih]
    rfl

def replayed (recorder : FlightRecorder) (ticks : List UInt64) : List RecordedInputFrame :=
  ticks.flatMap fun tick => recorder.copyInputFramesRange tick tick frameBufferLength

theorem activeEntities_replay : (ticks.foldl replayTick session).activeEntities =
      (replayed session.recorder ticks).foldl applyFrame session.activeEntities := by
  induction ticks generalizing session with
  | nil => rfl
  | cons tick rest ih =>
    rw [foldl_cons, ih, replayed, replayed, flatMap_cons, foldl_append]
    rfl

theorem currentTick_replay :
    (ticks.foldl replayTick session).currentTick = ticks.getLast?.getD session.currentTick := by
  induction ticks generalizing session with
  | nil => rfl
  | cons tick rest ih =>
    rw [foldl_cons, ih, List.getLast?_cons]
    rfl

end ReplaySession

theorem ticksThrough_succ {base : UInt64} (target : UInt64) (notLast : base.toNat + 1 < 2 ^ 64) :
    ticksThrough (base + 1) target =
      (List.range' (base.toNat + 1) (target.toNat - base.toNat)).map UInt64.ofNat := by
  have next : (base + 1).toNat = base.toNat + 1 := by
    rw [UInt64.toNat_add, UInt64.toNat_one, Nat.mod_eq_of_lt notLast]
  rw [ticksThrough, next, Nat.add_sub_add_right]

theorem getLast?_ticksThrough {base target : UInt64} (ordered : base ≤ target)
    (notLast : base.toNat + 1 < 2 ^ 64) :
    (ticksThrough (base + 1) target).getLast?.getD base = target := by
  have orderedNat : base.toNat ≤ target.toNat := UInt64.le_iff_toNat_le.mp ordered
  rw [ticksThrough_succ target notLast, List.getLast?_map]
  rcases count : target.toNat - base.toNat with _ | count'
  · have equal : base.toNat = target.toNat := by omega
    exact UInt64.toNat.inj equal
  rw [range'_concat, List.getLast?_concat, map_some, getD_some, Nat.one_mul]
  have last : base.toNat + 1 + count' = target.toNat := by omega
  rw [last, UInt64.ofNat_toNat]

structure RecordedKeyframe where
  tick : UInt64
  entities : List EntityStateSnapshot
  deriving DecidableEq

def RecordedKeyframe.snapshot (keyframe : RecordedKeyframe) : KeyframeSnapshot :=
  KeyframeSnapshot.new keyframe.tick keyframe.entities

variable (keyframes : List RecordedKeyframe)

def lastKeyframe (targetTick : UInt64) : Option RecordedKeyframe :=
  (keyframes.filter fun keyframe => decide (keyframe.tick ≤ targetTick)).getLast?

variable (inputs : List RecordedInputFrame)

def inputsSince (baseTick targetTick : UInt64) : List RecordedInputFrame :=
  inputs.filter fun frame => decide (baseTick < frame.tick ∧ frame.tick ≤ targetTick)

def expectedEntities (targetTick : UInt64) : Option (List EntityStateSnapshot) :=
  (lastKeyframe keyframes targetTick).map fun base =>
    (inputsSince inputs base.tick targetTick).foldl applyFrame base.entities

def inputsAt (tick : UInt64) : List RecordedInputFrame :=
  inputs.filter fun frame => decide (frame.tick = tick)

/-- A recorder with the open sessions that replay it, and all that was recorded. -/
structure Recording where
  recorder : FlightRecorder
  sessions : List ReplaySession
  keyframes : List RecordedKeyframe
  inputs : List RecordedInputFrame

inductive RecorderCall where
  | recordInput (frame : RecordedInputFrame)
  | recordKeyframe (tick : UInt64) (entities : List EntityStateSnapshot)
  | createReplaySession
  | scrubToTick (position : Nat) (targetTick : UInt64)
  deriving DecidableEq

namespace Recording

def start (keyframeIntervalTicks : UInt32) : Recording where
  recorder := FlightRecorder.new keyframeIntervalTicks
  sessions := []
  keyframes := []
  inputs := []

variable (recording : Recording) (call : RecorderCall)

/-- Sessions borrow the recorder, so they are closed when something is recorded. -/
def step : Recording :=
  match call with
  | .recordInput frame =>
    { recording with
      recorder := recording.recorder.recordInput frame
      sessions := []
      inputs := recording.inputs ++ [frame] }
  | .recordKeyframe tick entities =>
    { recording with
      recorder := recording.recorder.recordKeyframe tick entities
      sessions := []
      keyframes := recording.keyframes ++ [⟨tick, entities⟩] }
  | .createReplaySession =>
    match recording.recorder.createReplaySession with
    | .error _ => recording
    | .ok session => { recording with sessions := recording.sessions ++ [session] }
  | .scrubToTick position targetTick =>
    match recording.sessions[position]? with
    | none => recording
    | some session =>
      { recording with
        sessions := recording.sessions.set position (session.scrubToTick targetTick).2 }

/-- Ticks do not decrease and keyframes are small enough. -/
def Agreed : Prop :=
  match call with
  | .recordInput frame =>
    (∀ earlier ∈ recording.inputs, earlier.tick ≤ frame.tick) ∧
      ∀ earlier ∈ recording.keyframes, earlier.tick ≤ frame.tick
  | .recordKeyframe tick entities =>
    (∀ earlier ∈ recording.inputs, earlier.tick ≤ tick) ∧
      (∀ earlier ∈ recording.keyframes, earlier.tick ≤ tick) ∧
      entities.length ≤ maxKeyframeEntities
  | .createReplaySession => True
  | .scrubToTick _ _ => True

instance (recording : Recording) : (call : RecorderCall) → Decidable (recording.Agreed call)
  | .recordInput _ => inferInstanceAs (Decidable (_ ∧ _))
  | .recordKeyframe _ _ => inferInstanceAs (Decidable (_ ∧ _))
  | .createReplaySession => .isTrue trivial
  | .scrubToTick _ _ => .isTrue trivial

/-- A scrub that succeeds gives the entities as they should be, and one that fails changes
nothing. -/
def ScrubsFaithfully : Prop :=
  match call with
  | .scrubToTick position targetTick =>
    ∀ session, recording.sessions[position]? = some session →
      match session.scrubToTick targetTick with
      | (.ok reached, after) =>
        reached = targetTick ∧ after.currentTick = targetTick ∧
          expectedEntities recording.keyframes recording.inputs targetTick =
            some after.activeEntities
      | (.error _, after) => after = session
  | _ => True

structure KeepsSince (recording : Recording) (base : RecordedKeyframe)
    (targetTick : UInt64) : Prop where
  notLast : base.tick.toNat + 1 < 2 ^ 64
  keyframe :
    (RollingBuffer.slotOrder maxKeyframesCapacity recording.keyframes).find?
      (fun keyframe => decide (keyframe.tick = base.tick)) = some base
  inputs : ∀ frame ∈ inputsSince recording.inputs base.tick targetTick,
    ∀ entity ∈ base.entities,
      framesFor entity.entityId
          ((inputsAt (RollingBuffer.slotOrder maxInputFramesCapacity recording.inputs)
            frame.tick).take frameBufferLength) =
        framesFor entity.entityId (inputsAt recording.inputs frame.tick)

/-- A scrub finds in the buffers what it needs. -/
def KeepsInputs : Prop :=
  match call with
  | .scrubToTick _ targetTick =>
    targetTick ≤ recording.recorder.latestTick → ∀ base,
        lastKeyframe (RollingBuffer.recent maxKeyframesCapacity recording.keyframes)
            targetTick = some base →
          recording.KeepsSince base targetTick
  | _ => True

/-- The recorder holds the last inputs and keyframes of the recording. -/
structure Sound (recording : Recording) : Prop where
  inputFrames : recording.recorder.inputFrames.Holds recording.inputs
  keyframes : recording.recorder.keyframes.Holds (recording.keyframes.map (·.snapshot))
  inputsOrdered : KeyOrdered (fun frame => frame.tick.toNat) recording.inputs
  keyframesOrdered : KeyOrdered (fun keyframe => keyframe.tick.toNat) recording.keyframes
  small : ∀ keyframe ∈ recording.keyframes, keyframe.entities.length ≤ maxKeyframeEntities
  sessions : ∀ session ∈ recording.sessions, session.recorder = recording.recorder

theorem sound_start (keyframeIntervalTicks : UInt32) : (start keyframeIntervalTicks).Sound where
  inputFrames := RollingBuffer.holds_empty _
  keyframes := RollingBuffer.holds_empty _
  inputsOrdered := KeyOrdered.nil
  keyframesOrdered := KeyOrdered.nil
  small := fun _ member => absurd member not_mem_nil
  sessions := fun _ member => absurd member not_mem_nil

variable {recording : Recording}

theorem Sound.recordInput (sound : recording.Sound) {frame : RecordedInputFrame}
    (agreed : recording.Agreed (.recordInput frame)) :
    (recording.step (.recordInput frame)).Sound where
  inputFrames := sound.inputFrames.push (Nat.zero_lt_succ 255) frame
  keyframes := sound.keyframes
  inputsOrdered := sound.inputsOrdered.append_singleton
    fun earlier member => UInt64.le_iff_toNat_le.mp (agreed.1 earlier member)
  keyframesOrdered := sound.keyframesOrdered
  small := sound.small
  sessions := fun _ member => absurd member not_mem_nil

theorem Sound.recordKeyframe (sound : recording.Sound) {tick : UInt64}
    {entities : List EntityStateSnapshot}
    (agreed : recording.Agreed (.recordKeyframe tick entities)) :
    (recording.step (.recordKeyframe tick entities)).Sound := by
  rcases agreed with ⟨_, later, small⟩
  refine ⟨sound.inputFrames, ?_, sound.inputsOrdered, ?_, ?_, ?_⟩
  · have pushed := sound.keyframes.push (Nat.zero_lt_succ 31) (KeyframeSnapshot.new tick entities)
    have written : (recording.keyframes ++ [RecordedKeyframe.mk tick entities]).map (·.snapshot) =
          recording.keyframes.map (·.snapshot) ++ [KeyframeSnapshot.new tick entities] :=
      map_append
    rw [← written] at pushed
    exact pushed
  · exact sound.keyframesOrdered.append_singleton
      fun earlier member => UInt64.le_iff_toNat_le.mp (later earlier member)
  · intro keyframe member
    rcases List.mem_append.mp member with before | new
    · exact sound.small keyframe before
    rw [List.mem_singleton.mp new]
    exact small
  intro session member
  exact absurd member not_mem_nil

theorem createReplaySession_recorder {recorder : FlightRecorder} {session : ReplaySession}
    (created : recorder.createReplaySession = .ok session) : session.recorder = recorder := by
  rw [FlightRecorder.createReplaySession] at created
  split at created
  · cases created
  split at created
  · cases created
  cases created
  rfl

theorem scrubToTick_recorder (session : ReplaySession) (targetTick : UInt64) :
    (session.scrubToTick targetTick).2.recorder = session.recorder := by
  rw [ReplaySession.scrubToTick]
  split
  · rfl
  split
  · rfl
  exact ReplaySession.recorder_replay _ _

theorem Sound.createReplaySession (sound : recording.Sound) :
    (recording.step .createReplaySession).Sound := by
  rw [step]
  split
  · exact sound
  rename_i session created
  refine { sound with sessions := ?_ }
  intro other member
  rcases List.mem_append.mp member with before | new
  · exact sound.sessions other before
  rw [List.mem_singleton.mp new]
  exact createReplaySession_recorder created

theorem Sound.scrubToTick (sound : recording.Sound) (position : Nat) (targetTick : UInt64) :
    (recording.step (.scrubToTick position targetTick)).Sound := by
  rw [step]
  split
  · exact sound
  rename_i session found
  refine { sound with sessions := ?_ }
  intro other member
  rcases mem_or_eq_of_mem_set member with before | scrubbed
  · exact sound.sessions other before
  rw [scrubbed, scrubToTick_recorder]
  exact sound.sessions session (mem_of_getElem? found)

theorem Sound.step (sound : recording.Sound) {call : RecorderCall}
    (agreed : recording.Agreed call) : (recording.step call).Sound := by
  cases call with
  | recordInput frame => exact sound.recordInput agreed
  | recordKeyframe tick entities => exact sound.recordKeyframe agreed
  | createReplaySession => exact sound.createReplaySession
  | scrubToTick position targetTick => exact sound.scrubToTick position targetTick

variable {targetTick : UInt64}

theorem lastKeyframe_of_recent {capacity : Nat} {keyframes : List RecordedKeyframe}
    {base : RecordedKeyframe}
    (last : lastKeyframe (RollingBuffer.recent capacity keyframes) targetTick = some base) :
    lastKeyframe keyframes targetTick = some base := by
  have split := take_append_drop (keyframes.length - capacity) keyframes
  rw [lastKeyframe, RollingBuffer.recent] at last
  rw [lastKeyframe, ← split, filter_append, List.getLast?_append, last, some_or]

theorem findNearestPriorKeyframe_eq (sound : recording.Sound) (targetTick : UInt64) :
    recording.recorder.findNearestPriorKeyframe targetTick =
      (lastKeyframe (RollingBuffer.recent maxKeyframesCapacity recording.keyframes)
          targetTick).bind fun base =>
        ((RollingBuffer.slotOrder maxKeyframesCapacity recording.keyframes).find?
          fun keyframe => decide (keyframe.tick = base.tick)).map (·.snapshot) := by
  have candidates : recording.recorder.findNearestPriorKeyframe targetTick = (firstBest
        (fun candidate current : RecordedKeyframe =>
          decide (current.tick.toNat < candidate.tick.toNat))
        ((RollingBuffer.slotOrder maxKeyframesCapacity recording.keyframes).filter
          fun keyframe => decide (keyframe.tick ≤ targetTick))).map (·.snapshot) := by
    rw [FlightRecorder.findNearestPriorKeyframe, sound.keyframes.stored_eq,
      RollingBuffer.slotOrder_map, List.filter_map, firstBest_map]
    rfl
  rw [candidates]
  cases last : lastKeyframe (RollingBuffer.recent maxKeyframesCapacity recording.keyframes)
      targetTick with
  | none =>
    rw [lastKeyframe, List.getLast?_eq_none_iff, filter_eq_nil_iff] at last
    have noCandidates : (RollingBuffer.slotOrder maxKeyframesCapacity recording.keyframes).filter
          (fun keyframe => decide (keyframe.tick ≤ targetTick)) = [] := by
      rw [filter_eq_nil_iff]
      intro keyframe member
      exact last keyframe (RollingBuffer.mem_slotOrder.mp member)
    rw [noCandidates]
    rfl
  | some base =>
    have baseMember := List.mem_of_getLast? last
    rw [mem_filter, decide_eq_true_eq] at baseMember
    have recentOrdered : KeyOrdered (fun keyframe : RecordedKeyframe => keyframe.tick.toNat)
        ((RollingBuffer.recent maxKeyframesCapacity recording.keyframes).filter
          fun keyframe => decide (keyframe.tick ≤ targetTick)) :=
      (sound.keyframesOrdered.drop).filter _
    have baseCandidate : base ∈
        (RollingBuffer.slotOrder maxKeyframesCapacity recording.keyframes).filter
          fun keyframe => decide (keyframe.tick ≤ targetTick) := by
      rw [mem_filter, decide_eq_true_eq, RollingBuffer.mem_slotOrder]
      exact baseMember
    have latest : ∀ keyframe ∈
        (RollingBuffer.slotOrder maxKeyframesCapacity recording.keyframes).filter
          (fun keyframe => decide (keyframe.tick ≤ targetTick)),
        keyframe.tick.toNat ≤ base.tick.toNat := by
      intro keyframe member
      rw [mem_filter, RollingBuffer.mem_slotOrder] at member
      exact recentOrdered.le_of_getLast? last (List.mem_filter.mpr member)
    rw [firstBest_of_greatest (fun keyframe : RecordedKeyframe => keyframe.tick.toNat)
      baseCandidate latest, List.find?_filter]
    congr 2
    funext keyframe
    rw [decide_eq_decide, decide_eq_true_eq, decide_eq_true_eq]
    constructor
    · intro both
      exact UInt64.toNat.inj both.2
    intro same
    rw [same]
    exact ⟨baseMember.2, rfl⟩

theorem copyInputFramesRange_tick (sound : recording.Sound) (tick : UInt64) :
    recording.recorder.copyInputFramesRange tick tick frameBufferLength =
      (inputsAt (RollingBuffer.slotOrder maxInputFramesCapacity recording.inputs) tick).take
        frameBufferLength := by
  rw [FlightRecorder.copyInputFramesRange, sound.inputFrames.stored_eq]
  congr 2
  funext frame
  rw [decide_eq_decide]
  constructor
  · intro both
    exact UInt64.le_antisymm both.2 both.1
  intro same
  rw [same]
  exact ⟨UInt64.le_refl tick, UInt64.le_refl tick⟩

theorem inputsAt_slotOrder_eq_nil {inputs : List RecordedInputFrame} {tick : UInt64}
    (without : inputsAt inputs tick = []) (capacity : Nat) :
    inputsAt (RollingBuffer.slotOrder capacity inputs) tick = [] := by
  rw [inputsAt, filter_eq_nil_iff] at without ⊢
  intro frame member
  exact without frame (RollingBuffer.mem_of_mem_recent (RollingBuffer.mem_slotOrder.mp member))

theorem flatMap_inputsAt {inputs : List RecordedInputFrame} {baseTick : UInt64}
    (inputsOrdered : KeyOrdered (fun frame : RecordedInputFrame => frame.tick.toNat) inputs)
    (notLast : baseTick.toNat + 1 < 2 ^ 64) :
    (ticksThrough (baseTick + 1) targetTick).flatMap (inputsAt inputs) =
      inputsSince inputs baseTick targetTick := by
  have targetBound : targetTick.toNat < 2 ^ 64 := targetTick.toNat_lt
  have byNumber : (ticksThrough (baseTick + 1) targetTick).flatMap (inputsAt inputs) =
      (List.range' (baseTick.toNat + 1) (targetTick.toNat - baseTick.toNat)).flatMap
        fun tick => inputs.filter fun frame => decide (frame.tick.toNat = tick) := by
    rw [ticksThrough_succ targetTick notLast, flatMap_map]
    refine flatMap_congr ?_
    intro tick member
    rw [mem_range'_1] at member
    rw [inputsAt]
    congr 1
    funext frame
    rw [decide_eq_decide, ← UInt64.toNat_inj, UInt64.toNat_ofNat', Nat.mod_eq_of_lt (by omega)]
  rw [byNumber, inputsOrdered.flatMap_filter]
  congr 1
  funext frame
  rw [decide_eq_decide, UInt64.lt_iff_toNat_lt, UInt64.le_iff_toNat_le]
  omega

theorem framesFor_replayed (sound : recording.Sound) {base : RecordedKeyframe}
    (keeps : recording.KeepsSince base targetTick) {entity : EntityStateSnapshot}
    (member : entity ∈ base.entities) :
    framesFor entity.entityId
        (ReplaySession.replayed recording.recorder (ticksThrough (base.tick + 1) targetTick)) =
      framesFor entity.entityId (inputsSince recording.inputs base.tick targetTick) := by
  rw [← flatMap_inputsAt sound.inputsOrdered keeps.notLast, ReplaySession.replayed,
    framesFor, framesFor, filter_flatMap, filter_flatMap]
  refine flatMap_congr ?_
  intro tick tickMember
  rw [copyInputFramesRange_tick sound]
  rcases there : inputsAt recording.inputs tick with _ | ⟨frame, rest⟩
  · rw [inputsAt_slotOrder_eq_nil there, take_nil]
  have frameMember : frame ∈ inputsAt recording.inputs tick := by
    rw [there]
    exact mem_cons_self
  have frameTick : frame.tick = tick := by
    rw [inputsAt, mem_filter, decide_eq_true_eq] at frameMember
    exact frameMember.2
  have since : frame ∈ inputsSince recording.inputs base.tick targetTick := by
    rw [← flatMap_inputsAt sound.inputsOrdered keeps.notLast, mem_flatMap]
    exact ⟨tick, tickMember, frameMember⟩
  have kept := keeps.inputs frame since entity member
  rw [frameTick, there] at kept
  exact kept

theorem scrubsFaithfully_of_keepsInputs (sound : recording.Sound) {call : RecorderCall}
    (keepsInputs : recording.KeepsInputs call) : recording.ScrubsFaithfully call := by
  cases call with
  | scrubToTick position targetTick =>
    intro session found
    have sameRecorder := sound.sessions session (mem_of_getElem? found)
    rw [ReplaySession.scrubToTick, sameRecorder]
    by_cases outOfRange : targetTick < recording.recorder.earliestTick ∨
        recording.recorder.latestTick < targetTick
    · rw [if_pos outOfRange]
    rw [if_neg outOfRange, findNearestPriorKeyframe_eq sound]
    cases last : lastKeyframe
        (RollingBuffer.recent maxKeyframesCapacity recording.keyframes) targetTick with
    | none => rfl
    | some base =>
      have inWindow : targetTick ≤ recording.recorder.latestTick :=
        UInt64.not_lt.mp fun beyond => outOfRange (Or.inr beyond)
      have keeps := keepsInputs inWindow base last
      have lastOfAll := lastKeyframe_of_recent last
      have baseMember := List.mem_of_getLast? lastOfAll
      rw [mem_filter, decide_eq_true_eq] at baseMember
      rcases baseMember with ⟨recorded, ordered⟩
      have restored : base.snapshot.entities = base.entities :=
        take_of_length_le (sound.small base recorded)
      have replayedAll : (ReplaySession.replayed recording.recorder
              (ticksThrough (base.tick + 1) targetTick)).foldl applyFrame base.entities =
            (inputsSince recording.inputs base.tick targetTick).foldl applyFrame
              base.entities :=
        foldl_applyFrame_congr fun entity member =>
          framesFor_replayed sound keeps member
      have reached := getLast?_ticksThrough ordered keeps.notLast
      rw [bind_some, keeps.keyframe]
      refine ⟨?_, ?_, ?_⟩
      · rw [ReplaySession.currentTick_replay]
        exact reached
      · rw [ReplaySession.currentTick_replay]
        exact reached
      rw [ReplaySession.activeEntities_replay, expectedEntities, lastOfAll, restored]
      exact congrArg some replayedAll.symm
  | _ => trivial

/-- Every scrub of a run that finds what it needs is faithful. -/
theorem scrubs_faithful_of_inputs_kept (keyframeIntervalTicks : UInt32) (calls : List RecorderCall)
    (agreed : EachStep step Agreed (start keyframeIntervalTicks) calls)
    (kept : EachStep step KeepsInputs (start keyframeIntervalTicks) calls) :
    EachStep step ScrubsFaithfully (start keyframeIntervalTicks) calls := by
  have preserved : ∀ recording call, Sound recording →
      recording.Agreed call ∧ recording.KeepsInputs call → (recording.step call).Sound :=
    fun _ _ sound assumed => sound.step assumed.1
  have correct : ∀ recording call, Sound recording →
      recording.Agreed call ∧ recording.KeepsInputs call → recording.ScrubsFaithfully call :=
    fun _ _ sound assumed => scrubsFaithfully_of_keepsInputs sound assumed.2
  exact eachStep_of_invariant preserved correct (sound_start keyframeIntervalTicks)
    (agreed.and kept)

private def standing : EntityStateSnapshot where
  entityId := 7
  position := Vec3Fix.zero
  velocity := Vec3Fix.zero
  yaw := QuantizedYaw.fromByte 0
  flags := 0

private def walking (tick : UInt64) (flags : UInt8) : RecordedInputFrame where
  tick := tick
  entityId := 7
  velocity := ⟨Fixed64.half, Fixed64.zero, Fixed64.zero⟩
  yaw := QuantizedYaw.fromByte 64
  flags := flags

/-- A keyframe, an input at each of the next two ticks and a scrub over both. -/
theorem scrubs_faithful_of_inputs_kept_two_ticks : EachStep step ScrubsFaithfully (start 20)
      [.recordKeyframe 1 [standing], .recordInput (walking 2 1), .recordInput (walking 3 2),
        .createReplaySession, .scrubToTick 0 3] := by
  refine scrubs_faithful_of_inputs_kept 20 _ ?_ ?_
  · decide
  refine ⟨trivial, trivial, trivial, trivial, ?_, trivial⟩
  intro _ base last
  have first : base = ⟨1, [standing]⟩ := by
    have evaluated : lastKeyframe [⟨1, [standing]⟩] 3 = some ⟨1, [standing]⟩ := by decide
    exact some.inj (last.symm.trans evaluated)
  subst first
  refine ⟨by decide, by decide, ?_⟩
  decide

private def crowded : List RecorderCall :=
  [.recordKeyframe 1 [standing]] ++ List.replicate frameBufferLength (.recordInput (walking 2 0)) ++
    [.recordInput (walking 2 1), .createReplaySession]

/-- The last input of a crowded tick is lost. -/
theorem not_scrubs_faithful_crowded_tick :
    ¬ ∀ (keyframeIntervalTicks : UInt32) (calls : List RecorderCall),
      EachStep step Agreed (start keyframeIntervalTicks) calls →
        EachStep step ScrubsFaithfully (start keyframeIntervalTicks) calls := by
  intro always
  have faithful := always 20 (crowded ++ [.scrubToTick 0 2]) (by decide +kernel)
  rw [eachStep_append] at faithful
  have opened : (run step (start 20) crowded).sessions[0]?.isSome := by decide +kernel
  have reached : ((run step (start 20) crowded).sessions[0]?.map fun session =>
      (session.scrubToTick 2).1) = some (.ok 2) := by decide +kernel
  have shown : ((run step (start 20) crowded).sessions[0]?.map fun session =>
      (session.scrubToTick 2).2.activeEntities.map (·.flags)) = some [0] := by decide +kernel
  have expected : (expectedEntities (run step (start 20) crowded).keyframes
      (run step (start 20) crowded).inputs 2).map (fun entities => entities.map (·.flags)) =
        some [1] := by decide +kernel
  obtain ⟨session, found⟩ := Option.isSome_iff_exists.mp opened
  have scrub := faithful.2.1 session found
  rw [found, map_some, some.injEq] at reached shown
  rcases outcome : session.scrubToTick 2 with ⟨result, after⟩
  rw [outcome] at scrub reached shown
  simp only at reached shown
  rw [reached] at scrub
  rw [scrub.2.2, map_some, shown] at expected
  exact absurd expected (by decide)

end Recording

structure ReplayDivergence (Drift : Type*) where
  tick : UInt64
  expectedChecksum : UInt32
  actualChecksum : UInt32
  divergentEntityId : Option UInt32
  driftDistance : Drift

namespace ReplaySession

section Divergence

-- The root of a squared distance, a thousandth and zero as floating-point numbers.
variable {Drift : Type*} [LT Drift] [DecidableLT Drift] (rootOf : Fixed64 → Drift)
  (tolerance noDrift : Drift) (session : ReplaySession)

def currentChecksum : UInt32 :=
  computeEntitiesChecksum session.activeEntities

def getEntityState (entityId : UInt32) : Option EntityStateSnapshot :=
  session.activeEntities.find? fun entity => entity.entityId == entityId

def noteDrift (noted : Option UInt32 × Drift) (liveEnt : EntityStateSnapshot) :
    Option UInt32 × Drift :=
  match session.getEntityState liveEnt.entityId with
  | none => noted
  | some recordedEnt =>
    let dist := rootOf (liveEnt.position.distanceSquared recordedEnt.position)
    if tolerance < dist ∧ noted.2 < dist then (some liveEnt.entityId, dist) else noted

def detectDivergence (liveTick : UInt64) (liveChecksum : UInt32)
    (liveEntities : List EntityStateSnapshot) : Option (ReplayDivergence Drift) :=
  if liveTick ≠ session.currentTick then none
  else if session.currentChecksum = liveChecksum then none
  else
    let (divergentEntity, maxDrift) :=
      liveEntities.foldl (session.noteDrift rootOf tolerance) (none, noDrift)
    some
      { tick := liveTick
        expectedChecksum := session.currentChecksum
        actualChecksum := liveChecksum
        divergentEntityId := divergentEntity
        driftDistance := maxDrift }

def compareLive (liveEntities : List EntityStateSnapshot) : Option (ReplayDivergence Drift) :=
  session.detectDivergence rootOf tolerance noDrift session.currentTick
    (computeEntitiesChecksum liveEntities) liveEntities

def Moved (liveEntities : List EntityStateSnapshot) (entityId : UInt32) : Prop :=
  ∃ liveEnt ∈ liveEntities, ∃ recordedEnt, liveEnt.entityId = entityId ∧
    session.getEntityState entityId = some recordedEnt ∧ liveEnt.position ≠ recordedEnt.position

/-- Nothing is reported for the recorded entities alone, and only moved entities are named. -/
def DetectsDivergence (liveEntities : List EntityStateSnapshot) : Prop :=
  (session.compareLive rootOf tolerance noDrift liveEntities = none ↔
      liveEntities = session.activeEntities) ∧
    ∀ divergence ∈ session.compareLive rootOf tolerance noDrift liveEntities,
      ∀ entityId ∈ divergence.divergentEntityId, session.Moved liveEntities entityId

variable {rootOf tolerance noDrift session}

theorem foldl_noteDrift (still : ¬ tolerance < rootOf Fixed64.zero)
    (liveEntities : List EntityStateSnapshot) :
    ∀ {noted : Option UInt32 × Drift} {entityId : UInt32},
      (liveEntities.foldl (session.noteDrift rootOf tolerance) noted).1 = some entityId →
        noted.1 = some entityId ∨ session.Moved liveEntities entityId := by
  induction liveEntities with
  | nil => exact fun named => .inl named
  | cons liveEnt liveEntities hypothesis =>
    intro noted entityId named
    rcases hypothesis named with before | ⟨other, member, moved⟩
    rotate_left
    · exact .inr ⟨other, mem_cons_of_mem _ member, moved⟩
    rw [noteDrift] at before
    split at before
    · exact .inl before
    rename_i recordedEnt found
    dsimp only at before
    split_ifs at before with far
    rotate_left
    · exact .inl before
    cases before
    refine .inr ⟨liveEnt, mem_cons_self, recordedEnt, rfl, found, fun same => still ?_⟩
    have near : liveEnt.position.distanceSquared recordedEnt.position = Fixed64.zero := by
      simp [same, Vec3Fix.distanceSquared, Vec3Fix.sub, Vec3Fix.magnitudeSquared, Vec3Fix.dot,
        Fixed64.saturatingSub, Fixed64.saturatingMul, Fixed64.saturatingAdd, Fixed64.zero]
      decide
    exact near ▸ far.1

theorem compareLive_eq_none_iff {liveEntities : List EntityStateSnapshot} :
    session.compareLive rootOf tolerance noDrift liveEntities = none ↔
      computeEntitiesChecksum session.activeEntities = computeEntitiesChecksum liveEntities := by
  rw [compareLive, detectDivergence, if_neg (not_not.mpr rfl), currentChecksum]
  split_ifs with same <;> simp [same]

theorem computeEntitiesChecksum_eq (entities : List EntityStateSnapshot) :
    computeEntitiesChecksum entities = computeAdler32 (entities.flatMap checksumBytes) :=
  rfl

/-- Divergence is detected unless different entities have bytes of the same sums. -/
theorem detectsDivergence_iff (still : ¬ tolerance < rootOf Fixed64.zero)
    (session : ReplaySession) (liveEntities : List EntityStateSnapshot) :
    session.DetectsDivergence rootOf tolerance noDrift liveEntities ↔
      (adlerSums (session.activeEntities.flatMap checksumBytes) =
          adlerSums (liveEntities.flatMap checksumBytes) →
        liveEntities = session.activeEntities) := by
  rw [DetectsDivergence, compareLive_eq_none_iff, computeEntitiesChecksum_eq,
    computeEntitiesChecksum_eq, computeAdler32_eq_iff]
  constructor
  · exact fun detects => detects.1.mp
  refine fun exact => ⟨⟨exact, fun same => by rw [same]⟩, fun divergence found entityId named => ?_⟩
  rw [compareLive, detectDivergence, if_neg (not_not.mpr rfl), mem_def] at found
  split_ifs at found
  obtain rfl := some.inj found
  rcases foldl_noteDrift still liveEntities named with nothing | moved
  · cases nothing
  exact moved

end Divergence

private def standingSession : ReplaySession where
  currentTick := 1
  speed := .normal
  activeEntities := [Recording.standing]
  recorder := FlightRecorder.new 20

/-- The raw squares above 4294 are those of distances above a thousandth. -/
theorem detectsDivergence_iff_moved :
    standingSession.DetectsDivergence (fun squared => squared.raw.toInt) 4294 0
      [{ Recording.standing with position := ⟨Fixed64.half, Fixed64.zero, Fixed64.zero⟩ }] :=
  (detectsDivergence_iff (by decide) _ _).mpr (by decide +kernel)

/-- The checksum does not see a velocity. -/
theorem not_detectsDivergence_velocity :
    ¬ standingSession.DetectsDivergence (fun squared => squared.raw.toInt) 4294 0
      [{ Recording.standing with velocity := ⟨Fixed64.half, Fixed64.zero, Fixed64.zero⟩ }] := by
  intro detects
  have same := detects.1.mp (compareLive_eq_none_iff.mpr (by decide +kernel))
  revert same
  decide

section Navigation

variable (session : ReplaySession)

def stepForward (deltaTicks : UInt64) : Except ReplayError UInt64 × ReplaySession :=
  session.scrubToTick (min (session.currentTick + deltaTicks) session.recorder.latestTick)

def stepBackward (deltaTicks : UInt64) : Except ReplayError UInt64 × ReplaySession :=
  session.scrubToTick
    (max (saturatingSub64 session.currentTick deltaTicks) session.recorder.earliestTick)

def setPlaybackSpeed (speed : PlaybackSpeed) : ReplaySession :=
  { session with speed := speed }

inductive Navigation where
  | scrubToTick (targetTick : UInt64)
  | stepForward (deltaTicks : UInt64)
  | stepBackward (deltaTicks : UInt64)
  | setPlaybackSpeed (speed : PlaybackSpeed)

def navigate : Navigation → ReplaySession
  | .scrubToTick targetTick => (session.scrubToTick targetTick).2
  | .stepForward deltaTicks => (session.stepForward deltaTicks).2
  | .stepBackward deltaTicks => (session.stepBackward deltaTicks).2
  | .setPlaybackSpeed speed => session.setPlaybackSpeed speed

/-- A session that is where it was, or where a single scrub of the old one leads. -/
structure ReachedFrom (after : ReplaySession) : Prop where
  borrowed : after.recorder = session.recorder
  direct : after.setPlaybackSpeed session.speed = session ∨
    session.scrubToTick after.currentTick =
      (.ok after.currentTick, after.setPlaybackSpeed session.speed)

theorem setPlaybackSpeed_replay (ticks : List UInt64) (speed : PlaybackSpeed) :
    (ticks.foldl replayTick session).setPlaybackSpeed speed =
      ticks.foldl replayTick (session.setPlaybackSpeed speed) := by
  induction ticks generalizing session with
  | nil => rfl
  | cons tick rest ih => exact ih (session.replayTick tick)

variable {session} (notLast : session.recorder.latestTick.toNat + 1 < 2 ^ 64)
include notLast

theorem ReachedFrom.scrubToTick {after : ReplaySession} (reached : session.ReachedFrom after)
    (targetTick : UInt64) : session.ReachedFrom (after.scrubToTick targetTick).2 := by
  refine ⟨(Recording.scrubToTick_recorder after targetTick).trans reached.borrowed, ?_⟩
  rw [ReplaySession.scrubToTick, reached.borrowed]
  by_cases outOfRange : targetTick < session.recorder.earliestTick ∨
      session.recorder.latestTick < targetTick
  · rw [if_pos outOfRange]
    exact reached.direct
  rw [if_neg outOfRange]
  cases found : session.recorder.findNearestPriorKeyframe targetTick with
  | none => exact reached.direct
  | some base =>
    right
    have ordered : base.tick ≤ targetTick :=
      of_decide_eq_true (mem_filter.mp (mem_of_firstBest _ found)).2
    have inWindow := UInt64.not_lt.mp fun beyond => outOfRange (.inr beyond)
    have last := getLast?_ticksThrough ordered (by
      rw [UInt64.le_iff_toNat_le] at ordered inWindow
      omega)
    simp only [currentTick_replay, last, setPlaybackSpeed_replay]
    rw [ReplaySession.scrubToTick, if_neg outOfRange, found]
    simp only [currentTick_replay, last, setPlaybackSpeed]

theorem reachedFrom_run (ways : List Navigation) :
    session.ReachedFrom (run navigate session ways) := by
  have preserved : ∀ after way, session.ReachedFrom after →
      session.ReachedFrom (after.navigate way) := by
    intro after way reached
    cases way with
    | scrubToTick targetTick => exact reached.scrubToTick notLast targetTick
    | stepForward deltaTicks => exact reached.scrubToTick notLast _
    | stepBackward deltaTicks => exact reached.scrubToTick notLast _
    | setPlaybackSpeed speed => exact ⟨reached.borrowed, reached.direct⟩
  exact (throughout_of_preserved preserved ⟨rfl, .inl rfl⟩ ways).run

end Navigation

private def replaying : ReplaySession where
  currentTick := 1
  speed := .normal
  activeEntities := [Recording.standing]
  recorder := ((FlightRecorder.new 20).recordKeyframe 1 [Recording.standing]).recordInput
    (Recording.walking 2 1)

theorem reachedFrom_run_there_and_back : replaying.ReachedFrom
    (run navigate replaying [.stepForward 1, .setPlaybackSpeed .fast, .stepBackward 1]) :=
  reachedFrom_run (by decide +kernel) _

end ReplaySession

end Eidolon.World
