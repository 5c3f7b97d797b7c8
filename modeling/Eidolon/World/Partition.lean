import Mathlib.Logic.Function.Basic
import Eidolon.Library.MachineInt
import Eidolon.Library.Run
import Eidolon.World.Error

/-!
# Zone partitions and boundary leases

Each zone at a boundary keeps its own lease of the boundary cells and its own record of
the last heartbeat from across.  A heartbeat renews the lease; silence for longer than
the timeout counts as a partition of the link.
-/

namespace Eidolon.World

open Library

def defaultPartitionTimeoutTicks : UInt64 := 3

def defaultLeaseDurationTicks : UInt64 := 20

inductive EntityPartitionState where
  | activeAuthoritative
  | migratingInFlight (targetZone : ZoneId) (initiatedTick : UInt64)
  | frozenReadOnly
  deriving DecidableEq

structure BoundaryLease where
  leaseId : UInt64
  ownerZone : ZoneId
  partnerZone : ZoneId
  grantedTick : UInt64
  expiresTick : UInt64
  deriving DecidableEq

namespace BoundaryLease

def new (leaseId : UInt64) (ownerZone partnerZone : ZoneId)
    (currentTick durationTicks : UInt64) : BoundaryLease where
  leaseId := leaseId
  ownerZone := ownerZone
  partnerZone := partnerZone
  grantedTick := currentTick
  expiresTick := saturatingAdd64 currentTick durationTicks

def isValid (lease : BoundaryLease) (currentTick : UInt64) : Bool :=
  currentTick ≤ lease.expiresTick

def renew (lease : BoundaryLease) (currentTick durationTicks : UInt64) : BoundaryLease :=
  { lease with
    grantedTick := currentTick
    expiresTick := saturatingAdd64 currentTick durationTicks }

end BoundaryLease

structure ZonePartitionDetector where
  localZone : ZoneId
  remoteZone : ZoneId
  lastHeartbeatTick : UInt64
  timeoutTicks : UInt64
  deriving DecidableEq

namespace ZonePartitionDetector

def new (localZone remoteZone : ZoneId) (currentTick : UInt64) : ZonePartitionDetector where
  localZone := localZone
  remoteZone := remoteZone
  lastHeartbeatTick := currentTick
  timeoutTicks := defaultPartitionTimeoutTicks

variable (detector : ZonePartitionDetector)

def recordHeartbeat (currentTick : UInt64) :
    ZonePartitionDetector :=
  if currentTick > detector.lastHeartbeatTick then
    { detector with lastHeartbeatTick := currentTick }
  else
    detector

def isPartitioned (currentTick : UInt64) : Bool :=
  saturatingSub64 currentTick detector.lastHeartbeatTick > detector.timeoutTicks

end ZonePartitionDetector

structure ZonePartitionManager where
  localZone : ZoneId
  remoteZone : ZoneId
  detector : ZonePartitionDetector
  lease : BoundaryLease
  deriving DecidableEq

namespace ZonePartitionManager

def new (localZone remoteZone : ZoneId) (currentTick : UInt64) : ZonePartitionManager where
  localZone := localZone
  remoteZone := remoteZone
  detector := ZonePartitionDetector.new localZone remoteZone currentTick
  lease := BoundaryLease.new 1 localZone remoteZone currentTick defaultLeaseDurationTicks

variable (manager : ZonePartitionManager)

def handleHeartbeat (currentTick : UInt64) :
    ZonePartitionManager :=
  { manager with
    detector := manager.detector.recordHeartbeat currentTick
    lease := manager.lease.renew currentTick defaultLeaseDurationTicks }

def isPartitioned (manager : ZonePartitionManager) (currentTick : UInt64) : Bool :=
  manager.detector.isPartitioned currentTick

def validateMigration (currentTick : UInt64) : Except WorldError Unit :=
  if manager.detector.isPartitioned currentTick then
    .error (.partitionSevered manager.localZone manager.remoteZone)
  else if !manager.lease.isValid currentTick then
    .error (.leaseExpired manager.lease.leaseId manager.localZone)
  else
    .ok ()

/-- What becomes of an entity in migration: it freezes under a partition and else is
back in the local zone. -/
def resolvePartitionRollback (_entityId : UInt32) (currentTick : UInt64) : EntityPartitionState :=
  if manager.detector.isPartitioned currentTick then
    .frozenReadOnly
  else
    .activeAuthoritative

variable {manager : ZonePartitionManager} {tick currentTick : UInt64}

theorem resolvePartitionRollback_eq_iff {entityId : UInt32} :
    manager.resolvePartitionRollback entityId currentTick = .activeAuthoritative ↔
      manager.isPartitioned currentTick = false := by
  unfold resolvePartitionRollback isPartitioned
  cases manager.detector.isPartitioned currentTick with
  | _ => simp

theorem isValid_iff :
    manager.lease.isValid currentTick = true ↔ currentTick ≤ manager.lease.expiresTick := by
  exact decide_eq_true_iff

theorem isValid_antitone (later : currentTick ≤ tick) (valid : manager.lease.isValid tick = true) :
    manager.lease.isValid currentTick = true := by
  rw [isValid_iff] at valid ⊢
  exact UInt64.le_trans later valid

theorem isPartitioned_iff : manager.isPartitioned currentTick = true ↔
      manager.detector.lastHeartbeatTick.toNat + manager.detector.timeoutTicks.toNat <
        currentTick.toNat := by
  unfold isPartitioned ZonePartitionDetector.isPartitioned
  rw [decide_eq_true_iff, gt_iff_lt, UInt64.lt_iff_toNat_lt, toNat_saturatingSub64]
  omega

theorem isPartitioned_mono (later : currentTick ≤ tick)
    (severed : manager.isPartitioned currentTick = true) : manager.isPartitioned tick = true := by
  rw [isPartitioned_iff] at severed ⊢
  have order := UInt64.le_iff_toNat_le.mp later
  omega

theorem isValid_new (localZone remoteZone : ZoneId) (currentTick : UInt64) :
    (new localZone remoteZone currentTick).lease.isValid currentTick = true := by
  rw [isValid_iff]
  change currentTick ≤ saturatingAdd64 currentTick defaultLeaseDurationTicks
  have bound := currentTick.toNat_lt
  rw [UInt64.le_iff_toNat_le, toNat_saturatingAdd64]
  omega

theorem isPartitioned_new (localZone remoteZone : ZoneId) (currentTick : UInt64) :
    (new localZone remoteZone currentTick).isPartitioned currentTick = false := by
  rw [Bool.eq_false_iff, Ne, isPartitioned_iff]
  change ¬ currentTick.toNat + _ < currentTick.toNat
  omega

variable (detector : ZonePartitionDetector)

theorem lastHeartbeatTick_recordHeartbeat (tick : UInt64) :
    (detector.recordHeartbeat tick).lastHeartbeatTick.toNat =
      max detector.lastHeartbeatTick.toNat tick.toNat := by
  unfold ZonePartitionDetector.recordHeartbeat
  split
  · rename_i newer
    have order := UInt64.lt_iff_toNat_lt.mp newer
    exact (Nat.max_eq_right (Nat.le_of_lt order)).symm
  rename_i older
  have order := mt UInt64.lt_iff_toNat_lt.mpr older
  exact (Nat.max_eq_left (Nat.le_of_not_lt order)).symm

theorem timeoutTicks_recordHeartbeat (tick : UInt64) :
    (detector.recordHeartbeat tick).timeoutTicks = detector.timeoutTicks := by
  unfold ZonePartitionDetector.recordHeartbeat
  split <;> rfl

theorem isValid_handleHeartbeat_iff :
    (manager.handleHeartbeat tick).lease.isValid currentTick = true ↔
      currentTick ≤ saturatingAdd64 tick defaultLeaseDurationTicks :=
  isValid_iff

theorem isPartitioned_handleHeartbeat_iff :
    (manager.handleHeartbeat tick).isPartitioned currentTick = true ↔
      manager.isPartitioned currentTick = true ∧
        tick.toNat + manager.detector.timeoutTicks.toNat < currentTick.toNat := by
  rw [isPartitioned_iff, isPartitioned_iff]
  have recorded := lastHeartbeatTick_recordHeartbeat manager.detector tick
  have timeout := timeoutTicks_recordHeartbeat manager.detector tick
  change (manager.detector.recordHeartbeat tick).lastHeartbeatTick.toNat +
    (manager.detector.recordHeartbeat tick).timeoutTicks.toNat < currentTick.toNat ↔ _
  rw [timeout]
  omega

theorem detector_handleHeartbeat_of_le (older : tick ≤ manager.detector.lastHeartbeatTick) :
    (manager.handleHeartbeat tick).detector = manager.detector := by
  exact if_neg (UInt64.not_lt.mpr older)

end ZonePartitionManager

end Eidolon.World

/-!
## The two sides of a boundary

Each zone creates a manager of its own for the boundary, with the other zone as remote,
and from then on decides by its own tick and the heartbeats it has seen.  Both managers
start with a valid lease that names their own zone and with a healthy link, so two of
them exclude each other only when one comes up after the other has lapsed.
-/

namespace Eidolon.World

open Library

inductive BoundarySide where
  | first
  | second
  deriving DecidableEq

namespace BoundarySide

def other : BoundarySide → BoundarySide
  | first => second
  | second => first

theorem other_ne (side : BoundarySide) : side.other ≠ side := by
  cases side with
  | _ => exact fun same => by cases same

theorem eq_or_eq_other (side here : BoundarySide) : here = side ∨ here = side.other := by
  cases side with
  | first =>
    cases here with
    | first => exact .inl rfl
    | second => exact .inr rfl
  | second =>
    cases here with
    | first => exact .inr rfl
    | second => exact .inl rfl

end BoundarySide

structure BoundaryNode where
  manager : ZonePartitionManager
  localTick : UInt64

namespace BoundaryNode

variable (node : BoundaryNode)

def HoldsLease : Prop :=
  node.manager.lease.ownerZone = node.manager.localZone ∧
    node.manager.lease.isValid node.localTick = true

def ResolvesActive (entityId : UInt32) : Prop :=
  node.manager.resolvePartitionRollback entityId node.localTick = .activeAuthoritative

def NamesItself : Prop :=
  node.manager.lease.ownerZone = node.manager.localZone

theorem holdsLease_iff {node : BoundaryNode} (namesItself : node.NamesItself) :
    node.HoldsLease ↔ node.manager.lease.isValid node.localTick = true :=
  and_iff_right namesItself

theorem resolvesActive_iff {node : BoundaryNode} {entityId : UInt32} :
    node.ResolvesActive entityId ↔ node.manager.isPartitioned node.localTick = false :=
  ZonePartitionManager.resolvePartitionRollback_eq_iff

end BoundaryNode

/-- What happens at a boundary: a zone creates its manager, a zone's tick advances, or a
heartbeat is handled, with the tick it is handled at. -/
inductive BoundaryEvent where
  | create (side : BoundarySide) (currentTick : UInt64)
  | advance (side : BoundarySide) (currentTick : UInt64)
  | heartbeat (side : BoundarySide) (currentTick : UInt64)
  deriving DecidableEq

structure Boundary where
  node : BoundarySide → Option BoundaryNode

namespace Boundary

def empty : Boundary where
  node := fun _ => none

variable (boundary : Boundary)

def put (side : BoundarySide) (node : Option BoundaryNode) : Boundary where
  node := Function.update boundary.node side node

variable (zone : BoundarySide → ZoneId)

def step (boundary : Boundary) (event : BoundaryEvent) :
    Boundary :=
  match event with
  | .create side currentTick =>
    boundary.put side
      (some ⟨ZonePartitionManager.new (zone side) (zone side.other) currentTick, currentTick⟩)
  | .advance side currentTick =>
    boundary.put side ((boundary.node side).map fun node => { node with localTick := currentTick })
  | .heartbeat side currentTick =>
    boundary.put side ((boundary.node side).map fun node =>
        { node with manager := node.manager.handleHeartbeat currentTick })

variable (event : BoundaryEvent)

/-- A zone's own tick does not go back. -/
def TickOrdered : Prop :=
  match event with
  | .advance side currentTick =>
    ∀ node, boundary.node side = some node → node.localTick ≤ currentTick
  | _ => True

/-- Not both sides hold a valid lease of their own, and no entity is active on both. -/
def Exclusive : Prop :=
  ∀ first second, boundary.node .first = some first → boundary.node .second = some second →
    ¬ (first.HoldsLease ∧ second.HoldsLease) ∧
      ∀ entityId, ¬ (first.ResolvesActive entityId ∧ second.ResolvesActive entityId)

/-- A heartbeat does not shorten the lease, and one that is no newer than the last one
leaves the verdict on the link as it is. -/
def KeepsNewer : Prop :=
  match event with
  | .heartbeat side currentTick =>
    ∀ node, boundary.node side = some node → node.manager.lease.expiresTick ≤
          (node.manager.handleHeartbeat currentTick).lease.expiresTick ∧
        (currentTick ≤ node.manager.detector.lastHeartbeatTick →
          ∀ tick, (node.manager.handleHeartbeat currentTick).isPartitioned tick =
            node.manager.isPartitioned tick)
  | _ => True

def Lapsed (node : BoundaryNode) : Prop :=
  node.manager.lease.isValid node.localTick = false ∧
    node.manager.isPartitioned node.localTick = true

/-- A side is created when the other has lapsed.  A heartbeat does not bring a side back
beside the other and is not from before the lease was granted. -/
def EventFits : Prop :=
  match event with
  | .create side _ => ∀ across, boundary.node side.other = some across → Lapsed across
  | .advance _ _ => True
  | .heartbeat side currentTick =>
    ∀ node, boundary.node side = some node → node.manager.lease.expiresTick ≤
          saturatingAdd64 currentTick defaultLeaseDurationTicks ∧
        ∀ across, boundary.node side.other = some across →
          (across.manager.lease.isValid across.localTick = false ∨
              saturatingAdd64 currentTick defaultLeaseDurationTicks < node.localTick) ∧
            (across.manager.isPartitioned across.localTick = true ∨
              (node.manager.isPartitioned node.localTick = true ∧
                currentTick.toNat + node.manager.detector.timeoutTicks.toNat <
                  node.localTick.toNat))

def NamesItself (boundary : Boundary) : Prop :=
  ∀ side node, boundary.node side = some node → node.NamesItself

section Put

variable {boundary : Boundary} {side : BoundarySide} {node : Option BoundaryNode}

theorem node_put_self : (boundary.put side node).node side = node := by
  simp only [put, Function.update_self]

theorem node_put_other : (boundary.put side node).node side.other = boundary.node side.other := by
  exact Function.update_of_ne side.other_ne node boundary.node

theorem namesItself_put (namesItself : boundary.NamesItself)
    (named : ∀ new, node = some new → new.NamesItself) : (boundary.put side node).NamesItself := by
  intro here found held
  rcases side.eq_or_eq_other here with rfl | rfl
  · rw [node_put_self] at held
    exact named found held
  rw [node_put_other] at held
  exact namesItself _ found held

end Put

def Apart (here across : BoundaryNode) : Prop :=
  (across.manager.lease.isValid across.localTick = false ∨
      here.manager.lease.isValid here.localTick = false) ∧
    (across.manager.isPartitioned across.localTick = true ∨
      here.manager.isPartitioned here.localTick = true)

variable {across : BoundaryNode}

theorem apart_comm {here : BoundaryNode} : Apart here across ↔ Apart across here :=
  and_congr or_comm or_comm

theorem apart_iff {here : BoundaryNode} (hereNamed : here.NamesItself)
    (acrossNamed : across.NamesItself) :
    (¬ (here.HoldsLease ∧ across.HoldsLease) ∧
        ∀ entityId, ¬ (here.ResolvesActive entityId ∧ across.ResolvesActive entityId)) ↔
      Apart here across := by
  simp only [BoundaryNode.holdsLease_iff hereNamed, BoundaryNode.holdsLease_iff acrossNamed,
    BoundaryNode.resolvesActive_iff, Apart]
  rw [forall_const, not_and_or, not_and_or, Bool.not_eq_true, Bool.not_eq_true,
    Bool.not_eq_false, Bool.not_eq_false]
  exact and_congr or_comm or_comm

variable {boundary : Boundary}

theorem exclusive_iff (side : BoundarySide) (namesItself : boundary.NamesItself) :
    boundary.Exclusive ↔ ∀ here across, boundary.node side = some here →
        boundary.node side.other = some across → Apart here across := by
  have seenFromFirst : boundary.Exclusive ↔ ∀ first second, boundary.node .first = some first →
        boundary.node .second = some second → Apart first second := by
    constructor
    · intro exclusive first second firstHere secondHere
      exact (apart_iff (namesItself _ _ firstHere) (namesItself _ _ secondHere)).mp
        (exclusive first second firstHere secondHere)
    intro apart first second firstHere secondHere
    exact (apart_iff (namesItself _ _ firstHere) (namesItself _ _ secondHere)).mpr
      (apart first second firstHere secondHere)
  rw [seenFromFirst]
  cases side with
  | first => exact Iff.rfl
  | second =>
    constructor
    · intro apart here across hereFound acrossFound
      exact apart_comm.mp (apart across here acrossFound hereFound)
    intro apart first second firstHere secondHere
    exact apart_comm.mp (apart second first secondHere firstHere)

theorem exclusive_put_iff {side : BoundarySide} {node : Option BoundaryNode}
    (namesItself : (boundary.put side node).NamesItself) :
    (boundary.put side node).Exclusive ↔
      ∀ here across, node = some here → boundary.node side.other = some across →
        Apart here across := by
  rw [exclusive_iff side namesItself, node_put_self, node_put_other]

theorem apart_of_lapsed {here : BoundaryNode} (lapsed : Lapsed across) : Apart here across :=
  ⟨.inl lapsed.1, .inl lapsed.2⟩

variable {currentTick : UInt64}

theorem apart_new_iff {localZone remoteZone : ZoneId} :
    Apart ⟨ZonePartitionManager.new localZone remoteZone currentTick, currentTick⟩ across ↔
      Lapsed across := by
  rw [Apart, ZonePartitionManager.isValid_new, ZonePartitionManager.isPartitioned_new]
  simp only [Bool.true_eq_false, Bool.false_eq_true, or_false]
  exact Iff.rfl

theorem apart_advance {here : BoundaryNode} (ordered : here.localTick ≤ currentTick)
    (apart : Apart here across) : Apart { here with localTick := currentTick } across := by
  rcases apart with ⟨lease, link⟩
  constructor
  · rcases lease with expired | expired
    · exact .inl expired
    refine .inr (Bool.eq_false_iff.mpr ?_)
    intro valid
    exact Bool.eq_false_iff.mp expired (ZonePartitionManager.isValid_antitone ordered valid)
  rcases link with severed | severed
  · exact .inl severed
  exact .inr (ZonePartitionManager.isPartitioned_mono ordered severed)

theorem apart_heartbeat_iff {here : BoundaryNode} :
    Apart { here with manager := here.manager.handleHeartbeat currentTick } across ↔
      (across.manager.lease.isValid across.localTick = false ∨
          saturatingAdd64 currentTick defaultLeaseDurationTicks < here.localTick) ∧
        (across.manager.isPartitioned across.localTick = true ∨
          (here.manager.isPartitioned here.localTick = true ∧
            currentTick.toNat + here.manager.detector.timeoutTicks.toNat <
              here.localTick.toNat)) := by
  rw [Apart, ZonePartitionManager.isPartitioned_handleHeartbeat_iff, Bool.eq_false_iff,
    Bool.eq_false_iff, Ne, Ne, ZonePartitionManager.isValid_handleHeartbeat_iff,
    UInt64.not_le]

theorem namesItself_step (event : BoundaryEvent) (namesItself : boundary.NamesItself) :
    (boundary.step zone event).NamesItself := by
  cases event with
  | create side currentTick =>
    apply namesItself_put namesItself
    intro new created
    cases created
    rfl
  | advance side currentTick =>
    apply namesItself_put namesItself
    intro new advanced
    rcases Option.map_eq_some_iff.mp advanced with ⟨node, found, rfl⟩
    exact namesItself side node found
  | heartbeat side currentTick =>
    apply namesItself_put namesItself
    intro new renewed
    rcases Option.map_eq_some_iff.mp renewed with ⟨node, found, rfl⟩
    exact namesItself side node found

/-- What is wanted of an event: the sides exclude each other afterwards, and a heartbeat
keeps what is newer. -/
theorem exclusive_step_iff {zone : BoundarySide → ZoneId} {event : BoundaryEvent}
    (namesItself : boundary.NamesItself) (ordered : boundary.TickOrdered event)
    (exclusive : boundary.Exclusive) :
    ((boundary.step zone event).Exclusive ∧ boundary.KeepsNewer event) ↔
      boundary.EventFits event := by
  have named := namesItself_step zone event namesItself
  cases event with
  | create side currentTick =>
    refine (and_iff_left trivial).trans ((exclusive_put_iff named).trans ?_)
    constructor
    · intro apart across acrossFound
      exact apart_new_iff.mp (apart _ across rfl acrossFound)
    intro fits here across created acrossFound
    exact apart_of_lapsed (fits across acrossFound)
  | advance side currentTick =>
    refine iff_of_true ⟨?_, trivial⟩ trivial
    apply (exclusive_put_iff named).mpr
    intro here across advanced acrossFound
    rcases Option.map_eq_some_iff.mp advanced with ⟨node, found, rfl⟩
    exact apart_advance (ordered node found)
      ((exclusive_iff side namesItself).mp exclusive node across found acrossFound)
  | heartbeat side currentTick =>
    refine (and_congr_left fun _ => exclusive_put_iff named).trans ?_
    constructor
    · intro both node found
      rcases both with ⟨apart, keeps⟩
      refine ⟨(keeps node found).1, fun across acrossFound => ?_⟩
      apply apart_heartbeat_iff.mp
      exact apart _ across (by rw [found, Option.map_some]) acrossFound
    intro fits
    constructor
    · intro here across renewed acrossFound
      rcases Option.map_eq_some_iff.mp renewed with ⟨node, found, rfl⟩
      exact apart_heartbeat_iff.mpr ((fits node found).2 across acrossFound)
    intro node found
    refine ⟨(fits node found).1, fun older tick => ?_⟩
    rw [ZonePartitionManager.isPartitioned, ZonePartitionManager.isPartitioned,
      ZonePartitionManager.detector_handleHeartbeat_of_le older]

theorem exclusive_empty : empty.Exclusive := by
  intro first second firstHere
  cases firstHere

theorem namesItself_empty : empty.NamesItself := by
  intro side node found
  cases found

/-- In a run from before either side is created, the sides exclude each other throughout
and heartbeats keep what is newer exactly if every event fits. -/
theorem lease_exclusive_iff (zone : BoundarySide → ZoneId) (events : List BoundaryEvent)
    (ordered : EachStep (step zone) TickOrdered empty events) :
    (Throughout (step zone) Exclusive empty events ∧ EachStep (step zone) KeepsNewer empty events) ↔
      EachStep (step zone) EventFits empty events :=
  throughout_and_eachStep_iff (fun _ event namesItself _ => namesItself_step zone event namesItself)
    (fun _ _ namesItself inOrder exclusive =>
      exclusive_step_iff namesItself inOrder exclusive)
    namesItself_empty exclusive_empty ordered

private def zoneOf : BoundarySide → ZoneId
  | .first => ⟨1⟩
  | .second => ⟨2⟩

/-- One side comes up, hears from across once, and goes silent past its lease; then the
other side comes up. -/
private def oneAfterTheOther : List BoundaryEvent :=
  [.create .first 10, .advance .first 12, .heartbeat .first 12, .advance .first 33,
    .create .second 33]

theorem lease_exclusive_iff_one_after_the_other :
    Throughout (step zoneOf) Exclusive empty oneAfterTheOther ∧
      EachStep (step zoneOf) KeepsNewer empty oneAfterTheOther := by
  refine (lease_exclusive_iff zoneOf oneAfterTheOther ?_).mpr ?_
  · refine ⟨trivial, ?_, trivial, ?_, trivial, trivial⟩
    · intro node found
      cases found
      decide
    intro node found
    cases found
    decide
  refine ⟨?_, trivial, ?_, trivial, ?_, trivial⟩
  · intro across acrossFound
    cases acrossFound
  · intro node found
    cases found
    refine ⟨by decide, fun across acrossFound => ?_⟩
    cases acrossFound
  intro across acrossFound
  cases acrossFound
  exact ⟨by decide, by decide⟩

/-- Both zones create their managers at tick 1: at that tick both hold a valid lease of
their own, and both count an entity in migration as theirs. -/
theorem not_lease_exclusive_at_creation :
    EachStep (step zoneOf) TickOrdered empty [.create .first 1, .create .second 1] ∧
      ¬ Throughout (step zoneOf) Exclusive empty [.create .first 1, .create .second 1] := by
  refine ⟨⟨trivial, trivial, trivial⟩, ?_⟩
  intro always
  have exclusive := always.run
  have apart := (exclusive _ _ rfl rfl).1
  exact apart ⟨⟨by decide, by decide⟩, ⟨by decide, by decide⟩⟩

end Boundary

end Eidolon.World
