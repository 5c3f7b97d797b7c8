import Eidolon.Library.SortedTable
import Eidolon.Spatial.Grid

/-!
# Frequency tiers

The tier of an entity by its squared distance from the observer, with hysteresis around
the thresholds once it has a tier.
-/

namespace Eidolon.Spatial

open Core

def immediatePromotionDistSq : Fixed64 := Fixed64.fromI32 81
def immediateDemotionDistSq : Fixed64 := Fixed64.fromI32 121
def midPromotionDistSq : Fixed64 := Fixed64.fromI32 2304
def midDemotionDistSq : Fixed64 := Fixed64.fromI32 2704

def tier5ImmediatePromotionDistSq : Fixed64 := Fixed64.fromI32 196
def tier5ImmediateDemotionDistSq : Fixed64 := Fixed64.fromI32 256
def tier5TacticalPromotionDistSq : Fixed64 := Fixed64.fromI32 1444
def tier5TacticalDemotionDistSq : Fixed64 := Fixed64.fromI32 1764
def tier5MidfieldPromotionDistSq : Fixed64 := Fixed64.fromI32 9025
def tier5MidfieldDemotionDistSq : Fixed64 := Fixed64.fromI32 11025
def tier5HorizonPromotionDistSq : Fixed64 := Fixed64.fromI32 84100
def tier5HorizonDemotionDistSq : Fixed64 := Fixed64.fromI32 96100

inductive TierModel where
  | standard3Tier
  | continuous5Tier
  deriving DecidableEq

inductive FrequencyTier where
  | immediate
  | tactical
  | mid
  | horizon
  | macroOverview
  deriving DecidableEq

namespace FrequencyTier

def asU8 : FrequencyTier → UInt8
  | .immediate => 0
  | .tactical => 1
  | .mid => 2
  | .horizon => 3
  | .macroOverview => 4

def classifyInitial (distSq : Fixed64) : FrequencyTier :=
  if distSq ≤ Fixed64.fromI32 100 then .immediate
  else if distSq ≤ Fixed64.fromI32 2500 then .mid
  else .horizon

def classify5tier (distSq : Fixed64) : FrequencyTier :=
  if distSq ≤ Fixed64.fromI32 225 then .immediate
  else if distSq ≤ Fixed64.fromI32 1600 then .tactical
  else if distSq ≤ Fixed64.fromI32 10000 then .mid
  else if distSq ≤ Fixed64.fromI32 90000 then .horizon
  else .macroOverview

def updateWithHysteresis (self : FrequencyTier) (distSq : Fixed64) : FrequencyTier :=
  match self with
  | .immediate =>
    if midDemotionDistSq < distSq then .horizon
    else if immediateDemotionDistSq < distSq then .mid
    else .immediate
  | .tactical | .mid =>
    if distSq < immediatePromotionDistSq then .immediate
    else if midDemotionDistSq < distSq then .horizon
    else .mid
  | .horizon | .macroOverview =>
    if distSq < immediatePromotionDistSq then .immediate
    else if distSq < midPromotionDistSq then .mid
    else .horizon

def update5tierWithHysteresis (self : FrequencyTier) (distSq : Fixed64) : FrequencyTier :=
  match self with
  | .immediate =>
    if tier5HorizonDemotionDistSq < distSq then .macroOverview
    else if tier5MidfieldDemotionDistSq < distSq then .horizon
    else if tier5TacticalDemotionDistSq < distSq then .mid
    else if tier5ImmediateDemotionDistSq < distSq then .tactical
    else .immediate
  | .tactical =>
    if distSq < tier5ImmediatePromotionDistSq then .immediate
    else if tier5HorizonDemotionDistSq < distSq then .macroOverview
    else if tier5MidfieldDemotionDistSq < distSq then .horizon
    else if tier5TacticalDemotionDistSq < distSq then .mid
    else .tactical
  | .mid =>
    if distSq < tier5ImmediatePromotionDistSq then .immediate
    else if distSq < tier5TacticalPromotionDistSq then .tactical
    else if tier5HorizonDemotionDistSq < distSq then .macroOverview
    else if tier5MidfieldDemotionDistSq < distSq then .horizon
    else .mid
  | .horizon =>
    if distSq < tier5ImmediatePromotionDistSq then .immediate
    else if distSq < tier5TacticalPromotionDistSq then .tactical
    else if distSq < tier5MidfieldPromotionDistSq then .mid
    else if tier5HorizonDemotionDistSq < distSq then .macroOverview
    else .horizon
  | .macroOverview =>
    if distSq < tier5ImmediatePromotionDistSq then .immediate
    else if distSq < tier5TacticalPromotionDistSq then .tactical
    else if distSq < tier5MidfieldPromotionDistSq then .mid
    else if distSq < tier5HorizonPromotionDistSq then .horizon
    else .macroOverview

end FrequencyTier

end Eidolon.Spatial

/-!
## Interest of an observer

The entities an observer is told about, with their tiers, and the events that tell what
an update changed.  The two arrays of the tracked set are one table by entity; the previous
set is the table before the update.
-/

namespace Eidolon.Spatial

open Core Library

inductive VisibilityEvent where
  | enter (entityId : UInt32) (tier : FrequencyTier)
  | tierChange (entityId : UInt32) (tier : FrequencyTier)
  | exit (entityId : UInt32)
  deriving DecidableEq

abbrev Tracked := UInt32 × FrequencyTier

/-- The tracked set of an observer; the relevance weights are those of the ranked update. -/
structure ObserverInterestSet where
  maxTracked : Nat
  curr : List Tracked
  tierModel : TierModel
  maxRadiusSq : Fixed64
  sorted : SortedTable.Sorted Prod.fst curr
  fits : curr.length ≤ maxTracked

namespace ObserverInterestSet

def withCapacityAndModel (maxTracked : Nat) (tierModel : TierModel) (maxRadiusSq : Fixed64) :
    ObserverInterestSet where
  maxTracked := maxTracked
  curr := []
  tierModel := tierModel
  maxRadiusSq := maxRadiusSq
  sorted := List.Pairwise.nil
  fits := Nat.zero_le maxTracked

variable (interest : ObserverInterestSet)

def visibleEntities : List UInt32 :=
  interest.curr.map Prod.fst

def visibleTiers : List FrequencyTier :=
  interest.curr.map Prod.snd

def findInPrev (entityId : UInt32) : Option FrequencyTier :=
  (KeyedList.find Prod.fst interest.curr entityId).map Prod.snd

def newTier (prevTier : Option FrequencyTier) (distSq : Fixed64) : FrequencyTier :=
  match prevTier, interest.tierModel with
  | some tier, .continuous5Tier => tier.update5tierWithHysteresis distSq
  | some tier, .standard3Tier => tier.updateWithHysteresis distSq
  | none, .continuous5Tier => FrequencyTier.classify5tier distSq
  | none, .standard3Tier => FrequencyTier.classifyInitial distSq

end ObserverInterestSet

def emit (outputLen : Nat) (events : List VisibilityEvent) (event : VisibilityEvent) :
    List VisibilityEvent :=
  if events.length < outputLen then events ++ [event] else events

/-- One call to update the visibility. -/
structure VisibilityCall where
  grid : SpatialHashGrid
  observerPos : Vec3Fix
  queriedCandidates : List UInt32
  outputLen : Nat

namespace ObserverInterestSet

variable (interest : ObserverInterestSet) (call : VisibilityCall)

/-- One candidate; the state has the events written so far and the table built so far. -/
def processCandidate (state : List VisibilityEvent × List Tracked) (candId : UInt32) :
    List VisibilityEvent × List Tracked :=
  match call.grid.getPosition candId with
  | none => state
  | some candPos =>
    let distSq := call.observerPos.distanceSquared candPos
    if distSq ≤ interest.maxRadiusSq then
      let prevTier := interest.findInPrev candId
      let tier := interest.newTier prevTier distSq
      let events :=
        match prevTier with
        | none => emit call.outputLen state.1 (.enter candId tier)
        | some old =>
          if old ≠ tier then emit call.outputLen state.1 (.tierChange candId tier)
          else state.1
      (events, SortedTable.insertUpTo interest.maxTracked Prod.fst state.2 (candId, tier))
    else
      state

def processCandidates : List VisibilityEvent × List Tracked :=
  call.queriedCandidates.foldl (interest.processCandidate call) ([], [])

theorem processCandidates_table : SortedTable.Sorted Prod.fst (interest.processCandidates call).2 ∧
      (interest.processCandidates call).2.length ≤ interest.maxTracked := by
  have kept : ∀ (candidates : List UInt32) (state : List VisibilityEvent × List Tracked),
      SortedTable.Sorted Prod.fst state.2 ∧ state.2.length ≤ interest.maxTracked →
      SortedTable.Sorted Prod.fst (candidates.foldl (interest.processCandidate call) state).2 ∧
        (candidates.foldl (interest.processCandidate call) state).2.length ≤
          interest.maxTracked := by
    intro candidates
    induction candidates with
    | nil => exact fun _ good => good
    | cons candId rest ih =>
      intro state good
      apply ih
      rw [processCandidate]
      split
      · exact good
      dsimp only
      split
      · exact ⟨SortedTable.sorted_insertUpTo good.1, SortedTable.length_insertUpTo_le good.2⟩
      exact good
  exact kept call.queriedCandidates ([], []) ⟨List.Pairwise.nil, Nat.zero_le _⟩

/-- Tracks the candidates in range and reports what has changed; the output has the events
that were written. -/
def updateVisibility : List VisibilityEvent × ObserverInterestSet :=
  let processed := interest.processCandidates call
  let exits := SortedTable.sweep Prod.fst
    (fun events (left : Tracked) => emit call.outputLen events (.exit left.1))
    processed.1 interest.curr processed.2
  (exits,
    { interest with
      curr := processed.2
      sorted := (interest.processCandidates_table call).1
      fits := (interest.processCandidates_table call).2 })

end ObserverInterestSet

end Eidolon.Spatial
