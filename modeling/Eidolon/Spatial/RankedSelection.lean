import Eidolon.Spatial.InterestEvents

/-!
# Interest by relevance

The update of the tracked set that keeps the most relevant candidates when there are more of
them than can be tracked.  The candidates in range are collected in a scratch buffer of fixed
length first.
-/

namespace Eidolon.Spatial

open Core Library List UInt32

structure RelevanceWeights where
  partyBonus : UInt32
  targetBonus : UInt32
  threatBonus : UInt32
  guildBonus : UInt32
  deriving DecidableEq

def RelevanceWeights.default : RelevanceWeights where
  partyBonus := 1000000
  targetBonus := 2000000
  threatBonus := 500000
  guildBonus := 100000

structure EntityRelation where
  isParty : Bool
  isTarget : Bool
  isThreat : Bool
  isGuild : Bool
  deriving DecidableEq

def calculateRelevanceScore (distSq : Fixed64) (relation : EntityRelation)
    (weights : RelevanceWeights) : UInt64 :=
  let dSq := UInt64.ofNat distSq.toI32.toInt.toNat
  let distScore := 100000000 / (1 + dSq)
  let score := distScore
  let score := if relation.isTarget then score + weights.targetBonus.toUInt64 else score
  let score := if relation.isParty then score + weights.partyBonus.toUInt64 else score
  let score := if relation.isThreat then score + weights.threatBonus.toUInt64 else score
  if relation.isGuild then score + weights.guildBonus.toUInt64 else score

/-- A tracked set with the weights for its scores. -/
structure RankedInterestSet extends ObserverInterestSet where
  relevanceWeights : RelevanceWeights

/-- A call of the ranked update. -/
structure RankedCall extends VisibilityCall where
  relationLookup : UInt32 → EntityRelation

abbrev Ranked := UInt64 × UInt32

def HigherRanked (first second : Ranked) : Prop :=
  second.1 < first.1 ∨ second.1 = first.1 ∧ first.2 ≤ second.2

instance : DecidableRel HigherRanked :=
  fun _ _ => inferInstanceAs (Decidable (_ ∨ _ ∧ _))

def LowerId (first second : Ranked) : Prop :=
  first.2 ≤ second.2

instance : DecidableRel LowerId :=
  fun first second => inferInstanceAs (Decidable (first.2 ≤ second.2))

namespace RankedInterestSet

def withCapacityAndModel (maxTracked : Nat) (tierModel : TierModel) (maxRadiusSq : Fixed64) :
    RankedInterestSet where
  toObserverInterestSet :=
    ObserverInterestSet.withCapacityAndModel maxTracked tierModel maxRadiusSq
  relevanceWeights := RelevanceWeights.default

variable (interest : RankedInterestSet)

def scratchCap : Nat :=
  max interest.maxTracked 64 * 4

variable (call : RankedCall)

def rankedEntry (candId : UInt32) : Option Ranked :=
  match call.grid.getPosition candId with
  | none => none
  | some candPos =>
    let distSq := call.observerPos.distanceSquared candPos
    if distSq ≤ interest.maxRadiusSq then
      some (calculateRelevanceScore distSq (call.relationLookup candId)
        interest.relevanceWeights, candId)
    else
      none

def collectRanked : List Ranked :=
  call.queriedCandidates.foldl (fun scratch candId =>
      (interest.rankedEntry call candId).elim scratch (pushUpTo interest.scratchCap scratch)) []

def retainRanked : List Ranked :=
  let scratch := interest.collectRanked call
  let retained :=
    if scratch.length > interest.maxTracked then
      (inPriority HigherRanked scratch).take interest.maxTracked
    else
      scratch
  inPriority LowerId retained

/-- One retained candidate; the state has the events written so far and the table so far. -/
def processRanked (state : List VisibilityEvent × List Tracked) (ranked : Ranked) :
    List VisibilityEvent × List Tracked :=
  let candId := ranked.2
  match call.grid.getPosition candId with
  | none => state
  | some candPos =>
    let distSq := call.observerPos.distanceSquared candPos
    let prevTier := interest.findInPrev candId
    let tier := interest.newTier prevTier distSq
    let events :=
      match prevTier with
      | none => emit call.outputLen state.1 (.enter candId tier)
      | some old =>
        if old ≠ tier then emit call.outputLen state.1 (.tierChange candId tier) else state.1
    (events, pushUpTo interest.maxTracked state.2 (candId, tier))

def updateVisibilityRanked : List VisibilityEvent × List Tracked :=
  let processed := (interest.retainRanked call).foldl (interest.processRanked call) ([], [])
  let exits := SortedTable.sweep Prod.fst
    (fun events (left : Tracked) => emit call.outputLen events (.exit left.1))
    processed.1 interest.curr processed.2
  (exits, processed.2)

end RankedInterestSet

end Eidolon.Spatial

/-!
## What the ranked update keeps

The update keeps the best of the candidates in the scratch buffer.  These are the best of all
candidates in range unless one that the buffer has no room for is better than some of them.
-/

namespace Eidolon.Spatial

open Core Library List UInt32

theorem higherRanked_total (first second : Ranked) :
    HigherRanked first second ∨ HigherRanked second first := by
  rw [HigherRanked, HigherRanked, UInt64.lt_iff_toNat_lt, UInt64.lt_iff_toNat_lt,
    le_iff_toNat_le, le_iff_toNat_le, ← UInt64.toNat_inj, ← UInt64.toNat_inj]
  omega

theorem higherRanked_trans (first second third : Ranked) (before : HigherRanked first second)
    (further : HigherRanked second third) : HigherRanked first third := by
  rw [HigherRanked, UInt64.lt_iff_toNat_lt, le_iff_toNat_le, ← UInt64.toNat_inj]
    at before further ⊢
  omega

theorem toNat_le_of_higherRanked (first second : Ranked)
    (before : HigherRanked first second) : second.1.toNat ≤ first.1.toNat := by
  rw [HigherRanked, UInt64.lt_iff_toNat_lt, ← UInt64.toNat_inj] at before
  omega

namespace RankedInterestSet

variable (interest : RankedInterestSet) (call : RankedCall)

def relevance (candId : UInt32) : UInt64 :=
  match call.grid.getPosition candId with
  | none => 0
  | some candPos =>
    calculateRelevanceScore (call.observerPos.distanceSquared candPos)
      (call.relationLookup candId) interest.relevanceWeights

def candidatesInRange : List UInt32 :=
  interest.toObserverInterestSet.candidatesInRange call.toVisibilityCall

def ranked (candId : UInt32) : Ranked :=
  (interest.relevance call candId, candId)

def trackedAfter : List UInt32 :=
  (interest.updateVisibilityRanked call).2.map Prod.fst

/-- The tracked identifiers are as many of the candidates in range as can be tracked, and no
other one of these has a higher score than one of them. -/
structure TracksBest (tracked : List UInt32) : Prop where
  nodup : tracked.Nodup
  inRange : ∀ candId ∈ tracked, candId ∈ interest.candidatesInRange call
  count : tracked.length =
    min interest.maxTracked (interest.candidatesInRange call).length
  best : ∀ kept ∈ tracked, ∀ other ∈ interest.candidatesInRange call, other ∉ tracked →
    ¬ interest.relevance call kept < interest.relevance call other

theorem filterMap_rankedEntry : call.queriedCandidates.filterMap (interest.rankedEntry call) =
      (interest.candidatesInRange call).map (interest.ranked call) := by
  rw [candidatesInRange, ObserverInterestSet.candidatesInRange]
  induction call.queriedCandidates with
  | nil => rfl
  | cons candId rest ih =>
    rw [filterMap_cons, filter_cons, ih]
    rcases position : call.grid.getPosition candId with _ | candPos
    · simp only [rankedEntry, ObserverInterestSet.isInRange, position, Bool.false_eq_true, if_false]
    by_cases near : call.observerPos.distanceSquared candPos ≤ interest.maxRadiusSq
    · simp only [rankedEntry, ObserverInterestSet.isInRange, position, near, if_true,
        decide_true, map_cons, ranked, relevance]
    simp only [rankedEntry, ObserverInterestSet.isInRange, position, near, if_false,
      decide_false, Bool.false_eq_true]

def collected : List UInt32 :=
  (interest.candidatesInRange call).take interest.scratchCap

theorem collectRanked_eq :
    interest.collectRanked call = (interest.collected call).map (interest.ranked call) := by
  rw [collectRanked, foldl_pushUpTo_filterMap, filterMap_rankedEntry, collected, map_take]
  rfl

theorem retainRanked_perm : (interest.retainRanked call).Perm
      (bestOf HigherRanked interest.maxTracked (interest.collectRanked call)) := by
  refine (inPriority_perm _).trans ?_
  split
  · exact List.Perm.refl _
  exact (bestOf_perm (by omega)).symm

def rankedTracked (entry : Ranked) : Option Tracked :=
  (call.grid.getPosition entry.2).map fun candPos =>
    (entry.2, interest.newTier (interest.findInPrev entry.2)
      (call.observerPos.distanceSquared candPos))

theorem processRanked_table (state : List VisibilityEvent × List Tracked) (entry : Ranked) :
    (interest.processRanked call state entry).2 = (interest.rankedTracked call entry).elim state.2
        (pushUpTo interest.maxTracked state.2) := by
  rw [processRanked, rankedTracked]
  cases call.grid.getPosition entry.2 with
  | _ => rfl

theorem foldl_processRanked_table (entries : List Ranked)
    (state : List VisibilityEvent × List Tracked) :
    (entries.foldl (interest.processRanked call) state).2 = entries.foldl (fun table entry =>
        (interest.rankedTracked call entry).elim table (pushUpTo interest.maxTracked table))
        state.2 := by
  induction entries generalizing state with
  | nil => rfl
  | cons entry entries ih => rw [foldl_cons, ih, processRanked_table, foldl_cons]

theorem updateVisibilityRanked_table : (interest.updateVisibilityRanked call).2 =
      ((interest.retainRanked call).filterMap (interest.rankedTracked call)).take
        interest.maxTracked := by
  rw [updateVisibilityRanked]
  rw [foldl_processRanked_table, foldl_pushUpTo_filterMap]
  rfl

variable {interest call}

theorem getPosition_of_inRange {candId : UInt32}
    (inRange : candId ∈ interest.candidatesInRange call) :
    ∃ candPos, call.grid.getPosition candId = some candPos := by
  have near := (mem_filter.mp inRange).2
  rw [ObserverInterestSet.isInRange] at near
  split at near
  · cases near
  rename_i candPos position
  exact ⟨candPos, position⟩

theorem mem_retainRanked_iff {entry : Ranked} : entry ∈ interest.retainRanked call ↔
      entry ∈ bestOf HigherRanked interest.maxTracked (interest.collectRanked call) :=
  (interest.retainRanked_perm call).mem_iff

theorem length_retainRanked : (interest.retainRanked call).length =
      min interest.maxTracked (interest.candidatesInRange call).length := by
  have capacity : interest.maxTracked ≤ interest.scratchCap := by
    rw [scratchCap]
    omega
  rw [(interest.retainRanked_perm call).length_eq, length_bestOf, collectRanked_eq,
    length_map, collected, length_take]
  omega

theorem ranked_of_mem_retainRanked {entry : Ranked} (retained : entry ∈ interest.retainRanked call) :
    entry.2 ∈ interest.collected call ∧ entry = interest.ranked call entry.2 := by
  have scratch := mem_of_mem_bestOf (mem_retainRanked_iff.mp retained)
  rw [collectRanked_eq] at scratch
  obtain ⟨candId, member, rfl⟩ := mem_map.mp scratch
  exact ⟨member, rfl⟩

theorem trackedAfter_eq :
    interest.trackedAfter call = (interest.retainRanked call).map Prod.snd := by
  have every : ∀ entries : List Ranked, (∀ entry ∈ entries, ∃ candPos,
      call.grid.getPosition entry.2 = some candPos) →
        (entries.filterMap (interest.rankedTracked call)).map Prod.fst = entries.map Prod.snd := by
    intro entries
    induction entries with
    | nil => exact fun _ => rfl
    | cons entry entries ih =>
      intro active
      obtain ⟨candPos, position⟩ := active entry mem_cons_self
      have tracked : interest.rankedTracked call entry =
          some (entry.2, interest.newTier (interest.findInPrev entry.2)
            (call.observerPos.distanceSquared candPos)) := by
        rw [rankedTracked, position]
        rfl
      rw [filterMap_cons_some tracked, map_cons, map_cons,
        ih fun other member => active other (mem_cons_of_mem _ member)]
  have length := @length_retainRanked interest call
  have active : ∀ entry ∈ interest.retainRanked call, ∃ candPos,
      call.grid.getPosition entry.2 = some candPos := by
    intro entry retained
    exact getPosition_of_inRange (mem_of_mem_take (ranked_of_mem_retainRanked retained).1)
  rw [trackedAfter, updateVisibilityRanked_table, map_take, every _ active, take_of_length_le]
  rw [length_map]
  omega

theorem mem_trackedAfter_iff {candId : UInt32} : candId ∈ interest.trackedAfter call ↔
      interest.ranked call candId ∈
        bestOf HigherRanked interest.maxTracked (interest.collectRanked call) := by
  rw [trackedAfter_eq, ← mem_retainRanked_iff, mem_map]
  constructor
  · rintro ⟨entry, retained, rfl⟩
    rwa [← (ranked_of_mem_retainRanked retained).2]
  exact fun retained => ⟨_, retained, rfl⟩

theorem nodup_trackedAfter (distinct : call.queriedCandidates.Nodup) :
    (interest.trackedAfter call).Nodup := by
  have inRange : (interest.candidatesInRange call).Nodup := distinct.filter _
  have scratch : (interest.collectRanked call).Nodup := by
    rw [collectRanked_eq]
    apply (inRange.sublist (take_sublist _ _)).map
    intro first second same
    exact congrArg Prod.snd same
  rw [trackedAfter_eq]
  apply List.Nodup.map_on
  · intro first firstRetained second secondRetained same
    rw [(ranked_of_mem_retainRanked firstRetained).2,
      (ranked_of_mem_retainRanked secondRetained).2, same]
  exact (interest.retainRanked_perm call).nodup_iff.mpr (nodup_bestOf scratch)

/-- No candidate is left out of the scratch buffer, or enough of those in it have at least
its score. -/
def NoneLost (interest : RankedInterestSet) (call : RankedCall) : Prop :=
  ∀ lost ∈ (interest.candidatesInRange call).drop interest.scratchCap,
    interest.maxTracked ≤ (interest.collected call).countP fun candId =>
      interest.relevance call lost ≤ interest.relevance call candId

theorem relevance_le_of_collected {kept other : UInt32}
    (isKept : kept ∈ interest.trackedAfter call) (isCollected : other ∈ interest.collected call)
    (notKept : other ∉ interest.trackedAfter call) :
    (interest.relevance call other).toNat ≤ (interest.relevance call kept).toNat := by
  rw [mem_trackedAfter_iff] at isKept notKept
  have scratch : interest.ranked call other ∈ interest.collectRanked call := by
    rw [collectRanked_eq]
    exact mem_map_of_mem isCollected
  exact toNat_le_of_higherRanked _ _
    (before_of_not_mem_bestOf higherRanked_total higherRanked_trans isKept scratch notKept)

/-- All tracked candidates have at least the score of a lost one exactly if enough of those in
the buffer have. -/
theorem relevance_le_tracked_iff {lost : UInt32}
    (isLost : lost ∈ (interest.candidatesInRange call).drop interest.scratchCap) :
    (∀ kept ∈ interest.trackedAfter call,
        ¬ interest.relevance call kept < interest.relevance call lost) ↔
      interest.maxTracked ≤ (interest.collected call).countP fun candId =>
        interest.relevance call lost ≤ interest.relevance call candId := by
  have full : interest.maxTracked ≤ (interest.collectRanked call).length := by
    have positive := length_pos_of_mem isLost
    rw [length_drop] at positive
    rw [collectRanked_eq, length_map, collected, length_take]
    have capacity : interest.maxTracked ≤ interest.scratchCap := by
      rw [scratchCap]
      omega
    omega
  have exactly := le_score_bestOf_iff higherRanked_total higherRanked_trans
    (fun entry => entry.1.toNat) toNat_le_of_higherRanked full
    (interest.relevance call lost).toNat
  have counted : (interest.collectRanked call).countP
      (fun entry => decide ((interest.relevance call lost).toNat ≤ entry.1.toNat)) =
        (interest.collected call).countP fun candId =>
          decide (interest.relevance call lost ≤ interest.relevance call candId) := by
    rw [collectRanked_eq, countP_map]
    rfl
  rw [← counted, ← exactly]
  constructor
  · intro reach entry retained
    have entryIs := (ranked_of_mem_retainRanked (mem_retainRanked_iff.mpr retained)).2
    rw [entryIs] at retained ⊢
    have notLess := reach entry.2 (mem_trackedAfter_iff.mpr retained)
    exact Nat.le_of_not_lt notLess
  intro reach kept isKept
  exact Nat.not_lt_of_le (reach _ (mem_trackedAfter_iff.mp isKept))

/-- With distinct candidates the best of those in range are tracked if and only if no
candidate that the scratch buffer has no room for is better than one that is tracked. -/
theorem tracksBest_iff_noneLost (interest : RankedInterestSet) (call : RankedCall)
    (distinct : call.queriedCandidates.Nodup) :
    interest.TracksBest call (interest.trackedAfter call) ↔ interest.NoneLost call := by
  have inRange : ∀ candId ∈ interest.trackedAfter call, candId ∈ interest.collected call := by
    intro candId tracked
    exact (ranked_of_mem_retainRanked
      (mem_retainRanked_iff.mpr (mem_trackedAfter_iff.mp tracked))).1
  constructor
  · intro tracksBest lost isLost
    apply (relevance_le_tracked_iff isLost).mp
    intro kept isKept
    apply tracksBest.best kept isKept lost (mem_of_mem_drop isLost)
    intro tracked
    have apart := disjoint_take_drop (distinct.filter
      (interest.toObserverInterestSet.isInRange call.toVisibilityCall))
      (Nat.le_refl interest.scratchCap)
    exact apart (inRange lost tracked) isLost
  intro noneLost
  refine ⟨nodup_trackedAfter distinct, ?_, ?_, ?_⟩
  · exact fun candId tracked => mem_of_mem_take (inRange candId tracked)
  · rw [trackedAfter_eq, length_map, length_retainRanked]
  intro kept isKept other member notKept
  rw [← take_append_drop interest.scratchCap (interest.candidatesInRange call)] at member
  rcases mem_append.mp member with isCollected | isLost
  · exact Nat.not_lt_of_le (relevance_le_of_collected isKept isCollected notKept)
  exact (relevance_le_tracked_iff isLost).mpr (noneLost other isLost) kept isKept

/-- Entities with the identifiers below a number, all in one place. -/
def crowd : Nat → SpatialHashGrid
  | 0 => SpatialHashGrid.new 1024
  | count + 1 => ((crowd count).insert (UInt32.ofNat count) (Vec3Fix.fromI32 0 0 0)).2

/-- An observer in the same place, whose target is the entity with the number 256. -/
def crowdCall (count : Nat) : RankedCall where
  grid := crowd count
  observerPos := Vec3Fix.fromI32 0 0 0
  queriedCandidates := (List.range count).map UInt32.ofNat
  outputLen := 8
  relationLookup candId :=
    { isParty := false, isTarget := candId == 256, isThreat := false, isGuild := false }

theorem grid_crowdCall (count : Nat) : (crowdCall count).grid = crowd count :=
  rfl

/-- A set for one tracked entity, with room for 256 candidates. -/
def oneTracked : RankedInterestSet :=
  withCapacityAndModel 1 .standard3Tier (Fixed64.fromI32 2500)

theorem tracksBest_iff_noneLost_two :
    oneTracked.TracksBest (crowdCall 2) (oneTracked.trackedAfter (crowdCall 2)) := by
  apply (tracksBest_iff_noneLost oneTracked (crowdCall 2) (by decide)).mpr
  intro lost isLost
  have capacity : oneTracked.scratchCap = 256 := rfl
  have few : (oneTracked.candidatesInRange (crowdCall 2)).length ≤ 2 :=
    length_filter_le _ _
  have positive := length_pos_of_mem isLost
  rw [length_drop] at positive
  omega

theorem getPosition_crowd {count : Nat} (few : count ≤ 1024) :
    (crowd count).maxEntities = 1024 ∧ ∀ candId : UInt32, (crowd count).getPosition candId =
        if candId.toNat < count then some (Vec3Fix.fromI32 0 0 0) else none := by
  induction count with
  | zero => exact ⟨rfl, fun _ => rfl⟩
  | succ count ih =>
    obtain ⟨capacity, positions⟩ := ih (by omega)
    have number : (UInt32.ofNat count).toNat = count :=
      toNat_ofNat_of_lt' (by rw [UInt32.size]; omega)
    have inserted : ((crowd count).insert (UInt32.ofNat count) (Vec3Fix.fromI32 0 0 0)).1 =
        .ok () := by
      rw [SpatialHashGrid.insert_ok_iff, positions, if_neg (by omega)]
      exact ⟨by omega, rfl⟩
    refine ⟨?_, ?_⟩
    · rw [crowd, SpatialHashGrid.maxEntities_insert, capacity]
    intro candId
    rw [crowd, SpatialHashGrid.getPosition_insert inserted, positions]
    by_cases here : candId = UInt32.ofNat count
    · rw [if_pos here, here, if_pos (by omega)]
    have apart : candId.toNat ≠ count := by
      intro same
      apply here
      rw [← UInt32.toNat_inj, number, same]
    rw [if_neg here]
    by_cases below : candId.toNat < count
    · rw [if_pos below, if_pos (by omega)]
    rw [if_neg below, if_neg (by omega)]

/-- The target is the 257th candidate, and an entity without any relation is tracked. -/
theorem not_tracksBest_crowd :
    ¬ oneTracked.TracksBest (crowdCall 257) (oneTracked.trackedAfter (crowdCall 257)) := by
  intro tracksBest
  have positions : ∀ candId : UInt32, candId.toNat < 257 →
      (crowdCall 257).grid.getPosition candId = some (Vec3Fix.fromI32 0 0 0) := by
    intro candId below
    rw [grid_crowdCall, (getPosition_crowd (by decide)).2, if_pos below]
  have number : ∀ count, count < 257 → (UInt32.ofNat count).toNat = count := by
    intro count below
    exact toNat_ofNat_of_lt' (by rw [UInt32.size]; omega)
  have inRange : oneTracked.candidatesInRange (crowdCall 257) =
      (List.range 257).map UInt32.ofNat := by
    apply filter_eq_self.mpr
    intro candId listed
    obtain ⟨count, member, rfl⟩ := mem_map.mp listed
    have below := mem_range.mp member
    have position := positions (UInt32.ofNat count) (by rw [number count below]; exact below)
    rw [ObserverInterestSet.isInRange]
    simp only [position]
    decide
  have lost : (256 : UInt32) ∈
      (oneTracked.candidatesInRange (crowdCall 257)).drop oneTracked.scratchCap := by
    have capacity : oneTracked.scratchCap = 256 := rfl
    rw [inRange, capacity, range_succ, map_append, drop_left' (by simp)]
    exact mem_singleton_self _
  have collects : oneTracked.collected (crowdCall 257) = (List.range 256).map UInt32.ofNat := by
    rw [collected, inRange, ← map_take, take_range]
    rfl
  have apart : ∀ count, count < 256 → UInt32.ofNat count ≠ 256 := by
    intro count below same
    have counted := number count (by omega)
    rw [same] at counted
    have large : (256 : UInt32).toNat = 256 := rfl
    omega
  have target : oneTracked.relevance (crowdCall 257) 256 = 102000000 := by
    rw [relevance, positions 256 (by decide)]
    decide
  have others : (oneTracked.collected (crowdCall 257)).countP (fun candId =>
      decide (oneTracked.relevance (crowdCall 257) 256 ≤
        oneTracked.relevance (crowdCall 257) candId)) = 0 := by
    rw [countP_eq_zero, collects]
    intro candId listed
    obtain ⟨count, member, rfl⟩ := mem_map.mp listed
    have below := mem_range.mp member
    have position := positions (UInt32.ofNat count) (by rw [number count (by omega)]; omega)
    have score : oneTracked.relevance (crowdCall 257) (UInt32.ofNat count) = 100000000 := by
      rw [relevance, position]
      simp only [crowdCall, beq_eq_false_iff_ne.mpr (apart count below)]
      decide
    rw [target, score]
    decide
  have enough := (relevance_le_tracked_iff lost).mp fun kept isKept =>
    tracksBest.best kept isKept 256 (mem_of_mem_drop lost) (by
      intro tracked
      have collectedToo := (ranked_of_mem_retainRanked
        (mem_retainRanked_iff.mpr (mem_trackedAfter_iff.mp tracked))).1
      rw [collects] at collectedToo
      obtain ⟨count, member, same⟩ := mem_map.mp collectedToo
      exact apart count (mem_range.mp member) same)
  rw [others] at enough
  exact absurd enough (by decide)

end RankedInterestSet

end Eidolon.Spatial
