import Eidolon.Library.Run
import Eidolon.Library.Selection
import Eidolon.Spatial.Interest

/-!
# The event stream of an observer

A client that applies the events of every update has the tracked set, as long as no update
reports an entity as entered that there is no room to track.
-/

namespace Eidolon.Spatial

open Core Function Library List Option

def applyEvent (client : UInt32 → Option FrequencyTier) :
    VisibilityEvent → UInt32 → Option FrequencyTier
  | .enter entityId tier => Function.update client entityId (some tier)
  | .tierChange entityId tier => Function.update client entityId (some tier)
  | .exit entityId => Function.update client entityId none

theorem emit_eq_pushUpTo (outputLen : Nat) : emit outputLen = pushUpTo outputLen :=
  rfl

theorem foldl_emit (outputLen : Nat) (events written : List VisibilityEvent) :
    events.foldl (emit outputLen) written =
      written ++ events.take (outputLen - written.length) := by
  rw [emit_eq_pushUpTo, foldl_pushUpTo]

theorem foldl_applyEvent_exit (client : UInt32 → Option FrequencyTier) (left : List Tracked)
    (entityId : UInt32) :
    (left.map fun item => VisibilityEvent.exit item.1).foldl applyEvent client entityId =
      if entityId ∈ left.map Prod.fst then none else client entityId := by
  induction left generalizing client with
  | nil => rfl
  | cons item rest ih =>
    rw [map_cons, foldl_cons, ih, map_cons, applyEvent]
    by_cases later : entityId ∈ rest.map Prod.fst
    · rw [if_pos later, if_pos (mem_cons_of_mem _ later)]
    rw [if_neg later]
    by_cases here : entityId = item.1
    · rw [here, update_self, if_pos mem_cons_self]
    rw [update_of_ne here, if_neg]
    rw [mem_cons, not_or]
    exact ⟨here, later⟩

namespace ObserverInterestSet

variable (interest : ObserverInterestSet)

def visibleTier (entityId : UInt32) : Option FrequencyTier :=
  (KeyedList.find Prod.fst (interest.visibleEntities.zip interest.visibleTiers) entityId).map
    Prod.snd

theorem visibleTier_eq (entityId : UInt32) :
    interest.visibleTier entityId = interest.findInPrev entityId := by
  rw [visibleTier, visibleEntities, visibleTiers, ← zip_of_prod rfl rfl]
  rfl

variable {interest : ObserverInterestSet}

theorem mem_visibleEntities_iff {entityId : UInt32} :
    entityId ∈ interest.visibleEntities ↔ (interest.findInPrev entityId).isSome := by
  rw [findInPrev, isSome_map, isSome_iff_ne_none, KeyedList.find_ne_none_iff, visibleEntities]

def isInRange (interest : ObserverInterestSet) (call : VisibilityCall) (candId : UInt32) :
    Bool :=
  match call.grid.getPosition candId with
  | none => false
  | some candPos => decide (call.observerPos.distanceSquared candPos ≤ interest.maxRadiusSq)

def candidatesInRange (interest : ObserverInterestSet) (call : VisibilityCall) : List UInt32 :=
  call.queriedCandidates.filter (interest.isInRange call)

/-- A candidate in range with its tier. -/
def entry (interest : ObserverInterestSet) (call : VisibilityCall) (candId : UInt32) :
    Option Tracked :=
  match call.grid.getPosition candId with
  | none => none
  | some candPos =>
    let distSq := call.observerPos.distanceSquared candPos
    if distSq ≤ interest.maxRadiusSq then
      some (candId, interest.newTier (interest.findInPrev candId) distSq)
    else
      none

def entries (interest : ObserverInterestSet) (call : VisibilityCall) : List Tracked :=
  call.queriedCandidates.filterMap (interest.entry call)

theorem map_entries (interest : ObserverInterestSet) (call : VisibilityCall) :
    (interest.entries call).map Prod.fst = interest.candidatesInRange call := by
  rw [entries, candidatesInRange]
  induction call.queriedCandidates with
  | nil => rfl
  | cons candId rest ih =>
    rcases position : call.grid.getPosition candId with _ | candPos
    · have notEntry : interest.entry call candId = none := by
        rw [entry, position]
      have notInRange : ¬ interest.isInRange call candId := by
        rw [isInRange, position]
        exact Bool.false_ne_true
      rw [filterMap_cons_none notEntry, filter_cons_of_neg notInRange, ih]
    by_cases near : call.observerPos.distanceSquared candPos ≤ interest.maxRadiusSq
    · have isEntry : interest.entry call candId =
          some (candId, interest.newTier (interest.findInPrev candId)
            (call.observerPos.distanceSquared candPos)) := by
        rw [entry, position]
        exact if_pos near
      have inRange : interest.isInRange call candId := by
        rw [isInRange, position]
        exact decide_eq_true near
      rw [filterMap_cons_some isEntry, filter_cons_of_pos inRange, map_cons, ih]
    have notEntry : interest.entry call candId = none := by
      rw [entry, position]
      exact if_neg near
    have notInRange : ¬ interest.isInRange call candId := by
      rw [isInRange, position]
      simpa using near
    rw [filterMap_cons_none notEntry, filter_cons_of_neg notInRange, ih]

def transition (interest : ObserverInterestSet) (item : Tracked) : Option VisibilityEvent :=
  match interest.findInPrev item.1 with
  | none => some (.enter item.1 item.2)
  | some old => if old ≠ item.2 then some (.tierChange item.1 item.2) else none

def dropped (interest : ObserverInterestSet) (call : VisibilityCall) : List Tracked :=
  interest.curr.filter fun item =>
    (KeyedList.find Prod.fst (interest.updateVisibility call).2.curr item.1).isNone

def transitions (interest : ObserverInterestSet) (call : VisibilityCall) : List VisibilityEvent :=
  (interest.entries call).filterMap interest.transition ++
    (interest.dropped call).map fun item => .exit item.1

theorem processCandidates_eq (interest : ObserverInterestSet) (call : VisibilityCall) :
    interest.processCandidates call =
      (((interest.entries call).filterMap interest.transition).foldl (emit call.outputLen) [],
        (interest.entries call).foldl
          (SortedTable.insertUpTo interest.maxTracked Prod.fst) []) := by
  have general : ∀ (candidates : List UInt32) (state : List VisibilityEvent × List Tracked),
      candidates.foldl (interest.processCandidate call) state =
        (((candidates.filterMap (interest.entry call)).filterMap interest.transition).foldl
            (emit call.outputLen) state.1,
          (candidates.filterMap (interest.entry call)).foldl
            (SortedTable.insertUpTo interest.maxTracked Prod.fst) state.2) := by
    intro candidates
    induction candidates with
    | nil => exact fun _ => rfl
    | cons candId rest ih =>
      intro state
      rw [foldl_cons, ih]
      rcases position : call.grid.getPosition candId with _ | candPos
      · have notEntry : interest.entry call candId = none := by
          rw [entry, position]
        rw [filterMap_cons_none notEntry, processCandidate, position]
      by_cases near : call.observerPos.distanceSquared candPos ≤ interest.maxRadiusSq
      · have isEntry : interest.entry call candId =
            some (candId, interest.newTier (interest.findInPrev candId)
              (call.observerPos.distanceSquared candPos)) := by
          rw [entry, position]
          exact if_pos near
        rw [filterMap_cons_some isEntry, foldl_cons, processCandidate, position]
        simp only [if_pos near]
        rcases prev : interest.findInPrev candId with _ | old
        · have reported : interest.transition
              (candId, interest.newTier none (call.observerPos.distanceSquared candPos)) =
              some (.enter candId (interest.newTier none
                (call.observerPos.distanceSquared candPos))) := by
            rw [transition, prev]
          rw [filterMap_cons_some reported, foldl_cons]
        by_cases changed : old ≠ interest.newTier (some old)
            (call.observerPos.distanceSquared candPos)
        · have reported : interest.transition (candId, interest.newTier (some old)
              (call.observerPos.distanceSquared candPos)) =
              some (.tierChange candId (interest.newTier (some old)
                (call.observerPos.distanceSquared candPos))) := by
            rw [transition, prev]
            exact if_pos changed
          rw [filterMap_cons_some reported, foldl_cons]
          simp only [if_pos changed]
        have silent : interest.transition (candId, interest.newTier (some old)
            (call.observerPos.distanceSquared candPos)) = none := by
          rw [transition, prev]
          exact if_neg changed
        rw [filterMap_cons_none silent]
        simp only [if_neg changed]
      have notEntry : interest.entry call candId = none := by
        rw [entry, position]
        exact if_neg near
      rw [filterMap_cons_none notEntry, processCandidate, position]
      simp only [if_neg near]
  exact general call.queriedCandidates ([], [])

theorem updateVisibility_events (interest : ObserverInterestSet) (call : VisibilityCall) :
    (interest.updateVisibility call).1 = (interest.transitions call).take call.outputLen := by
  have table := interest.processCandidates_table call
  have swept := SortedTable.sweep_eq_foldl
    (fun events (left : Tracked) => emit call.outputLen events (.exit left.1))
    (interest.processCandidates call).1 interest.sorted table.1
  have asEvents : (interest.dropped call).foldl
      (fun events (left : Tracked) => emit call.outputLen events (.exit left.1))
      (interest.processCandidates call).1 =
      ((interest.dropped call).map fun item => VisibilityEvent.exit item.1).foldl
        (emit call.outputLen) (interest.processCandidates call).1 := by
    rw [foldl_map]
  have reported : (interest.processCandidates call).1 =
      ((interest.entries call).filterMap interest.transition).foldl (emit call.outputLen) [] := by
    rw [processCandidates_eq]
  have all : (interest.updateVisibility call).1 =
      (interest.transitions call).foldl (emit call.outputLen) [] := by
    rw [transitions, foldl_append, ← reported, ← asEvents]
    exact swept
  rw [all, foldl_emit]
  rfl

theorem updateVisibility_curr (interest : ObserverInterestSet) (call : VisibilityCall) :
    (interest.updateVisibility call).2.curr = (interest.entries call).foldl
        (SortedTable.insertUpTo interest.maxTracked Prod.fst) [] := by
  have table : (interest.updateVisibility call).2.curr = (interest.processCandidates call).2 :=
    rfl
  rw [table, processCandidates_eq]

variable {call : VisibilityCall}

theorem find_updateVisibility (distinct : call.queriedCandidates.Nodup) (entityId : UInt32) :
    KeyedList.find Prod.fst (interest.updateVisibility call).2.curr entityId =
      KeyedList.find Prod.fst ((interest.entries call).take interest.maxTracked) entityId := by
  have distinctEntries : ((interest.entries call).map Prod.fst).Nodup := by
    rw [map_entries]
    exact distinct.filter _
  rw [updateVisibility_curr,
    SortedTable.find_foldl_insertUpTo distinctEntries (fun _ _ => rfl) entityId]
  rfl

variable {client : UInt32 → Option FrequencyTier}

theorem foldl_applyEvent_transitions {items : List Tracked} (distinct : (items.map Prod.fst).Nodup)
    (synchronized : ∀ item ∈ items, client item.1 = interest.findInPrev item.1) (entityId : UInt32) :
    (items.filterMap interest.transition).foldl applyEvent client entityId =
      ((KeyedList.find Prod.fst items entityId).map Prod.snd).or (client entityId) := by
  induction items generalizing client with
  | nil => rfl
  | cons item rest ih =>
    rw [map_cons, nodup_cons] at distinct
    have here := synchronized item mem_cons_self
    -- Whatever is reported, the client then has the entity's tier.
    have oneItem : ∃ next : UInt32 → Option FrequencyTier,
        ((item :: rest).filterMap interest.transition).foldl applyEvent client =
          (rest.filterMap interest.transition).foldl applyEvent next ∧
        ∀ other, next other = if other = item.1 then some item.2 else client other := by
      rcases prev : interest.findInPrev item.1 with _ | old
      · have reported : interest.transition item = some (.enter item.1 item.2) := by
          rw [transition, prev]
        refine ⟨applyEvent client (.enter item.1 item.2), ?_, ?_⟩
        · rw [filterMap_cons_some reported, foldl_cons]
        exact fun other => update_apply client item.1 (some item.2) other
      by_cases changed : old ≠ item.2
      · have reported : interest.transition item = some (.tierChange item.1 item.2) := by
          rw [transition, prev]
          exact if_pos changed
        refine ⟨applyEvent client (.tierChange item.1 item.2), ?_, ?_⟩
        · rw [filterMap_cons_some reported, foldl_cons]
        exact fun other => update_apply client item.1 (some item.2) other
      have silent : interest.transition item = none := by
        rw [transition, prev]
        exact if_neg changed
      refine ⟨client, ?_, ?_⟩
      · rw [filterMap_cons_none silent]
      intro other
      by_cases same : other = item.1
      · rw [if_pos same, same, here, prev, not_not.mp changed]
      rw [if_neg same]
    obtain ⟨next, folded, nextIs⟩ := oneItem
    have restSynchronized : ∀ later ∈ rest, next later.1 = interest.findInPrev later.1 := by
      intro later member
      have apart : later.1 ≠ item.1 := by
        intro same
        exact distinct.1 (mem_map.mpr ⟨later, member, same⟩)
      rw [nextIs, if_neg apart]
      exact synchronized later (mem_cons_of_mem _ member)
    rw [folded, ih distinct.2 restSynchronized, nextIs, KeyedList.find_cons]
    by_cases asked : entityId = item.1
    · have absent : KeyedList.find Prod.fst rest entityId = none := by
        rw [KeyedList.find_eq_none_iff]
        intro later member same
        exact distinct.1 (mem_map.mpr ⟨later, member, same.trans asked⟩)
      rw [absent, if_pos asked, if_pos asked.symm]
      rfl
    rw [if_neg asked, if_neg (Ne.symm asked)]

/-- The candidates in range for which there is no room were tracked before. -/
def HasRoom (interest : ObserverInterestSet) (call : VisibilityCall) : Prop :=
  ∀ candId ∈ (interest.candidatesInRange call).drop interest.maxTracked,
    candId ∈ interest.visibleEntities

instance (interest : ObserverInterestSet) (call : VisibilityCall) :
    Decidable (interest.HasRoom call) :=
  List.decidableBAll (fun candId => candId ∈ interest.visibleEntities)
    ((interest.candidatesInRange call).drop interest.maxTracked)

theorem client_after (distinct : call.queriedCandidates.Nodup)
    (synchronized : ∀ entityId, client entityId = interest.findInPrev entityId) (entityId : UInt32) :
    (interest.transitions call).foldl applyEvent client entityId =
      if (interest.findInPrev entityId).isSome ∧
          (interest.updateVisibility call).2.findInPrev entityId = none then none
      else ((KeyedList.find Prod.fst (interest.entries call) entityId).map Prod.snd).or
        (interest.findInPrev entityId) := by
  have distinctEntries : ((interest.entries call).map Prod.fst).Nodup := by
    rw [map_entries]
    exact distinct.filter _
  have left : entityId ∈ (interest.dropped call).map Prod.fst ↔
      (interest.findInPrev entityId).isSome ∧
        (interest.updateVisibility call).2.findInPrev entityId = none := by
    rw [← mem_visibleEntities_iff, visibleEntities, findInPrev, map_eq_none_iff,
      List.mem_map, List.mem_map]
    constructor
    · intro gone
      obtain ⟨item, member, same⟩ := gone
      obtain ⟨tracked, missing⟩ := mem_filter.mp member
      rw [isNone_iff_eq_none, same] at missing
      exact ⟨⟨item, tracked, same⟩, missing⟩
    intro gone
    obtain ⟨⟨item, tracked, same⟩, missing⟩ := gone
    refine ⟨item, mem_filter.mpr ⟨tracked, ?_⟩, same⟩
    rw [isNone_iff_eq_none, same]
    exact missing
  rw [transitions, foldl_append, foldl_applyEvent_exit,
    foldl_applyEvent_transitions distinctEntries (fun item _ => synchronized item.1),
    synchronized]
  exact if_congr left rfl rfl

/-- The client has the tracked set after an update exactly if there was room for all that
is reported as entered. -/
theorem synchronized_after_iff (distinct : call.queriedCandidates.Nodup)
    (synchronized : ∀ entityId, client entityId = interest.findInPrev entityId) :
    (∀ entityId, (interest.transitions call).foldl applyEvent client entityId =
      (interest.updateVisibility call).2.findInPrev entityId) ↔ interest.HasRoom call := by
  have split : ∀ entityId, KeyedList.find Prod.fst (interest.entries call) entityId =
      (KeyedList.find Prod.fst ((interest.entries call).take interest.maxTracked) entityId).or
        (KeyedList.find Prod.fst ((interest.entries call).drop interest.maxTracked) entityId) := by
    intro entityId
    rw [KeyedList.find, KeyedList.find, KeyedList.find, ← find?_append, take_append_drop]
  have after : ∀ entityId, (interest.updateVisibility call).2.findInPrev entityId =
      (KeyedList.find Prod.fst ((interest.entries call).take interest.maxTracked)
        entityId).map Prod.snd := by
    intro entityId
    rw [findInPrev, find_updateVisibility distinct]
  have overflow : ∀ candId, candId ∈ (interest.candidatesInRange call).drop interest.maxTracked ↔
      KeyedList.find Prod.fst ((interest.entries call).drop interest.maxTracked) candId ≠
        none := by
    intro candId
    rw [← map_entries, ← map_drop, KeyedList.find_ne_none_iff]
  have disjoint : ∀ candId ∈ (interest.candidatesInRange call).drop interest.maxTracked,
      KeyedList.find Prod.fst ((interest.entries call).take interest.maxTracked) candId =
        none := by
    intro candId behind
    rw [KeyedList.find_eq_none_iff]
    intro item member same
    have inFront : candId ∈ (interest.candidatesInRange call).take interest.maxTracked := by
      rw [← map_entries, ← map_take]
      exact mem_map.mpr ⟨item, member, same⟩
    have apart : ((interest.candidatesInRange call).take interest.maxTracked).Disjoint
        ((interest.candidatesInRange call).drop interest.maxTracked) :=
      disjoint_take_drop (distinct.filter _) (Nat.le_refl _)
    exact apart inFront behind
  constructor
  · intro agrees candId behind
    rw [mem_visibleEntities_iff]
    have here := agrees candId
    rw [client_after distinct synchronized, after, split, disjoint candId behind] at here
    obtain ⟨item, found⟩ := Option.ne_none_iff_exists'.mp ((overflow candId).mp behind)
    rw [found] at here
    by_contra untracked
    rw [if_neg (fun both => untracked both.1)] at here
    cases here
  intro room entityId
  rw [client_after distinct synchronized, after, split]
  rcases kept : KeyedList.find Prod.fst ((interest.entries call).take interest.maxTracked)
      entityId with _ | item
  · by_cases tracked : (interest.findInPrev entityId).isSome
    · rw [if_pos ⟨tracked, rfl⟩]
      rfl
    have notBehind : KeyedList.find Prod.fst
        ((interest.entries call).drop interest.maxTracked) entityId = none := by
      by_contra present
      have visible := room entityId ((overflow entityId).mpr present)
      exact tracked (mem_visibleEntities_iff.mp visible)
    rw [notBehind, Option.not_isSome_iff_eq_none.mp tracked]
    rfl
  rw [if_neg]
  · rfl
  intro both
  cases both.2

end ObserverInterestSet

structure ObserverView where
  interest : ObserverInterestSet
  client : UInt32 → Option FrequencyTier

namespace ObserverView

/-- Nothing is tracked and the client knows nothing. -/
def start (maxTracked : Nat) (tierModel : TierModel) (maxRadiusSq : Fixed64) : ObserverView where
  interest := ObserverInterestSet.withCapacityAndModel maxTracked tierModel maxRadiusSq
  client := fun _ => none

variable (view : ObserverView)

def step (call : VisibilityCall) : ObserverView where
  interest := (view.interest.updateVisibility call).2
  client := (view.interest.updateVisibility call).1.foldl applyEvent view.client

/-- No candidate is listed twice, and the output has room for all transitions. -/
def Admissible (call : VisibilityCall) : Prop :=
  call.queriedCandidates.Nodup ∧ (view.interest.transitions call).length ≤ call.outputLen

/-- The client has exactly the visible entities with their tiers. -/
def Synchronized : Prop :=
  ∀ entityId, view.client entityId = view.interest.visibleTier entityId

theorem synchronized_step_iff {view : ObserverView} {call : VisibilityCall}
    (admissible : view.Admissible call) (synchronized : view.Synchronized) :
    (view.step call).Synchronized ↔ view.interest.HasRoom call := by
  have before : ∀ entityId, view.client entityId = view.interest.findInPrev entityId := by
    intro entityId
    rw [synchronized, ObserverInterestSet.visibleTier_eq]
  have written : (view.interest.updateVisibility call).1 = view.interest.transitions call := by
    rw [ObserverInterestSet.updateVisibility_events]
    exact take_of_length_le admissible.2
  rw [← ObserverInterestSet.synchronized_after_iff admissible.1 before, step]
  rw [written]
  exact forall_congr' fun entityId => by rw [ObserverInterestSet.visibleTier_eq]

/-- Along every run of updates the client has the visible entities with their tiers
throughout exactly if each update had room for all that it reported as entered. -/
theorem synchronized_throughout_iff (maxTracked : Nat) (tierModel : TierModel)
    (maxRadiusSq : Fixed64) {calls : List VisibilityCall}
    (admissible : EachStep (fun view call => step view call)
      (fun view call => Admissible view call) (start maxTracked tierModel maxRadiusSq) calls) :
    Throughout (fun view call => step view call) Synchronized
        (start maxTracked tierModel maxRadiusSq) calls ↔
      EachStep (fun view call => step view call) (fun view call => view.interest.HasRoom call)
        (start maxTracked tierModel maxRadiusSq) calls := by
  have empty : (start maxTracked tierModel maxRadiusSq).Synchronized := by
    intro entityId
    rfl
  have noInvariant : ∀ view call, True → Admissible view call → True := fun _ _ _ _ => trivial
  have exactly : ∀ view call, True → Admissible view call → Synchronized view →
      ((step view call).Synchronized ↔ view.interest.HasRoom call) :=
    fun _ _ _ here synchronized => synchronized_step_iff here synchronized
  exact throughout_iff_eachStep_of_assumed noInvariant exactly trivial empty admissible

def twoEntities : SpatialHashGrid :=
  ((SpatialHashGrid.new 8).insert 1 (Vec3Fix.fromI32 0 0 0)).2.insert 2 (Vec3Fix.fromI32 0 0 0) |>.2

def bothNear : VisibilityCall where
  grid := twoEntities
  observerPos := Vec3Fix.fromI32 3 0 4
  queriedCandidates := [1, 2]
  outputLen := 2

def secondNear : VisibilityCall :=
  { bothNear with queriedCandidates := [2] }

theorem synchronized_twoUpdates : Throughout (fun view call => step view call) Synchronized
      (start 2 .standard3Tier (Fixed64.fromI32 2500)) [bothNear, secondNear] := by
  have admissible : EachStep (fun view call => step view call)
      (fun view call => Admissible view call) (start 2 .standard3Tier (Fixed64.fromI32 2500))
      [bothNear, secondNear] :=
    ⟨⟨by decide, by decide⟩, ⟨by decide, by decide⟩, trivial⟩
  have first : (start 2 .standard3Tier (Fixed64.fromI32 2500)).interest.HasRoom bothNear := by
    decide
  have second : ((start 2 .standard3Tier (Fixed64.fromI32 2500)).step
      bothNear).interest.HasRoom secondNear := by
    decide
  apply (synchronized_throughout_iff 2 .standard3Tier (Fixed64.fromI32 2500) admissible).mpr
  exact ⟨first, second, trivial⟩

/-- With room for one entity both are reported as entered, and only the first is tracked. -/
theorem not_synchronized_overCapacity : EachStep (fun view call => step view call)
        (fun view call => Admissible view call)
        (start 1 .standard3Tier (Fixed64.fromI32 2500)) [bothNear] ∧
      ¬ Throughout (fun view call => step view call) Synchronized
        (start 1 .standard3Tier (Fixed64.fromI32 2500)) [bothNear] := by
  refine ⟨⟨⟨by decide, by decide⟩, trivial⟩, ?_⟩
  intro always
  have synchronized := always.2 2
  have told : (step (start 1 .standard3Tier (Fixed64.fromI32 2500)) bothNear).client 2 =
      some .immediate := by
    rw [step]
    rw [ObserverInterestSet.updateVisibility_events]
    rfl
  rw [told] at synchronized
  cases synchronized

end ObserverView

end Eidolon.Spatial
