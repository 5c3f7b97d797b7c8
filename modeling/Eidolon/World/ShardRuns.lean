import Mathlib.Data.UInt
import Eidolon.World.ShardRebalance

/-!
# Runs of the shard manager

Every call keeps the accounts of the shards. A rebalancing leaves no sector that has to move,
so that another one does nothing. The number of sectors is counted in 32 bits, and with 2^32
of them on a shard it stays at the largest number.
-/

namespace Eidolon.World

open Library List Nat Option

namespace AdaptiveShardManager

variable {manager : AdaptiveShardManager} {account : ShardAccount}

def wildernessOf (manager : AdaptiveShardManager) (order : List (Int32 × Int32)) :
    List (Int32 × Int32) :=
  manager.candidates (fun metadata => !manager.isHotspot metadata && manager.isWilderness metadata)
    order

def hotspotsOf (manager : AdaptiveShardManager) (order : List (Int32 × Int32)) :
    List (Int32 × Int32) :=
  manager.candidates manager.isHotspot order

def merged (manager : AdaptiveShardManager) (currentTick : UInt64)
    (order : List (Int32 × Int32)) : AdaptiveShardManager :=
  mergeAll currentTick manager (manager.wildernessOf order)

theorem foldl_fst {Result Item : Type} (both : AdaptiveShardManager × Result → Item →
      AdaptiveShardManager × Result) (only : AdaptiveShardManager → Item → AdaptiveShardManager)
    (same : ∀ state item, (both state item).1 = only state.1 item) (items : List Item)
    (state : AdaptiveShardManager × Result) :
    (items.foldl both state).1 = items.foldl only state.1 := by
  induction items generalizing state with
  | nil => rfl
  | cons item items ih => rw [foldl_cons, foldl_cons, ih, same]

theorem evaluateRebalance_fst (manager : AdaptiveShardManager) (currentTick : UInt64)
    (order : List (Int32 × Int32)) :
    (manager.evaluateRebalance currentTick order).1 =
      contractAll currentTick (manager.merged currentTick order) (manager.hotspotsOf order) := by
  rw [evaluateRebalance, contractAll, hotspotsOf, merged, mergeAll, wildernessOf]
  rw [foldl_fst _ (contracted currentTick), foldl_fst _ fun merged sector =>
    merged.moved sector merged.backgroundShardId currentTick]
  · intro state sector
    exact (state.1.applied_fst _).trans (state.1.orKept_moveSector _ sector _ _)
  intro state sector
  rw [contracted]
  rcases state.1.leastLoaded with _ | target
  · rfl
  dsimp only
  rw [contractHotspotToShard]
  split
  · rfl
  exact (state.1.applied_fst _).trans (state.1.orKept_moveSector _ sector _ _)

/-- A rebalancing does nothing, in whatever order the sectors are visited. -/
def Settled (manager : AdaptiveShardManager) : Prop :=
  ∀ currentTick order, manager.evaluateRebalance currentTick order = (manager, [])

structure Calm (manager : AdaptiveShardManager) : Prop where
  wilderness : ∀ sector metadata, manager.sectors.lookup sector = some metadata →
    manager.isWilderness metadata = false
  hotspots : ∀ sector metadata, manager.sectors.lookup sector = some metadata →
    manager.isHotspot metadata = true → manager.leastLoaded = none

theorem candidates_eq_nil (manager : AdaptiveShardManager) (fits : SectorMetadata → Bool)
    (nothing : ∀ sector metadata, manager.sectors.lookup sector = some metadata →
      fits metadata = false) (order : List (Int32 × Int32)) :
    manager.candidates fits order = [] := by
  rw [candidates, filter_eq_nil_iff]
  intro sector _
  rcases held : manager.sectors.lookup sector with _ | metadata
  · exact Bool.false_ne_true
  rw [any_some, nothing sector metadata held]
  exact Bool.false_ne_true

theorem Calm.settled (calm : manager.Calm) : manager.Settled := by
  intro currentTick order
  have noWilderness := manager.candidates_eq_nil
    (fun metadata => !manager.isHotspot metadata && manager.isWilderness metadata)
    (fun sector metadata held => by
      rw [calm.wilderness sector metadata held, Bool.and_false]) order
  rw [evaluateRebalance, noWilderness, foldl_nil]
  by_cases hot : ∃ sector metadata, manager.sectors.lookup sector = some metadata ∧
      manager.isHotspot metadata = true
  · obtain ⟨sector, metadata, held, isHot⟩ := hot
    have noShard := calm.hotspots sector metadata held isHot
    apply foldl_fixed'
    intro candidate
    rw [noShard]
  have noHotspots := manager.candidates_eq_nil manager.isHotspot (fun sector metadata held => by
      rw [Bool.eq_false_iff]
      exact fun isHot => hot ⟨sector, metadata, held, isHot⟩) order
  rw [noHotspots, foldl_nil]

theorem SameSettings.isHotspot {before after : AdaptiveShardManager}
    (same : SameSettings before after) (metadata : SectorMetadata) :
    after.isHotspot metadata = before.isHotspot metadata := by
  rw [AdaptiveShardManager.isHotspot, AdaptiveShardManager.isHotspot, same.hotspot, same.background]

theorem SameSettings.isWilderness {before after : AdaptiveShardManager}
    (same : SameSettings before after) (metadata : SectorMetadata) :
    after.isWilderness metadata = before.isWilderness metadata := by
  rw [AdaptiveShardManager.isWilderness, AdaptiveShardManager.isWilderness, same.wilderness,
    same.background]

theorem calm_contractAll (formed : manager.Formed)
    (ordered : manager.wildernessThreshold < manager.hotspotThreshold) (currentTick : UInt64)
    {sectors : List (Int32 × Int32)}
    (crowded : ∀ sector ∈ sectors, ∀ metadata, manager.sectors.lookup sector = some metadata →
      manager.hotspotThreshold ≤ metadata.entityCount)
    (waiting : ∀ sector metadata, manager.sectors.lookup sector = some metadata →
      manager.isWilderness metadata = false ∧
        (manager.isHotspot metadata = true → sector ∈ sectors)) :
    (contractAll currentTick manager sectors).Calm := by
  induction sectors generalizing manager with
  | nil =>
    refine ⟨fun sector metadata held => (waiting sector metadata held).1, ?_⟩
    intro sector metadata held isHot
    cases (waiting sector metadata held).2 isHot
  | cons first sectors ih =>
    have settings := contracted_settings formed currentTick first
    have formedNext := formed.contracted currentTick first
    rw [contractAll, foldl_cons]
    rcases contracted_cases formed currentTick first with
      ⟨noShard, same⟩ | ⟨target, others, there, isMoved⟩
    · -- the rest is left where it is, too
      have stays : ∀ sector, contracted currentTick manager sector = manager := by
        intro sector
        rw [contracted, noShard]
      rw [same, foldl_fixed' stays]
      exact ⟨fun sector metadata held => (waiting sector metadata held).1, fun _ _ _ _ => noShard⟩
    apply ih formedNext
    · rw [settings.hotspot, settings.wilderness]
      exact ordered
    · intro sector isLater metadata held
      rw [isMoved, lookup_moved] at held
      rw [settings.hotspot]
      split at held
      · obtain ⟨old, isOld, rfl⟩ := Option.map_eq_some_iff.mp held
        rw [SectorMetadata.movedTo_entityCount]
        exact crowded sector (mem_cons_of_mem first isLater) old isOld
      exact crowded sector (mem_cons_of_mem first isLater) metadata held
    intro sector metadata held
    rw [settings.isWilderness, settings.isHotspot]
    rw [isMoved, lookup_moved] at held
    split at held
    · rename_i isFirst
      obtain ⟨old, isOld, rfl⟩ := Option.map_eq_some_iff.mp held
      have enough := crowded sector (by rw [isFirst]; exact mem_cons_self) old isOld
      have many : ¬ old.entityCount ≤ manager.wildernessThreshold :=
        UInt32.not_le.mpr (UInt32.lt_of_lt_of_le ordered enough)
      have away : (target == manager.backgroundShardId) = false := beq_false_of_ne others
      rw [isWilderness, isHotspot, SectorMetadata.movedTo_entityCount,
        SectorMetadata.movedTo_shardId, decide_eq_false many, away]
      exact ⟨rfl, fun isHot => by rw [Bool.and_false] at isHot; cases isHot⟩
    rename_i notFirst
    obtain ⟨notWild, isLater⟩ := waiting sector metadata held
    exact ⟨notWild, fun isHot =>
      (mem_cons.mp (isLater isHot)).resolve_left notFirst⟩

theorem calm_evaluateRebalance (formed : manager.Formed)
    (ordered : manager.wildernessThreshold < manager.hotspotThreshold) (currentTick : UInt64)
    {order : List (Int32 × Int32)}
    (visited : ∀ sector metadata, manager.sectors.lookup sector = some metadata → sector ∈ order) :
    (manager.evaluateRebalance currentTick order).1.Calm := by
  have settings : SameSettings manager (manager.merged currentTick order) := mergeAll_settings
  have wildernessIff : ∀ sector metadata, manager.sectors.lookup sector = some metadata →
      (sector ∈ manager.wildernessOf order ↔
        manager.isHotspot metadata = false ∧ manager.isWilderness metadata = true) := by
    intro sector metadata held
    rw [wildernessOf, candidates, mem_filter, held, any_some, Bool.and_eq_true, Bool.not_eq_true']
    exact and_iff_right (visited sector metadata held)
  have hotspotIff : ∀ sector metadata, manager.sectors.lookup sector = some metadata →
      (sector ∈ manager.hotspotsOf order ↔ manager.isHotspot metadata = true) := by
    intro sector metadata held
    rw [hotspotsOf, candidates, mem_filter, held]
    exact and_iff_right (visited sector metadata held)
  have formedMerged : (manager.merged currentTick order).Formed := formed.mergeAll
  rw [evaluateRebalance_fst]
  apply calm_contractAll formedMerged (settings.hotspot ▸ settings.wilderness ▸ ordered)
  · intro sector there metadata held
    rw [settings.hotspot]
    rw [merged, lookup_mergeAll] at held
    have crowded : ∀ old, manager.sectors.lookup sector = some old →
        manager.hotspotThreshold ≤ old.entityCount := by
      intro old isOld
      have isHot := (hotspotIff sector old isOld).mp there
      rw [isHotspot, Bool.and_eq_true, decide_eq_true_iff] at isHot
      exact isHot.1
    split at held
    · obtain ⟨old, isOld, rfl⟩ := Option.map_eq_some_iff.mp held
      rw [SectorMetadata.movedTo_entityCount]
      exact crowded old isOld
    exact crowded metadata held
  intro sector metadata held
  rw [settings.isWilderness, settings.isHotspot]
  rw [merged, lookup_mergeAll] at held
  split at held
  · rename_i isMerged
    obtain ⟨old, isOld, rfl⟩ := Option.map_eq_some_iff.mp held
    have isWild := ((wildernessIff sector old isOld).mp isMerged).2
    rw [isWilderness, Bool.and_eq_true, decide_eq_true_iff] at isWild
    have notMany : ¬ manager.hotspotThreshold ≤ old.entityCount :=
      UInt32.not_le.mpr (UInt32.lt_of_le_of_lt isWild.1 ordered)
    rw [isWilderness, isHotspot, SectorMetadata.movedTo_entityCount,
      SectorMetadata.movedTo_shardId, decide_eq_false notMany, bne_self_eq_false,
      Bool.and_false]
    exact ⟨rfl, fun isHot => by cases isHot⟩
  rename_i notMerged
  refine ⟨?_, (hotspotIff sector metadata held).mpr⟩
  rw [wildernessIff sector metadata held] at notMerged
  rw [Bool.eq_false_iff]
  intro isWild
  -- what has few entities is no hotspot
  refine notMerged ⟨?_, isWild⟩
  rw [isWilderness, Bool.and_eq_true, decide_eq_true_iff] at isWild
  have notMany : ¬ manager.hotspotThreshold ≤ metadata.entityCount :=
    UInt32.not_le.mpr (UInt32.lt_of_le_of_lt isWild.1 ordered)
  rw [isHotspot, decide_eq_false notMany, Bool.false_and]

theorem Kept.evaluateRebalance (kept : manager.Kept account) (formed : manager.Formed)
    (currentTick : UInt64) {order : List (Int32 × Int32)} (distinct : order.Nodup)
    (fitsMerged : ∀ shardId, (manager.merged currentTick order).assigned account shardId < 2 ^ 32)
    (fits : ∀ shardId,
      (manager.evaluateRebalance currentTick order).1.assigned account shardId < 2 ^ 32) :
    (manager.evaluateRebalance currentTick order).1.Kept account := by
  have settings : SameSettings manager (manager.merged currentTick order) := mergeAll_settings
  have formedMerged : (manager.merged currentTick order).Formed := formed.mergeAll
  have keptMerged : (manager.merged currentTick order).Kept account :=
    kept.mergeAll formed (fitsMerged manager.backgroundShardId)
  have onBackground : (manager.merged currentTick order).OnBackground
      (manager.hotspotsOf order) := by
    intro sector there metadata held
    rw [settings.background]
    rw [merged, lookup_mergeAll] at held
    split at held
    · obtain ⟨old, -, rfl⟩ := Option.map_eq_some_iff.mp held
      exact old.movedTo_shardId _ _
    rw [hotspotsOf, candidates, mem_filter, held, any_some, isHotspot,
      Bool.and_eq_true, beq_iff_eq] at there
    exact there.2.2
  rw [evaluateRebalance_fst] at fits ⊢
  exact keptMerged.contractAll formedMerged (distinct.filter _) onBackground
    fun shardId _ => fits shardId

theorem Formed.evaluateRebalance (formed : manager.Formed) (currentTick : UInt64)
    (order : List (Int32 × Int32)) : (manager.evaluateRebalance currentTick order).1.Formed := by
  have formedMerged : (manager.merged currentTick order).Formed := formed.mergeAll
  rw [evaluateRebalance_fst]
  exact formedMerged.contractAll

end AdaptiveShardManager

/-- A call of the manager; a rebalancing comes with the order in which it visits the
sectors. -/
inductive ShardCall where
  | configureThresholds (hotspot wilderness backgroundShard : UInt32)
  | assignSector (sectorX sectorZ : Int32) (shardId : UInt32)
  | updateSectorEntityCount (sectorX sectorZ : Int32) (newCount : UInt32)
  | contractHotspotToShard (sectorX sectorZ : Int32) (target : UInt32) (currentTick : UInt64)
  | mergeWildernessToBackground (sectorX sectorZ : Int32) (currentTick : UInt64)
  | evaluateRebalance (currentTick : UInt64) (order : List (Int32 × Int32))

namespace AdaptiveShardManager

def step (manager : AdaptiveShardManager) : ShardCall → AdaptiveShardManager
  | .configureThresholds hotspot wilderness backgroundShard =>
    manager.configureThresholds hotspot wilderness backgroundShard
  | .assignSector sectorX sectorZ shardId =>
    manager.orKept (manager.assignSector sectorX sectorZ shardId)
  | .updateSectorEntityCount sectorX sectorZ newCount =>
    manager.orKept (manager.updateSectorEntityCount sectorX sectorZ newCount)
  | .contractHotspotToShard sectorX sectorZ target currentTick =>
    manager.orKept
      ((manager.contractHotspotToShard sectorX sectorZ target currentTick).map Prod.snd)
  | .mergeWildernessToBackground sectorX sectorZ currentTick =>
    manager.orKept ((manager.mergeWildernessToBackground sectorX sectorZ currentTick).map Prod.snd)
  | .evaluateRebalance currentTick order => (manager.evaluateRebalance currentTick order).1

/-- A rebalancing visits every sector once. -/
def Assumed (manager : AdaptiveShardManager) : ShardCall → Prop
  | .evaluateRebalance _ order => order.Nodup ∧ ∀ sector, sector ∈ order ↔ sector ∈ manager.sectors
  | _ => True

variable (manager : AdaptiveShardManager)

def EntitiesFit : Prop :=
  FiniteMap.total (fun metadata => metadata.entityCount.toNat) manager.sectors < 2 ^ 32

instance (manager : AdaptiveShardManager) : Decidable manager.EntitiesFit :=
  inferInstanceAs (Decidable (_ < _))

/-- What each shard has fits in 32 bits after a call, and between the merges and the
contractions of a rebalancing. -/
def Fits (account : ShardAccount) (manager : AdaptiveShardManager) : ShardCall → Prop
  | .evaluateRebalance currentTick order =>
    (∀ shardId, (manager.merged currentTick order).assigned account shardId < 2 ^ 32) ∧ ∀ shardId,
        (manager.step (.evaluateRebalance currentTick order)).assigned account shardId < 2 ^ 32
  | call => ∀ shardId, (manager.step call).assigned account shardId < 2 ^ 32

/-- The metrics of the shards have what is assigned to them. -/
def Counted (account : ShardAccount) : Prop :=
  ∀ shardId metrics, manager.shardMetrics shardId = some metrics →
    (account.counter metrics).toNat = manager.assigned account shardId

/-- The sectors are on existing shards. -/
def Placed : Prop :=
  ∀ sector metadata, manager.sectors.lookup sector = some metadata →
    (manager.shardMetrics metadata.shardId).isSome

/-- With ordered thresholds a rebalancing leaves nothing to do for another one, also after
updates that write the numbers that are there. -/
def Settles (manager : AdaptiveShardManager) : ShardCall → Prop
  | .evaluateRebalance currentTick order =>
    manager.wildernessThreshold < manager.hotspotThreshold →
      (manager.step (.evaluateRebalance currentTick order)).Settled
  | .updateSectorEntityCount sectorX sectorZ newCount =>
    ∀ metadata, manager.sectors.lookup (sectorX, sectorZ) = some metadata →
      metadata.entityCount = newCount →
        manager.step (.updateSectorEntityCount sectorX sectorZ newCount) = manager
  | _ => True

variable {manager : AdaptiveShardManager} {account : ShardAccount}

theorem step_assignSector (manager : AdaptiveShardManager) (sectorX sectorZ : Int32)
    (shardId : UInt32) :
    manager.step (.assignSector sectorX sectorZ shardId) = manager ∨
      shardId.toNat < manager.shardCount ∧
        ((∃ metadata, manager.sectors.lookup (sectorX, sectorZ) = some metadata ∧
            metadata.shardId ≠ shardId ∧
            manager.step (.assignSector sectorX sectorZ shardId) =
              manager.relocate (sectorX, sectorZ) metadata { metadata with shardId := shardId }) ∨
          (sectorX, sectorZ) ∉ manager.sectors ∧
            manager.step (.assignSector sectorX sectorZ shardId) =
              manager.register (sectorX, sectorZ) shardId) := by
  rw [step, assignSector]
  split
  · exact .inl rfl
  rename_i there
  rcases found : manager.sectors.lookup (sectorX, sectorZ) with _ | metadata
  · exact .inr ⟨Nat.lt_of_not_le there, .inr ⟨Finmap.lookup_eq_none.mp found, rfl⟩⟩
  dsimp only
  by_cases same : metadata.shardId = shardId
  · rw [if_neg (not_not_intro same)]
    exact .inl rfl
  rw [if_pos same]
  exact .inr ⟨Nat.lt_of_not_le there, .inl ⟨metadata, rfl, same, rfl⟩⟩

theorem step_updateSectorEntityCount (manager : AdaptiveShardManager) (sectorX sectorZ : Int32)
    (newCount : UInt32) :
    manager.step (.updateSectorEntityCount sectorX sectorZ newCount) =
      match manager.sectors.lookup (sectorX, sectorZ) with
      | none => manager
      | some metadata => manager.recount (sectorX, sectorZ) metadata newCount := by
  rw [step, updateSectorEntityCount]
  cases manager.sectors.lookup (sectorX, sectorZ) with
  | _ => rfl

theorem step_contractHotspotToShard (manager : AdaptiveShardManager) (sectorX sectorZ : Int32)
    (target : UInt32) (currentTick : UInt64) :
    manager.step (.contractHotspotToShard sectorX sectorZ target currentTick) = manager ∨
      target.toNat < manager.shardCount ∧
        manager.step (.contractHotspotToShard sectorX sectorZ target currentTick) =
          manager.moved (sectorX, sectorZ) target currentTick := by
  rw [step, contractHotspotToShard]
  split
  · exact .inl rfl
  rename_i there
  exact .inr ⟨Nat.lt_of_not_le there, manager.orKept_moveSector _ (sectorX, sectorZ) _ _⟩

theorem step_mergeWildernessToBackground (manager : AdaptiveShardManager)
    (sectorX sectorZ : Int32) (currentTick : UInt64) :
    manager.step (.mergeWildernessToBackground sectorX sectorZ currentTick) =
      manager.moved (sectorX, sectorZ) manager.backgroundShardId currentTick :=
  manager.orKept_moveSector _ (sectorX, sectorZ) _ _

theorem Formed.step (formed : manager.Formed) (call : ShardCall) : (manager.step call).Formed := by
  cases call with
  | configureThresholds hotspot wilderness backgroundShard =>
    refine ⟨formed.sized, formed.few, formed.numbered, ?_, formed.placed⟩
    rw [AdaptiveShardManager.step, configureThresholds]
    split
    · assumption
    exact formed.background
  | assignSector sectorX sectorZ shardId =>
    rcases manager.step_assignSector sectorX sectorZ shardId with
      same | ⟨there, ⟨metadata, -, -, isMoved⟩ | ⟨-, isNew⟩⟩
    · rw [same]
      exact formed
    · rw [isMoved]
      exact formed.relocate there
    rw [isNew]
    exact formed.register there
  | updateSectorEntityCount sectorX sectorZ newCount =>
    rw [step_updateSectorEntityCount]
    cases found : manager.sectors.lookup (sectorX, sectorZ) with
    | none => exact formed
    | some metadata => exact formed.recount found newCount
  | contractHotspotToShard sectorX sectorZ target currentTick =>
    rcases manager.step_contractHotspotToShard sectorX sectorZ target currentTick with
      same | ⟨there, isMoved⟩
    · rw [same]
      exact formed
    rw [isMoved]
    exact formed.moved there
  | mergeWildernessToBackground sectorX sectorZ currentTick =>
    rw [step_mergeWildernessToBackground]
    exact formed.moved formed.background
  | evaluateRebalance currentTick order => exact formed.evaluateRebalance currentTick order

variable {call : ShardCall}

theorem Kept.step (kept : manager.Kept account) (formed : manager.Formed)
    (assumed : manager.Assumed call) (fits : Fits account manager call) :
    (manager.step call).Kept account := by
  cases call with
  | configureThresholds hotspot wilderness backgroundShard => exact kept
  | assignSector sectorX sectorZ shardId =>
    have fitsIt : (manager.step (.assignSector sectorX sectorZ shardId)).assigned account
        shardId < 2 ^ 32 := fits shardId
    rcases manager.step_assignSector sectorX sectorZ shardId with
      same | ⟨there, ⟨metadata, found, moves, isMoved⟩ | ⟨absent, isNew⟩⟩
    · rw [same]
      exact kept
    · rw [isMoved] at fitsIt ⊢
      exact kept.relocate formed found there moves rfl fitsIt
    rw [isNew] at fitsIt ⊢
    exact kept.register formed absent there fitsIt
  | updateSectorEntityCount sectorX sectorZ newCount =>
    have fitsAll : ∀ shardId, (manager.step
      (.updateSectorEntityCount sectorX sectorZ newCount)).assigned account shardId < 2 ^ 32 := fits
    rw [step_updateSectorEntityCount] at fitsAll ⊢
    rcases found : manager.sectors.lookup (sectorX, sectorZ) with _ | metadata
    · exact kept
    rw [found] at fitsAll
    exact kept.recount formed found newCount (fitsAll metadata.shardId)
  | contractHotspotToShard sectorX sectorZ target currentTick =>
    have fitsIt : (manager.step
      (.contractHotspotToShard sectorX sectorZ target currentTick)).assigned account target <
        2 ^ 32 := fits target
    rcases manager.step_contractHotspotToShard sectorX sectorZ target currentTick with
      same | ⟨there, isMoved⟩
    · rw [same]
      exact kept
    rw [isMoved] at fitsIt ⊢
    exact kept.moved formed there fitsIt
  | mergeWildernessToBackground sectorX sectorZ currentTick =>
    have fitsIt : (manager.step
      (.mergeWildernessToBackground sectorX sectorZ currentTick)).assigned account
        manager.backgroundShardId < 2 ^ 32 := fits manager.backgroundShardId
    rw [step_mergeWildernessToBackground] at fitsIt ⊢
    exact kept.moved formed formed.background fitsIt
  | evaluateRebalance currentTick order =>
    exact kept.evaluateRebalance formed currentTick assumed.1 fits.1 fits.2

theorem fits_entities (now : manager.EntitiesFit) (later : (manager.step call).EntitiesFit) :
    Fits .entities manager call := by
  have fits : ∀ shardId, (manager.step call).assigned .entities shardId < 2 ^ 32 :=
    fun shardId => lt_of_le_of_lt (Ledger.owned_le_total shardId) later
  cases call with
  | evaluateRebalance currentTick order =>
    refine ⟨?_, fits⟩
    intro shardId
    apply lt_of_le_of_lt (Ledger.owned_le_total shardId)
    exact lt_of_le_of_lt (le_of_eq total_mergeAll) now
  | _ => exact fits

theorem Kept.counted (kept : manager.Kept account) : manager.Counted account := by
  intro shardId metrics held
  rw [shardMetrics] at held
  split at held
  · have balanced := kept shardId
    rw [ShardAccount.book, held] at balanced
    exact balanced
  cases held

theorem Formed.exists_shardMetrics (formed : manager.Formed) {shardId : UInt32}
    (there : shardId.toNat < manager.shardCount) :
    ∃ metrics, manager.shardMetrics shardId = some metrics := by
  rw [shardMetrics, if_pos there]
  exact ⟨_, getElem?_eq_getElem (formed.inside there)⟩

theorem Formed.isPlaced (formed : manager.Formed) : manager.Placed := by
  intro sector metadata held
  obtain ⟨metrics, isMetrics⟩ := formed.exists_shardMetrics (formed.placed sector metadata held)
  rw [isMetrics]
  rfl

theorem recount_same (kept : manager.Kept .entities) {sector : Int32 × Int32}
    {metadata : SectorMetadata} (found : manager.sectors.lookup sector = some metadata) :
    manager.recount sector metadata metadata.entityCount = manager := by
  have has := Ledger.weight_le_owned SectorMetadata.shardId
    (fun metadata => (ShardAccount.entities.weight metadata).toNat) found
  rw [← kept metadata.shardId, ShardAccount.book] at has
  have sameShards : manager.shards.modify metadata.shardId.toNat
      (recounting metadata.entityCount metadata.entityCount) = manager.shards := by
    apply ext_getElem?
    intro index
    by_cases isIts : metadata.shardId.toNat = index
    · rw [isIts, getElem?_modify_eq]
      rw [isIts] at has
      rcases held : manager.shards[index]? with _ | metrics
      · rfl
      rw [held] at has
      have enough : metadata.entityCount.toNat ≤ metrics.totalEntities.toNat := has
      have fits := metrics.totalEntities.toNat_lt
      have sameTotal : saturatingAdd32
          (saturatingSub32 metrics.totalEntities metadata.entityCount) metadata.entityCount =
            metrics.totalEntities := by
        rw [← UInt32.toNat_inj, toNat_saturatingAdd32, toNat_saturatingSub32]
        omega
      change some (recounting _ _ metrics) = some metrics
      rw [recounting, sameTotal]
    exact getElem?_modify_ne _ _ isIts
  rw [recount, sameShards, FiniteMap.insert_of_lookup found]

theorem settles (formed : manager.Formed) (kept : manager.Kept .entities)
    (assumed : manager.Assumed call) : manager.Settles call := by
  cases call with
  | evaluateRebalance currentTick order =>
    intro ordered
    have visited : ∀ sector metadata, manager.sectors.lookup sector = some metadata →
        sector ∈ order := fun sector metadata held =>
      (assumed.2 sector).mpr (Finmap.mem_iff.mpr ⟨metadata, held⟩)
    exact (calm_evaluateRebalance formed ordered currentTick visited).settled
  | updateSectorEntityCount sectorX sectorZ newCount =>
    rintro metadata found rfl
    rw [step_updateSectorEntityCount, found]
    exact recount_same kept found
  | _ => trivial

variable (count : Nat)

def newShards : List ShardMetrics :=
  (List.range maxWorkerShards).map fun index =>
    ShardMetrics.new (if index < count then UInt32.ofNat index else 0)

theorem getElem?_newShards {count index : Nat} {metrics : ShardMetrics}
    (held : (newShards count)[index]? = some metrics) :
    index < maxWorkerShards ∧
      metrics = ShardMetrics.new (if index < count then UInt32.ofNat index else 0) := by
  rw [newShards, getElem?_map, map_eq_some_iff] at held
  obtain ⟨number, isNumber, rfl⟩ := held
  obtain ⟨inside, rfl⟩ := List.getElem?_eq_some_iff.mp isNumber
  rw [getElem_range]
  exact ⟨inside, rfl⟩

theorem book_newShards (account : ShardAccount) (count : Nat) (who : UInt32) :
    account.book (newShards count) who = 0 := by
  rw [ShardAccount.book]
  rcases held : (newShards count)[who.toNat]? with _ | metrics
  · rfl
  obtain ⟨-, rfl⟩ := getElem?_newShards held
  cases account with
  | _ => rfl

theorem new_eq_ok {numShards : Nat} {start : AdaptiveShardManager}
    (created : new numShards = .ok start) :
    start.Formed ∧ (∀ account, start.Kept account) ∧ start.sectors = ∅ := by
  rw [new] at created
  split at created
  · cases created
  rename_i positive
  rw [Except.ok.injEq] at created
  subst created
  refine ⟨⟨?_, min_le_right _ _, ?_, ?_, ?_⟩, ?_, rfl⟩
  · rw [length_map, length_range]
  · intro index metrics below held
    obtain ⟨inside, rfl⟩ := getElem?_newShards held
    have small : index < 2 ^ 32 := lt_trans inside (by decide)
    rw [if_pos below]
    exact UInt32.toNat_ofNat_of_lt' small
  · exact pos_of_ne_zero positive
  · intro sector metadata held
    cases held
  intro account who
  exact book_newShards account _ who

theorem formed_kept_step (now : AdaptiveShardManager) (call : ShardCall)
    (holds : now.Formed ∧ now.Kept account) (met : now.Assumed call ∧ Fits account now call) :
    (now.step call).Formed ∧ (now.step call).Kept account :=
  ⟨holds.1.step call, holds.2.step holds.1 met.1 met.2⟩

/-- While all entities fit in 32 bits, those of every shard are counted, the sectors are on
existing shards and rebalancings settle; the sectors of every shard are counted while their
numbers fit as well. -/
theorem accounts_kept {numShards : Nat} {start : AdaptiveShardManager}
    (created : new numShards = .ok start) {calls : List ShardCall}
    (assumed : EachStep step Assumed start calls)
    (entitiesFit : Throughout step EntitiesFit start calls) :
    Throughout step (fun now => now.Counted .entities ∧ now.Placed) start calls ∧
      (EachStep step (Fits .sectors) start calls →
        Throughout step (fun now => now.Counted .sectors) start calls) ∧
      EachStep step Settles start calls := by
  obtain ⟨formed, kept, -⟩ := new_eq_ok created
  have fits : EachStep step (Fits .entities) start calls :=
    entitiesFit.eachStep.imp fun _ _ both => fits_entities both.1 both.2
  refine ⟨?_, ?_, ?_⟩
  · have entities := throughout_of_eachStep formed_kept_step ⟨formed, kept .entities⟩
      (assumed.and fits)
    exact entities.imp fun _ now => ⟨now.2.counted, now.1.isPlaced⟩
  · intro sectorsFit
    have sectors := throughout_of_eachStep formed_kept_step ⟨formed, kept .sectors⟩
      (assumed.and sectorsFit)
    exact sectors.imp fun _ now => now.2.counted
  exact eachStep_of_invariant formed_kept_step
    (fun _ _ now met => settles now.1 now.2 met.1) ⟨formed, kept .entities⟩ (assumed.and fits)

/-- Two shards, and a sector that becomes a hotspot. -/
def capital : List ShardCall :=
  [ .assignSector 0 0 0, .updateSectorEntityCount 0 0 600, .evaluateRebalance 1 [(0, 0)],
    .evaluateRebalance 2 [(0, 0)] ]

def twoShards : AdaptiveShardManager where
  shards := newShards 2
  shardCount := 2
  sectors := ∅
  hotspotThreshold := defaultHotspotEntityThreshold
  wildernessThreshold := defaultWildernessEntityThreshold
  backgroundShardId := 0

theorem order_capital {now : AdaptiveShardManager} (keys : now.sectors.keys = {(0, 0)})
    (sector : Int32 × Int32) : sector ∈ [((0 : Int32), (0 : Int32))] ↔ sector ∈ now.sectors := by
  rw [← Finmap.mem_keys, keys, mem_singleton, Finset.mem_singleton]

theorem accounts_kept_capital :
    Throughout step (fun now => now.Counted .entities ∧ now.Placed) twoShards capital ∧
      (EachStep step (Fits .sectors) twoShards capital →
        Throughout step (fun now => now.Counted .sectors) twoShards capital) ∧
      EachStep step Settles twoShards capital := by
  have created : new 2 = .ok twoShards := rfl
  apply accounts_kept created
  · exact ⟨trivial, trivial, ⟨by decide, order_capital (by decide +kernel)⟩,
      ⟨by decide, order_capital (by decide +kernel)⟩, trivial⟩
  exact ⟨by decide +kernel, by decide +kernel, by decide +kernel, by decide +kernel,
    throughout_nil.mpr (by decide +kernel)⟩

def row : List ShardCall :=
  (List.range count).map fun index => .assignSector (Int32.ofNat index) 0 0

theorem total_assignSector (manager : AdaptiveShardManager) (sectorX sectorZ : Int32)
    (shardId : UInt32) :
    FiniteMap.total (fun metadata => metadata.entityCount.toNat)
        (manager.step (.assignSector sectorX sectorZ shardId)).sectors =
      FiniteMap.total (fun metadata => metadata.entityCount.toNat) manager.sectors := by
  rcases manager.step_assignSector sectorX sectorZ shardId with
    same | ⟨-, ⟨metadata, found, -, isMoved⟩ | ⟨absent, isNew⟩⟩
  · rw [same]
  · have exchanged := FiniteMap.total_insert
      (fun metadata : SectorMetadata => metadata.entityCount.toNat) found
      { metadata with shardId := shardId }
    rw [isMoved]
    exact add_right_cancel exchanged
  rw [isNew, register, FiniteMap.total_insert_of_notMem _ absent]
  exact zero_add _

theorem isAssign_row : ∀ call ∈ row count, ∃ sectorX, call = .assignSector sectorX 0 0 := by
  intro call there
  obtain ⟨index, -, rfl⟩ := mem_map.mp there
  exact ⟨_, rfl⟩

theorem row_succ : row (count + 1) = row count ++ [.assignSector (Int32.ofNat count) 0 0] := by
  rw [row, range_succ, map_append, row, map_singleton]

theorem run_row {start : AdaptiveShardManager} (formed : start.Formed)
    (empty : start.sectors = ∅) {count : Nat} (few : count ≤ 2 ^ 32) :
    (run step start (row count)).Formed ∧ (∀ sector ∈ (run step start (row count)).sectors,
        ∃ index < count, sector = (Int32.ofNat index, 0)) ∧
      (run step start (row count)).assigned .sectors 0 = count := by
  induction count with
  | zero =>
    refine ⟨formed, ?_, ?_⟩
    · intro sector there
      change sector ∈ start.sectors at there
      rw [empty] at there
      exact absurd there Finmap.notMem_empty
    change start.assigned .sectors 0 = 0
    rw [assigned, empty]
    rfl
  | succ count ih =>
    obtain ⟨nowFormed, inside, number⟩ := ih (le_of_succ_le few)
    rw [row_succ, run_append]
    generalize run step start (row count) = now at nowFormed inside number
    have absent : (Int32.ofNat count, (0 : Int32)) ∉ now.sectors := by
      intro there
      obtain ⟨index, below, same⟩ := inside _ there
      have sameBits := congrArg (fun sector : Int32 × Int32 => sector.1.toBitVec.toNat) same
      simp only [Int32.toBitVec_ofNat', BitVec.toNat_ofNat] at sameBits
      omega
    have isNew : now.step (.assignSector (Int32.ofNat count) 0 0) =
        now.register (Int32.ofNat count, 0) 0 := by
      have there : ¬ now.shardCount ≤ (0 : UInt32).toNat :=
        Nat.not_le_of_lt (Nat.zero_lt_of_lt nowFormed.background)
      rw [AdaptiveShardManager.step, assignSector, if_neg there, Finmap.lookup_eq_none.mpr absent]
      rfl
    rw [run_cons, run_nil, isNew]
    refine ⟨nowFormed.register (Nat.zero_lt_of_lt nowFormed.background), ?_, ?_⟩
    · intro sector there
      rw [register, Finmap.mem_insert] at there
      rcases there with rfl | before
      · exact ⟨count, lt_succ_self count, rfl⟩
      obtain ⟨index, below, same⟩ := inside sector before
      exact ⟨index, lt_succ_of_lt below, same⟩
    rw [assigned, Ledger.owned, register, FiniteMap.total_insert_of_notMem _ absent, add_comm]
    exact congrArg (· + 1) number

/-- The number of sectors stays at the largest one that there is. -/
theorem not_counted_row :
    ¬ ∀ (numShards : Nat) (start : AdaptiveShardManager) (calls : List ShardCall),
      new numShards = .ok start → EachStep step Assumed start calls →
        Throughout step EntitiesFit start calls → Throughout step
              (fun now => now.Counted .sectors ∧ now.Counted .entities ∧ now.Placed) start calls ∧
            EachStep step Settles start calls := by
  intro always
  rcases created : new 1 with error | start
  · cases created
  obtain ⟨formed, -, empty⟩ := new_eq_ok created
  obtain ⟨count, isCount⟩ : ∃ count, count = 2 ^ 32 := ⟨_, rfl⟩
  have assigns := @eachStep_of_forall _ _ step _ _ (isAssign_row count) start
  have assumed : EachStep step Assumed start (row count) := by
    apply assigns.imp
    rintro _ _ ⟨_, rfl⟩
    trivial
  have preserved : ∀ (now : AdaptiveShardManager) (call : ShardCall), now.EntitiesFit →
      (∃ sectorX, call = .assignSector sectorX 0 0) → (now.step call).EntitiesFit := by
    rintro now _ fits ⟨sectorX, rfl⟩
    rw [EntitiesFit, total_assignSector]
    exact fits
  have fits : Throughout step EntitiesFit start (row count) := by
    apply throughout_of_eachStep preserved _ assigns
    rw [EntitiesFit, empty]
    exact Nat.two_pow_pos 32
  have counted := ((always 1 start (row count) created assumed fits).1.run).1
  obtain ⟨lastFormed, -, number⟩ := run_row formed empty (le_of_eq isCount)
  have there : (0 : UInt32).toNat < (run step start (row count)).shardCount :=
    Nat.zero_lt_of_lt lastFormed.background
  obtain ⟨metrics, held⟩ := lastFormed.exists_shardMetrics there
  have isCounted := counted 0 metrics held
  have bound := (ShardAccount.sectors.counter metrics).toNat_lt
  omega

end AdaptiveShardManager

end Eidolon.World
