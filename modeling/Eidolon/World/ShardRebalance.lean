import Eidolon.Library.Ledger
import Eidolon.Library.Run
import Eidolon.World.AdaptiveShard

/-!
# Accounts of shards

The sectors and the entities of each shard are counted as sectors are registered, updated and
moved. Both counts are right while the numbers they stand for fit in 32 bits.
-/

namespace Eidolon.World

open Library List Option

inductive ShardAccount where
  | sectors
  | entities

namespace ShardAccount

def counter : ShardAccount → ShardMetrics → UInt32
  | .sectors => ShardMetrics.activeSectors
  | .entities => ShardMetrics.totalEntities

def weight : ShardAccount → SectorMetadata → UInt32
  | .sectors => fun _ => 1
  | .entities => SectorMetadata.entityCount

/-- The counter of every shard; it is 0 where there is none. -/
def book (account : ShardAccount) (shards : List ShardMetrics) (shardId : UInt32) : Nat :=
  (shards[shardId.toNat]?).elim 0 fun metrics => (account.counter metrics).toNat

variable (account : ShardAccount)

theorem counter_losing (metrics : ShardMetrics) (metadata : SectorMetadata) :
    (account.counter (metrics.losing metadata.entityCount)).toNat =
      (account.counter metrics).toNat - (account.weight metadata).toNat := by
  cases account with
  | _ => exact toNat_saturatingSub32 _ _

theorem counter_gaining (metrics : ShardMetrics) (metadata : SectorMetadata) :
    (account.counter (metrics.gaining metadata.entityCount)).toNat =
      min ((account.counter metrics).toNat + (account.weight metadata).toNat) (2 ^ 32 - 1) := by
  cases account with
  | _ => exact toNat_saturatingAdd32 _ _

theorem book_modify {shards : List ShardMetrics} {shardId : UInt32}
    (inside : shardId.toNat < shards.length) (change : ShardMetrics → ShardMetrics)
    (changed : Nat → Nat)
    (counted : ∀ metrics, (account.counter (change metrics)).toNat =
      changed (account.counter metrics).toNat) (who : UInt32) :
    account.book (shards.modify shardId.toNat change) who =
      if shardId = who then changed (account.book shards who) else account.book shards who := by
  rw [book, book]
  by_cases same : shardId = who
  · rw [if_pos same, ← same, getElem?_modify_eq, getElem?_eq_getElem inside]
    exact counted _
  rw [if_neg same, getElem?_modify_ne]
  exact fun sameIndex => same (UInt32.toNat_inj.mp sameIndex)

end ShardAccount

namespace AdaptiveShardManager

variable (manager : AdaptiveShardManager)

/-- What a shard should have in an account. -/
def assigned (account : ShardAccount) (shardId : UInt32) : Nat :=
  Ledger.owned SectorMetadata.shardId (fun metadata => (account.weight metadata).toNat)
    manager.sectors shardId

/-- The counters of an account are right. -/
def Kept (account : ShardAccount) : Prop :=
  Ledger.Balanced SectorMetadata.shardId (fun metadata => (account.weight metadata).toNat)
    manager.sectors (account.book manager.shards)

structure Formed (manager : AdaptiveShardManager) : Prop where
  sized : manager.shards.length = maxWorkerShards
  few : manager.shardCount ≤ maxWorkerShards
  numbered : ∀ index metrics, index < manager.shardCount →
    manager.shards[index]? = some metrics → metrics.shardId.toNat = index
  background : manager.backgroundShardId.toNat < manager.shardCount
  placed : ∀ sector metadata, manager.sectors.lookup sector = some metadata →
    metadata.shardId.toNat < manager.shardCount

variable {manager : AdaptiveShardManager} {account : ShardAccount}

theorem Formed.inside (formed : manager.Formed) {shardId : UInt32}
    (existing : shardId.toNat < manager.shardCount) : shardId.toNat < manager.shards.length := by
  rw [formed.sized]
  exact Nat.lt_of_lt_of_le existing formed.few

def relocate (manager : AdaptiveShardManager) (sector : Int32 × Int32)
    (metadata updated : SectorMetadata) : AdaptiveShardManager :=
  { manager with
    sectors := manager.sectors.insert sector updated
    shards := moveMetrics manager.shards metadata.shardId updated.shardId metadata.entityCount }

section Relocation

variable {sector : Int32 × Int32} {metadata updated : SectorMetadata}

theorem numbered_modify {shards : List ShardMetrics} {count : Nat}
    (numbered : ∀ index metrics, index < count → shards[index]? = some metrics →
      metrics.shardId.toNat = index) (change : ShardMetrics → ShardMetrics)
    (same : ∀ metrics, (change metrics).shardId = metrics.shardId) (written : Nat) :
    ∀ index metrics, index < count → (shards.modify written change)[index]? = some metrics →
      metrics.shardId.toNat = index := by
  intro index metrics below held
  by_cases isWritten : written = index
  · rw [isWritten, getElem?_modify_eq] at held
    obtain ⟨old, before, rfl⟩ := Option.map_eq_some_iff.mp held
    rw [same]
    exact numbered index old below before
  rw [getElem?_modify_ne _ _ isWritten] at held
  exact numbered index metrics below held

theorem placed_insert (placed : ∀ sector metadata, manager.sectors.lookup sector = some metadata →
      metadata.shardId.toNat < manager.shardCount)
    (there : updated.shardId.toNat < manager.shardCount) :
    ∀ other metadata, (manager.sectors.insert sector updated).lookup other = some metadata →
      metadata.shardId.toNat < manager.shardCount := by
  intro other metadata held
  by_cases same : other = sector
  · rw [same, Finmap.lookup_insert, some.injEq] at held
    rw [← held]
    exact there
  rw [Finmap.lookup_insert_of_ne _ same] at held
  exact placed other metadata held

theorem Formed.relocate (formed : manager.Formed)
    (there : updated.shardId.toNat < manager.shardCount) :
    (manager.relocate sector metadata updated).Formed := by
  refine ⟨?_, formed.few, ?_, formed.background, placed_insert formed.placed there⟩
  · rw [AdaptiveShardManager.relocate, moveMetrics, length_modify, length_modify, formed.sized]
  have lost := numbered_modify formed.numbered
    (fun metrics => metrics.losing metadata.entityCount) (fun _ => rfl)
    metadata.shardId.toNat
  exact numbered_modify lost (fun metrics => metrics.gaining metadata.entityCount)
    (fun _ => rfl) updated.shardId.toNat

theorem Kept.relocate (kept : manager.Kept account) (formed : manager.Formed)
    (found : manager.sectors.lookup sector = some metadata)
    (there : updated.shardId.toNat < manager.shardCount)
    (moves : metadata.shardId ≠ updated.shardId)
    (sameCount : updated.entityCount = metadata.entityCount)
    (fits : (manager.relocate sector metadata updated).assigned account updated.shardId < 2 ^ 32) :
    (manager.relocate sector metadata updated).Kept account := by
  have sameWeight : account.weight updated = account.weight metadata := by
    cases account with
    | sectors => rfl
    | entities => exact sameCount
  have fromInside := formed.inside (formed.placed sector metadata found)
  have toInside : updated.shardId.toNat <
      (manager.shards.modify metadata.shardId.toNat fun metrics =>
        metrics.losing metadata.entityCount).length := by
    rw [length_modify]
    exact formed.inside there
  have lost := account.book_modify fromInside (fun metrics => metrics.losing metadata.entityCount)
    (fun number => number - (account.weight metadata).toNat)
    fun metrics => account.counter_losing metrics metadata
  have gained := account.book_modify toInside (fun metrics => metrics.gaining metadata.entityCount)
    (fun number => min (number + (account.weight metadata).toNat) (2 ^ 32 - 1))
    fun metrics => account.counter_gaining metrics metadata
  apply Ledger.Balanced.exchange kept found updated
  intro who
  rw [AdaptiveShardManager.relocate, moveMetrics, gained, lost]
  by_cases isTarget : updated.shardId = who
  · have notSource : metadata.shardId ≠ who := by
      rw [← isTarget]
      exact moves
    rw [if_pos isTarget, if_pos isTarget, if_neg notSource, if_neg notSource, sameWeight]
    have exchanged := Ledger.owned_insert SectorMetadata.shardId
      (fun metadata => (account.weight metadata).toNat) found updated who
    rw [if_neg notSource, if_pos isTarget, sameWeight, Nat.add_zero, ← kept who] at exchanged
    rw [assigned, isTarget, AdaptiveShardManager.relocate, exchanged] at fits
    omega
  rw [if_neg isTarget, if_neg isTarget, Nat.add_zero]
  by_cases isSource : metadata.shardId = who
  · rw [if_pos isSource, if_pos isSource]
  rw [if_neg isSource, if_neg isSource, Nat.sub_zero]

end Relocation

section Registration

variable {sector : Int32 × Int32} {metadata updated : SectorMetadata}

def register (manager : AdaptiveShardManager) (sector : Int32 × Int32) (shardId : UInt32) :
    AdaptiveShardManager :=
  { manager with
    sectors := manager.sectors.insert sector
      { shardId := shardId, entityCount := 0, lastRebalancedTick := 0 }
    shards := manager.shards.modify shardId.toNat fun metrics => metrics.gaining 0 }

theorem Formed.register (formed : manager.Formed) {shardId : UInt32}
    (there : shardId.toNat < manager.shardCount) : (manager.register sector shardId).Formed := by
  refine ⟨?_, formed.few, ?_, formed.background, placed_insert formed.placed there⟩
  · rw [AdaptiveShardManager.register, length_modify, formed.sized]
  exact numbered_modify formed.numbered (fun metrics => metrics.gaining 0) (fun _ => rfl)
    shardId.toNat

theorem Kept.register (kept : manager.Kept account) (formed : manager.Formed)
    (absent : sector ∉ manager.sectors) {shardId : UInt32}
    (there : shardId.toNat < manager.shardCount)
    (fits : (manager.register sector shardId).assigned account shardId < 2 ^ 32) :
    (manager.register sector shardId).Kept account := by
  let registered : SectorMetadata :=
    { shardId := shardId, entityCount := 0, lastRebalancedTick := 0 }
  have gained := account.book_modify (formed.inside there) (fun metrics => metrics.gaining 0)
    (fun number => min (number + (account.weight registered).toNat) (2 ^ 32 - 1))
    fun metrics => account.counter_gaining metrics registered
  apply Ledger.Balanced.enter kept absent registered
  intro who
  rw [AdaptiveShardManager.register, gained]
  by_cases isIts : shardId = who
  · have isOwner : registered.shardId = who := isIts
    have entered : (manager.register sector shardId).assigned account shardId =
        (account.weight registered).toNat + manager.assigned account shardId := by
      rw [assigned, Ledger.owned, AdaptiveShardManager.register,
        FiniteMap.total_insert_of_notMem _ absent]
      exact congrArg (· + _) (if_pos rfl)
    rw [entered, isIts, assigned, ← kept who] at fits
    rw [if_pos isIts, if_pos isOwner]
    omega
  have notOwner : registered.shardId ≠ who := isIts
  rw [if_neg isIts, if_neg notOwner, Nat.add_zero]

def recounting (oldCount newCount : UInt32) (shard : ShardMetrics) : ShardMetrics :=
  { shard with
    totalEntities := saturatingAdd32 (saturatingSub32 shard.totalEntities oldCount) newCount }

def recount (manager : AdaptiveShardManager) (sector : Int32 × Int32) (metadata : SectorMetadata)
    (newCount : UInt32) : AdaptiveShardManager :=
  { manager with
    sectors := manager.sectors.insert sector { metadata with entityCount := newCount }
    shards := manager.shards.modify metadata.shardId.toNat
      (recounting metadata.entityCount newCount) }

theorem Formed.recount (formed : manager.Formed)
    (found : manager.sectors.lookup sector = some metadata) (newCount : UInt32) :
    (manager.recount sector metadata newCount).Formed := by
  have there := formed.placed sector metadata found
  refine ⟨?_, formed.few, ?_, formed.background, placed_insert formed.placed there⟩
  · rw [AdaptiveShardManager.recount, length_modify, formed.sized]
  exact numbered_modify formed.numbered (recounting metadata.entityCount newCount)
    (fun _ => rfl) metadata.shardId.toNat

theorem Kept.recount (kept : manager.Kept account) (formed : manager.Formed)
    (found : manager.sectors.lookup sector = some metadata) (newCount : UInt32)
    (fits : (manager.recount sector metadata newCount).assigned account metadata.shardId < 2 ^ 32) :
    (manager.recount sector metadata newCount).Kept account := by
  have inside := formed.inside (formed.placed sector metadata found)
  have has := Ledger.weight_le_owned SectorMetadata.shardId
    (fun metadata => (account.weight metadata).toNat) found
  rw [← kept metadata.shardId] at has
  have exchanged := Ledger.owned_insert SectorMetadata.shardId
    (fun metadata => (account.weight metadata).toNat) found
    { metadata with entityCount := newCount } metadata.shardId
  rw [if_pos rfl, if_pos rfl, ← kept metadata.shardId] at exchanged
  rw [assigned, AdaptiveShardManager.recount] at fits
  apply Ledger.Balanced.exchange kept found { metadata with entityCount := newCount }
  intro who
  cases account with
  | sectors =>
    have written := ShardAccount.sectors.book_modify inside
      (recounting metadata.entityCount newCount) id (fun _ => rfl) who
    rw [AdaptiveShardManager.recount, written, id, ite_self]
    by_cases isIts : metadata.shardId = who
    · rw [if_pos isIts, if_pos isIts, ← isIts]
      exact (Nat.sub_add_cancel has).symm
    rw [if_neg isIts, if_neg isIts]
    rfl
  | entities =>
    have written := ShardAccount.entities.book_modify inside
      (recounting metadata.entityCount newCount)
      (fun number => min (number - metadata.entityCount.toNat + newCount.toNat) (2 ^ 32 - 1))
      (by
        intro metrics
        rw [← toNat_saturatingSub32]
        exact toNat_saturatingAdd32 _ _) who
    rw [AdaptiveShardManager.recount, written]
    by_cases isIts : metadata.shardId = who
    · rw [if_pos isIts, if_pos isIts, if_pos isIts, ← isIts]
      simp only [ShardAccount.weight] at has exchanged fits ⊢
      omega
    rw [if_neg isIts, if_neg isIts, if_neg isIts]
    rfl

end Registration

end AdaptiveShardManager

end Eidolon.World

/-!
## Rebalancing of shards

The moves that a rebalancing is made of: sectors are merged into the background shard, and
others contracted to the shard with the fewest entities. Each keeps the accounts, as the
shards that they move to only gain.
-/

namespace Eidolon.World

open Library List Option

variable (metadata : SectorMetadata) (target : UInt32) (currentTick : UInt64)

def SectorMetadata.movedTo :
    SectorMetadata :=
  if metadata.shardId = target then metadata
  else { metadata with shardId := target, lastRebalancedTick := currentTick }

@[simp]
theorem SectorMetadata.movedTo_shardId :
    (metadata.movedTo target currentTick).shardId = target := by
  rw [movedTo]
  split
  · assumption
  rfl

@[simp]
theorem SectorMetadata.movedTo_entityCount :
    (metadata.movedTo target currentTick).entityCount = metadata.entityCount := by
  rw [movedTo]
  split <;> rfl

theorem SectorMetadata.movedTo_movedTo :
    (metadata.movedTo target currentTick).movedTo target currentTick =
      metadata.movedTo target currentTick := by
  rw [movedTo, if_pos (metadata.movedTo_shardId target currentTick)]

namespace AdaptiveShardManager

variable {manager : AdaptiveShardManager} {account : ShardAccount}

structure SameSettings (before after : AdaptiveShardManager) : Prop where
  count : after.shardCount = before.shardCount
  hotspot : after.hotspotThreshold = before.hotspotThreshold
  wilderness : after.wildernessThreshold = before.wildernessThreshold
  background : after.backgroundShardId = before.backgroundShardId

theorem SameSettings.trans {before between after : AdaptiveShardManager}
    (first : SameSettings before between) (second : SameSettings between after) :
    SameSettings before after where
  count := second.count.trans first.count
  hotspot := second.hotspot.trans first.hotspot
  wilderness := second.wilderness.trans first.wilderness
  background := second.background.trans first.background

/-- The manager after a registered sector was moved, if it has to. -/
def moved (manager : AdaptiveShardManager) (sector : Int32 × Int32) (target : UInt32)
    (currentTick : UInt64) : AdaptiveShardManager :=
  match manager.sectors.lookup sector with
  | none => manager
  | some metadata =>
    if metadata.shardId = target then manager
    else
      manager.relocate sector metadata
        { metadata with shardId := target, lastRebalancedTick := currentTick }

def orKept (manager : AdaptiveShardManager) :
    Except WorldError AdaptiveShardManager → AdaptiveShardManager
  | .ok changed => changed
  | .error _ => manager

theorem orKept_moveSector (manager : AdaptiveShardManager) (reason : RebalanceReason)
    (sector : Int32 × Int32) (target : UInt32) (currentTick : UInt64) :
    manager.orKept ((manager.moveSector reason sector.1 sector.2 target currentTick).map Prod.snd) =
      manager.moved sector target currentTick := by
  rw [moveSector, moved]
  rcases manager.sectors.lookup sector with _ | metadata
  · rfl
  dsimp only
  split <;> rfl

theorem applied_fst (manager : AdaptiveShardManager)
    (moved : Except WorldError (ShardRebalanceAction × AdaptiveShardManager)) :
    (manager.applied moved).1 = manager.orKept (moved.map Prod.snd) := by
  cases moved with
  | _ => rfl

section Move

variable {sector : Int32 × Int32} {target : UInt32} {currentTick : UInt64}

theorem moved_cases (manager : AdaptiveShardManager) (sector : Int32 × Int32) (target : UInt32)
    (currentTick : UInt64) :
    manager.moved sector target currentTick = manager ∨
      ∃ metadata, manager.sectors.lookup sector = some metadata ∧ metadata.shardId ≠ target ∧
        manager.moved sector target currentTick = manager.relocate sector metadata
            { metadata with shardId := target, lastRebalancedTick := currentTick } := by
  rw [moved]
  rcases found : manager.sectors.lookup sector with _ | metadata
  · exact .inl rfl
  by_cases same : metadata.shardId = target
  · exact .inl (if_pos same)
  exact .inr ⟨metadata, rfl, same, if_neg same⟩

theorem moved_settings (manager : AdaptiveShardManager) (sector : Int32 × Int32) (target : UInt32)
    (currentTick : UInt64) : SameSettings manager (manager.moved sector target currentTick) := by
  rcases manager.moved_cases sector target currentTick with same | ⟨metadata, -, -, isMoved⟩
  · rw [same]
    exact ⟨rfl, rfl, rfl, rfl⟩
  rw [isMoved]
  exact ⟨rfl, rfl, rfl, rfl⟩

theorem lookup_moved (other : Int32 × Int32) :
    (manager.moved sector target currentTick).sectors.lookup other =
      if other = sector then
        (manager.sectors.lookup other).map fun metadata => metadata.movedTo target currentTick
      else manager.sectors.lookup other := by
  rw [moved]
  by_cases same : other = sector
  · rw [if_pos same, same]
    rcases found : manager.sectors.lookup sector with _ | metadata
    · exact found
    rw [map_some, SectorMetadata.movedTo]
    dsimp only
    split
    · exact found
    exact Finmap.lookup_insert _
  rw [if_neg same]
  rcases found : manager.sectors.lookup sector with _ | metadata
  · rfl
  dsimp only
  split
  · rfl
  exact Finmap.lookup_insert_of_ne _ same

theorem Formed.moved (formed : manager.Formed) (there : target.toNat < manager.shardCount) :
    (manager.moved sector target currentTick).Formed := by
  rcases manager.moved_cases sector target currentTick with same | ⟨metadata, -, -, isMoved⟩
  · rw [same]
    exact formed
  rw [isMoved]
  exact formed.relocate there

theorem Kept.moved (kept : manager.Kept account) (formed : manager.Formed)
    (there : target.toNat < manager.shardCount)
    (fits : (manager.moved sector target currentTick).assigned account target < 2 ^ 32) :
    (manager.moved sector target currentTick).Kept account := by
  rcases manager.moved_cases sector target currentTick with
    same | ⟨metadata, found, moves, isMoved⟩
  · rw [same]
    exact kept
  rw [isMoved] at fits ⊢
  exact kept.relocate formed found there moves rfl fits

theorem assigned_le_moved {shardId : UInt32}
    (elsewhere : ∀ metadata, manager.sectors.lookup sector = some metadata →
      metadata.shardId = shardId → target = shardId) :
    manager.assigned account shardId ≤
      (manager.moved sector target currentTick).assigned account shardId := by
  rcases manager.moved_cases sector target currentTick with
    same | ⟨metadata, found, moves, isMoved⟩
  · rw [same]
  have exchanged := Ledger.owned_insert SectorMetadata.shardId
    (fun metadata => (account.weight metadata).toNat) found
    { metadata with shardId := target, lastRebalancedTick := currentTick } shardId
  have notFrom : metadata.shardId ≠ shardId := by
    intro isFrom
    exact moves (isFrom.trans (elsewhere metadata found isFrom).symm)
  rw [if_neg notFrom, Nat.add_zero] at exchanged
  rw [isMoved, assigned, assigned, relocate, exchanged]
  exact Nat.le_add_right _ _

theorem total_moved : FiniteMap.total (fun metadata => metadata.entityCount.toNat)
        (manager.moved sector target currentTick).sectors =
      FiniteMap.total (fun metadata => metadata.entityCount.toNat) manager.sectors := by
  rcases manager.moved_cases sector target currentTick with
    same | ⟨metadata, found, -, isMoved⟩
  · rw [same]
  have exchanged := FiniteMap.total_insert
    (fun metadata : SectorMetadata => metadata.entityCount.toNat) found
    { metadata with shardId := target, lastRebalancedTick := currentTick }
  rw [isMoved]
  exact Nat.add_right_cancel exchanged

end Move

variable (currentTick : UInt64)

def mergeAll (manager : AdaptiveShardManager) (sectors : List (Int32 × Int32)) :
    AdaptiveShardManager :=
  sectors.foldl (fun merged sector => merged.moved sector merged.backgroundShardId currentTick)
    manager

section Merges

variable {currentTick : UInt64} {sectors : List (Int32 × Int32)}

theorem mergeAll_settings : SameSettings manager (mergeAll currentTick manager sectors) := by
  induction sectors generalizing manager with
  | nil => exact ⟨rfl, rfl, rfl, rfl⟩
  | cons sector sectors ih =>
    exact (manager.moved_settings sector manager.backgroundShardId currentTick).trans ih

theorem lookup_mergeAll (other : Int32 × Int32) :
    (mergeAll currentTick manager sectors).sectors.lookup other =
      if other ∈ sectors then
        (manager.sectors.lookup other).map fun metadata =>
          metadata.movedTo manager.backgroundShardId currentTick
      else manager.sectors.lookup other := by
  induction sectors generalizing manager with
  | nil => rfl
  | cons sector sectors ih =>
    have background :=
      (manager.moved_settings sector manager.backgroundShardId currentTick).background
    rw [mergeAll, foldl_cons, ← mergeAll, ih, background, lookup_moved]
    by_cases same : other = sector
    · rw [if_pos (mem_cons.mpr (.inl same))]
      split
      · rw [Option.map_map]
        congr 1
        funext metadata
        exact metadata.movedTo_movedTo manager.backgroundShardId currentTick
      rfl
    rw [if_neg same]
    by_cases later : other ∈ sectors
    · rw [if_pos later, if_pos (mem_cons_of_mem sector later)]
    rw [if_neg later, if_neg]
    intro there
    exact (mem_cons.mp there).elim same later

theorem Formed.mergeAll (formed : manager.Formed) :
    (mergeAll currentTick manager sectors).Formed := by
  induction sectors generalizing manager with
  | nil => exact formed
  | cons sector sectors ih => exact ih (formed.moved formed.background)

theorem assigned_le_mergeAll (currentTick : UInt64) (manager : AdaptiveShardManager)
    (sectors : List (Int32 × Int32)) (account : ShardAccount) :
    manager.assigned account manager.backgroundShardId ≤
      (AdaptiveShardManager.mergeAll currentTick manager sectors).assigned account
        manager.backgroundShardId := by
  induction sectors generalizing manager with
  | nil => exact Nat.le_refl _
  | cons sector sectors ih =>
    have background :=
      (manager.moved_settings sector manager.backgroundShardId currentTick).background
    have later := ih (manager.moved sector manager.backgroundShardId currentTick)
    rw [background] at later
    exact Nat.le_trans (assigned_le_moved fun _ _ _ => rfl) later

theorem Kept.mergeAll (kept : manager.Kept account) (formed : manager.Formed)
    (fits : (AdaptiveShardManager.mergeAll currentTick manager sectors).assigned account
      manager.backgroundShardId < 2 ^ 32) :
    (AdaptiveShardManager.mergeAll currentTick manager sectors).Kept account := by
  induction sectors generalizing manager with
  | nil => exact kept
  | cons sector sectors ih =>
    have background :=
      (manager.moved_settings sector manager.backgroundShardId currentTick).background
    have grows := assigned_le_mergeAll currentTick
      (manager.moved sector manager.backgroundShardId currentTick) sectors account
    rw [background] at grows
    have keptNext := kept.moved formed formed.background (Nat.lt_of_le_of_lt grows fits)
    apply ih keptNext (formed.moved formed.background)
    rw [background]
    exact fits

theorem total_mergeAll : FiniteMap.total (fun metadata => metadata.entityCount.toNat)
        (AdaptiveShardManager.mergeAll currentTick manager sectors).sectors =
      FiniteMap.total (fun metadata => metadata.entityCount.toNat) manager.sectors := by
  induction sectors generalizing manager with
  | nil => rfl
  | cons sector sectors ih => exact ih.trans total_moved

end Merges

theorem leastLoaded_spec {target : UInt32} (least : manager.leastLoaded = some target) :
    target ≠ manager.backgroundShardId ∧
      ∃ metrics ∈ manager.shards.take manager.shardCount, metrics.shardId = target := by
  have found : ∀ (shards : List ShardMetrics) (best : Option UInt32 × UInt32), (shards.foldl
        (fun (best : Option UInt32 × UInt32) shard =>
          if shard.shardId ≠ manager.backgroundShardId ∧ shard.totalEntities < best.2 then
            (some shard.shardId, shard.totalEntities)
          else best) best).1 = some target →
        best.1 = some target ∨ (target ≠ manager.backgroundShardId ∧
          ∃ metrics ∈ shards, metrics.shardId = target) := by
    intro shards
    induction shards with
    | nil =>
      intro best isTarget
      exact .inl isTarget
    | cons shard shards ih =>
      intro best isTarget
      rcases ih _ isTarget with now | ⟨others, metrics, there, isIt⟩
      · by_cases better : shard.shardId ≠ manager.backgroundShardId ∧ shard.totalEntities < best.2
        · dsimp only at now
          rw [if_pos better, some.injEq] at now
          refine .inr ⟨?_, shard, mem_cons_self, now⟩
          rw [← now]
          exact better.1
        dsimp only at now
        rw [if_neg better] at now
        exact .inl now
      exact .inr ⟨others, metrics, mem_cons_of_mem shard there, isIt⟩
  rcases found _ _ least with nothing | others
  · cases nothing
  exact others

theorem Formed.leastLoaded_lt (formed : manager.Formed) {target : UInt32}
    (least : manager.leastLoaded = some target) : target.toNat < manager.shardCount := by
  obtain ⟨-, metrics, there, rfl⟩ := leastLoaded_spec least
  obtain ⟨index, inside, isMetrics⟩ := mem_take_iff_getElem.mp there
  have below : index < manager.shardCount := Nat.lt_of_lt_of_le inside (Nat.min_le_left _ _)
  have isIndex := formed.numbered index metrics below
    (by rw [← isMetrics]; exact getElem?_eq_getElem _)
  rw [isIndex]
  exact below

def contracted (manager : AdaptiveShardManager) (sector : Int32 × Int32) : AdaptiveShardManager :=
  match manager.leastLoaded with
  | none => manager
  | some target =>
    if manager.shardCount ≤ target.toNat then manager
    else manager.moved sector target currentTick

theorem contracted_cases (formed : manager.Formed) (currentTick : UInt64) (sector : Int32 × Int32) :
    (manager.leastLoaded = none ∧ contracted currentTick manager sector = manager) ∨
      ∃ target, target ≠ manager.backgroundShardId ∧ target.toNat < manager.shardCount ∧
        contracted currentTick manager sector = manager.moved sector target currentTick := by
  rw [contracted]
  rcases least : manager.leastLoaded with _ | target
  · exact .inl ⟨rfl, rfl⟩
  have below := formed.leastLoaded_lt least
  exact .inr ⟨target, (leastLoaded_spec least).1, below, if_neg (Nat.not_le_of_lt below)⟩

def contractAll (manager : AdaptiveShardManager) (sectors : List (Int32 × Int32)) :
    AdaptiveShardManager :=
  sectors.foldl (contracted currentTick) manager

def OnBackground (manager : AdaptiveShardManager) (sectors : List (Int32 × Int32)) : Prop :=
  ∀ sector ∈ sectors, ∀ metadata, manager.sectors.lookup sector = some metadata →
    metadata.shardId = manager.backgroundShardId

section Contractions

variable {currentTick : UInt64} {sector : Int32 × Int32} {sectors : List (Int32 × Int32)}

theorem contracted_settings (formed : manager.Formed) (currentTick : UInt64)
    (sector : Int32 × Int32) : SameSettings manager (contracted currentTick manager sector) := by
  rcases contracted_cases formed currentTick sector with ⟨-, same⟩ | ⟨target, -, -, isMoved⟩
  · rw [same]
    exact ⟨rfl, rfl, rfl, rfl⟩
  rw [isMoved]
  exact manager.moved_settings sector target currentTick

theorem Formed.contracted (formed : manager.Formed) (currentTick : UInt64) (sector : Int32 × Int32) :
    (contracted currentTick manager sector).Formed := by
  rcases contracted_cases formed currentTick sector with ⟨-, same⟩ | ⟨target, -, there, isMoved⟩
  · rw [same]
    exact formed
  rw [isMoved]
  exact formed.moved there

theorem Formed.contractAll (formed : manager.Formed) :
    (contractAll currentTick manager sectors).Formed := by
  induction sectors generalizing manager with
  | nil => exact formed
  | cons sector sectors ih => exact ih (formed.contracted currentTick sector)

theorem lookup_contracted (formed : manager.Formed) (currentTick : UInt64) {other : Int32 × Int32}
    (different : other ≠ sector) :
    (AdaptiveShardManager.contracted currentTick manager sector).sectors.lookup other =
      manager.sectors.lookup other := by
  rcases contracted_cases formed currentTick sector with ⟨-, same⟩ | ⟨target, -, -, isMoved⟩
  · rw [same]
  rw [isMoved, lookup_moved, if_neg different]

theorem OnBackground.contracted (onBackground : manager.OnBackground sectors)
    (formed : manager.Formed) (notLater : sector ∉ sectors) (currentTick : UInt64) :
    (AdaptiveShardManager.contracted currentTick manager sector).OnBackground sectors := by
  intro other there metadata held
  have different : other ≠ sector := by
    rintro rfl
    exact notLater there
  rw [lookup_contracted formed currentTick different] at held
  rw [(contracted_settings formed currentTick sector).background]
  exact onBackground other there metadata held

theorem assigned_le_contracted (formed : manager.Formed) (currentTick : UInt64)
    (account : ShardAccount)
    (onBackground : ∀ metadata, manager.sectors.lookup sector = some metadata →
      metadata.shardId = manager.backgroundShardId) {shardId : UInt32}
    (others : shardId ≠ manager.backgroundShardId) :
    manager.assigned account shardId ≤
      (AdaptiveShardManager.contracted currentTick manager sector).assigned account shardId := by
  rcases contracted_cases formed currentTick sector with ⟨-, same⟩ | ⟨target, -, -, isMoved⟩
  · rw [same]
  rw [isMoved]
  apply assigned_le_moved
  intro metadata held isOn
  exact absurd (isOn.symm.trans (onBackground metadata held)) others

theorem assigned_le_contractAll (formed : manager.Formed) (currentTick : UInt64)
    (account : ShardAccount)
    (distinct : sectors.Nodup) (onBackground : manager.OnBackground sectors) {shardId : UInt32}
    (others : shardId ≠ manager.backgroundShardId) :
    manager.assigned account shardId ≤
      (AdaptiveShardManager.contractAll currentTick manager sectors).assigned account
        shardId := by
  induction sectors generalizing manager with
  | nil => exact Nat.le_refl _
  | cons sector sectors ih =>
    obtain ⟨notLater, distinctLater⟩ := nodup_cons.mp distinct
    have now := assigned_le_contracted formed currentTick account
      (onBackground sector mem_cons_self) others
    have rest : manager.OnBackground sectors := fun other there =>
      onBackground other (mem_cons_of_mem sector there)
    have background := (contracted_settings formed currentTick sector).background
    have later := ih (formed.contracted currentTick sector) distinctLater
      (rest.contracted formed notLater currentTick) (background ▸ others)
    exact Nat.le_trans now later

theorem Kept.contractAll (kept : manager.Kept account) (formed : manager.Formed)
    (distinct : sectors.Nodup) (onBackground : manager.OnBackground sectors)
    (fits : ∀ shardId ≠ manager.backgroundShardId,
      (AdaptiveShardManager.contractAll currentTick manager sectors).assigned account shardId <
        2 ^ 32) :
    (AdaptiveShardManager.contractAll currentTick manager sectors).Kept account := by
  induction sectors generalizing manager with
  | nil => exact kept
  | cons sector sectors ih =>
    obtain ⟨notLater, distinctLater⟩ := nodup_cons.mp distinct
    have rest : manager.OnBackground sectors := fun other there =>
      onBackground other (mem_cons_of_mem sector there)
    have formedNext := formed.contracted currentTick sector
    have restNext := rest.contracted formed notLater currentTick
    have background := (contracted_settings formed currentTick sector).background
    have keptNext : (contracted currentTick manager sector).Kept account := by
      rcases contracted_cases formed currentTick sector with
        ⟨-, same⟩ | ⟨target, others, there, isMoved⟩
      · rw [same]
        exact kept
      have grows := assigned_le_contractAll formedNext currentTick account distinctLater
        restNext (background ▸ others)
      rw [isMoved] at grows ⊢
      refine kept.moved formed there (Nat.lt_of_le_of_lt grows ?_)
      rw [← isMoved]
      exact fits target others
    exact ih keptNext formedNext distinctLater restNext (background ▸ fits)

end Contractions

end AdaptiveShardManager

end Eidolon.World
