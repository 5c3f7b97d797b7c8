import Eidolon.Library.Tally
import Eidolon.Spatial.HotspotRefinement

/-!
# The spatial hash grid with its links

The buckets as the grid keeps them: a head for each, and links through the entities.  The
links go through the buckets of the grid without links.
-/

namespace Eidolon.Spatial

open Core Function Library List Option Spatial.SpatialHashGrid

def terminalIndex : UInt32 := 4294967295

structure LinkedGrid where
  maxEntities : Nat
  numBuckets : Nat
  activeCount : Nat
  entities : UInt32 → Option GridEntity
  links : Links UInt32
  bucketHeads : Nat → UInt32
  hotspots : LinkedManager

namespace LinkedGrid

def withCapacity (maxEntities requestedBuckets : Nat) : LinkedGrid where
  maxEntities := maxEntities
  numBuckets := max (Nat.nextPowerOfTwo requestedBuckets) 64
  activeCount := 0
  entities := fun _ => none
  links := { next := fun _ => terminalIndex, prev := fun _ => terminalIndex }
  bucketHeads := fun _ => terminalIndex
  hotspots := LinkedManager.new maxEntities 64

variable (grid : LinkedGrid) (entityId : UInt32)

def getPosition : Option Vec3Fix :=
  (grid.entities entityId).map (·.position)

def bucketOf (key : UInt64) : Nat :=
  key.toNat % grid.numBuckets

def setEntity (entity : Option GridEntity) :
    LinkedGrid :=
  { grid with entities := Function.update grid.entities entityId entity }

def attachToBucket (bucket : Nat) : LinkedGrid :=
  { grid with
    links := grid.links.prepend terminalIndex (grid.bucketHeads bucket) entityId
    bucketHeads := Function.update grid.bucketHeads bucket entityId }

def detachFromBucket (bucket : Nat) : LinkedGrid :=
  { grid with
    links := (grid.links.unlink terminalIndex entityId).reset terminalIndex entityId
    bucketHeads := Function.update grid.bucketHeads bucket
      (grid.links.headWithout terminalIndex (grid.bucketHeads bucket) entityId) }

def insert (grid : LinkedGrid) (entityId : UInt32) (position : Vec3Fix) :
    Option (Except SpatialError Unit × LinkedGrid) :=
  if grid.maxEntities ≤ entityId.toNat then
    some (.error (.invalidEntityId entityId), grid)
  else if (grid.entities entityId).isSome then
    some (.error (.entityAlreadyExists entityId), grid)
  else
    let cell := CellCoord.fromPosition position
    let key := cell.spatialKey
    let active := grid.setEntity entityId (some { position := position, cell := cell, key := key })
    let attached := active.attachToBucket entityId (grid.bucketOf key)
    (grid.hotspots.insert entityId position).map fun hotspots =>
      (.ok (), { attached with
        activeCount := grid.activeCount + 1
        hotspots := hotspots.2 })

def updatePosition (grid : LinkedGrid) (entityId : UInt32) (newPosition : Vec3Fix) :
    Option (Except SpatialError Bool × LinkedGrid) :=
  match grid.entities entityId with
  | none => some (.error (.entityNotFound entityId), grid)
  | some entity =>
    if grid.maxEntities ≤ entityId.toNat then
      some (.error (.entityNotFound entityId), grid)
    else
      let newCell := CellCoord.fromPosition newPosition
      (grid.hotspots.updatePosition entityId newPosition).map fun hotspots =>
        let moved := { grid.setEntity entityId
          (some { entity with position := newPosition }) with hotspots := hotspots.2 }
        if newCell = entity.cell then
          (.ok false, moved)
        else
          let newKey := newCell.spatialKey
          let detached := moved.detachFromBucket entityId (grid.bucketOf entity.key)
          let recorded := detached.setEntity entityId
            (some { position := newPosition, cell := newCell, key := newKey })
          (.ok true, recorded.attachToBucket entityId (grid.bucketOf newKey))

def remove (grid : LinkedGrid) (entityId : UInt32) :
    Option (Except SpatialError Unit × LinkedGrid) :=
  match grid.entities entityId with
  | none => some (.error (.entityNotFound entityId), grid)
  | some entity =>
    if grid.maxEntities ≤ entityId.toNat then
      some (.error (.entityNotFound entityId), grid)
    else
      (grid.hotspots.remove entityId).map fun hotspots =>
        let detached := grid.detachFromBucket entityId (grid.bucketOf entity.key)
        (.ok (), { detached.setEntity entityId none with
          activeCount := grid.activeCount - 1
          hotspots := hotspots.2 })

def cellEntityCount (cell : CellCoord) : Option Nat :=
  let key := cell.spatialKey
  Links.forEach (fun _ => grid.links.next) terminalIndex (fun count entityId =>
      if (grid.entities entityId).any fun entity => decide (entity.key = key) then count + 1
      else count)
    (grid.maxEntities + 1) (grid.bucketHeads (grid.bucketOf key)) 0

def errorOf {Value : Type} : Except SpatialError Value → Option SpatialError
  | .ok _ => none
  | .error error => some error

def attempt (grid : LinkedGrid) : GridCall → Option (Option SpatialError × LinkedGrid)
  | .insert entityId position =>
    (grid.insert entityId position).map fun result => (errorOf result.1, result.2)
  | .updatePosition entityId newPosition =>
    (grid.updatePosition entityId newPosition).map fun result => (errorOf result.1, result.2)
  | .remove entityId => (grid.remove entityId).map fun result => (errorOf result.1, result.2)

def step (call : GridCall) : Option LinkedGrid :=
  (grid.attempt call).map (·.2)

end LinkedGrid

end Eidolon.Spatial

/-!
## What the spatial hash grid represents

After any run the links of the grid go through buckets that hold each active entity once, in
the bucket of its cell's key.  Cells are counted by their keys, so that the count of a cell is
right unless an entity stands in another cell with the same key.
-/

namespace Eidolon.Spatial

open Core Function Library List Option Spatial.SpatialHashGrid

structure RefinesGrid (linked : LinkedGrid) (grid : SpatialHashGrid) : Prop where
  maxEntities : linked.maxEntities = grid.maxEntities
  numBuckets : linked.numBuckets = grid.numBuckets
  activeCount : linked.activeCount = grid.activeCount
  entities : linked.entities = grid.entities
  woven : linked.links.Woven terminalIndex linked.bucketHeads grid.buckets
  hotspots : Refines linked.hotspots grid.hotspots

namespace RefinesGrid

variable {linked : LinkedGrid} {grid : SpatialHashGrid} {entityId : UInt32}

theorem withCapacity (maxEntities requestedBuckets : Nat) :
    RefinesGrid (LinkedGrid.withCapacity maxEntities requestedBuckets)
      (SpatialHashGrid.withCapacity maxEntities requestedBuckets) where
  maxEntities := rfl
  numBuckets := rfl
  activeCount := rfl
  entities := rfl
  woven := Links.Woven.empty _ terminalIndex
  hotspots := Refines.new maxEntities 64

theorem bucketOf_eq (refines : RefinesGrid linked grid) (key : UInt64) :
    linked.bucketOf key = grid.bucketOf key := by
  rw [LinkedGrid.bucketOf, SpatialHashGrid.bucketOf, refines.numBuckets]

theorem getPosition_eq (refines : RefinesGrid linked grid) (entityId : UInt32) :
    linked.getPosition entityId = grid.getPosition entityId := by
  rw [LinkedGrid.getPosition, SpatialHashGrid.getPosition, refines.entities]

theorem free (sound : grid.Sound) (inactive : grid.entities entityId = none) (bucket : Nat) :
    entityId ∉ grid.buckets bucket := by
  rw [sound.bucketed.mem_iff, inactive]
  exact nofun

variable {entity : GridEntity}

theorem member (sound : grid.Sound) (isEntity : grid.entities entityId = some entity) :
    entityId ∈ grid.buckets (grid.bucketOf entity.key) := by
  rw [sound.bucketed.mem_iff, isEntity]
  rfl

theorem insert (refines : RefinesGrid linked grid) (sound : grid.Sound)
    (isNumber : entityId.toNat < grid.maxEntities → entityId ≠ terminalIndex) (position : Vec3Fix) :
    ∃ after, linked.insert entityId position = some ((grid.insert entityId position).1, after) ∧
      RefinesGrid after (grid.insert entityId position).2 := by
  rw [LinkedGrid.insert, SpatialHashGrid.insert, refines.maxEntities, refines.entities]
  by_cases fits : entityId.toNat < grid.maxEntities
  case neg =>
    rw [dif_neg fits, if_pos (Nat.le_of_not_lt fits)]
    exact ⟨linked, rfl, refines⟩
  rw [dif_pos fits, if_neg (Nat.not_le_of_lt fits)]
  by_cases active : (grid.entities entityId).isSome
  case pos =>
    rw [if_pos active, if_pos active]
    exact ⟨linked, rfl, refines⟩
  rw [if_neg active, if_neg active]
  have inactive : grid.entities entityId = none := Option.not_isSome_iff_eq_none.mp active
  obtain ⟨hotspots, done, further⟩ :=
    refines.hotspots.insert sound.hotspots (fun _ => isNumber fits) position
  simp only [done, map_some]
  refine ⟨_, rfl, refines.maxEntities, refines.numBuckets, ?_, ?_, ?_, further⟩
  · exact congrArg (· + 1) refines.activeCount
  · simp only [LinkedGrid.attachToBucket, LinkedGrid.setEntity, refines.entities]
    rfl
  have woven := refines.woven.prepend (isNumber fits) (free sound inactive)
    (grid.bucketOf (CellCoord.fromPosition position).spatialKey)
  simp only [LinkedGrid.attachToBucket, LinkedGrid.setEntity, refines.bucketOf_eq]
  exact woven

theorem detach (refines : RefinesGrid linked grid) (sound : grid.Sound)
    (isEntity : grid.entities entityId = some entity) :
    (linked.detachFromBucket entityId (grid.bucketOf entity.key)).links.Woven terminalIndex
      (linked.detachFromBucket entityId (grid.bucketOf entity.key)).bucketHeads
      (grid.detachFromBucket entityId (grid.bucketOf entity.key)).buckets :=
  (refines.woven.unlink (member sound isEntity)).reset
    (refines.woven.free_erase (member sound isEntity))

theorem updatePosition_of_entity (isEntity : grid.entities entityId = some entity)
    (fits : entityId.toNat < grid.maxEntities) (newPosition : Vec3Fix) :
    grid.updatePosition entityId newPosition =
      if CellCoord.fromPosition newPosition = entity.cell then
        (.ok false,
          { grid.setEntity entityId (some { entity with position := newPosition }) fits with
            hotspots := (grid.hotspots.updatePosition entityId newPosition).2 })
      else
        (.ok true, { ((grid.setEntity entityId (some {
                position := newPosition
                cell := CellCoord.fromPosition newPosition
                key := (CellCoord.fromPosition newPosition).spatialKey }) fits).detachFromBucket
                  entityId (grid.bucketOf entity.key)).attachToBucket entityId
                    (grid.bucketOf (CellCoord.fromPosition newPosition).spatialKey) with
            hotspots := (grid.hotspots.updatePosition entityId newPosition).2 }) := by
  rw [SpatialHashGrid.updatePosition]
  split
  · rename_i missing
    rw [isEntity] at missing
    cases missing
  rename_i other isOther
  rw [isEntity, some.injEq] at isOther
  subst isOther
  rfl

theorem updatePosition (refines : RefinesGrid linked grid) (sound : grid.Sound)
    (small : grid.hotspots.maxHotspots ≤ 65535) (entityId : UInt32) (newPosition : Vec3Fix) :
    ∃ after, linked.updatePosition entityId newPosition =
        some ((grid.updatePosition entityId newPosition).1, after) ∧
      RefinesGrid after (grid.updatePosition entityId newPosition).2 := by
  rcases isEntity : grid.entities entityId with _ | entity
  · have missing := updatePosition_of_none (getPosition_eq_none_iff.mpr isEntity) newPosition
    rw [LinkedGrid.updatePosition, refines.entities, isEntity, missing]
    exact ⟨linked, rfl, refines⟩
  have fits := grid.inside entityId (by rw [isEntity]; rfl)
  obtain ⟨hotspots, done, further⟩ :=
    refines.hotspots.updatePosition sound.hotspots small entityId newPosition
  rw [LinkedGrid.updatePosition, refines.entities, isEntity, updatePosition_of_entity isEntity fits]
  simp only [refines.maxEntities, if_neg (Nat.not_le_of_lt fits), done, map_some]
  by_cases sameCell : CellCoord.fromPosition newPosition = entity.cell
  · rw [if_pos sameCell, if_pos sameCell]
    refine ⟨_, rfl, refines.maxEntities, refines.numBuckets, refines.activeCount, ?_,
      refines.woven, further⟩
    simp only [LinkedGrid.setEntity, refines.entities]
    rfl
  rw [if_neg sameCell, if_neg sameCell]
  have detached := refines.detach sound isEntity
  have woven := detached.prepend ((refines.woven.threads _).ne_terminal (member sound isEntity))
    (refines.woven.free_erase (member sound isEntity))
    (grid.bucketOf (CellCoord.fromPosition newPosition).spatialKey)
  refine ⟨_, rfl, refines.maxEntities, refines.numBuckets, refines.activeCount, ?_, ?_, further⟩
  · simp only [LinkedGrid.attachToBucket, LinkedGrid.detachFromBucket,
      LinkedGrid.setEntity, refines.entities, update_idem]
    rfl
  simp only [refines.bucketOf_eq]
  exact woven

theorem remove_of_entity (isEntity : grid.entities entityId = some entity)
    (fits : entityId.toNat < grid.maxEntities) :
    grid.remove entityId = (.ok (), { (grid.setEntity entityId none fits).detachFromBucket entityId
          (grid.bucketOf entity.key) with
        activeCount := grid.activeCount - 1
        hotspots := (grid.hotspots.remove entityId).2 }) := by
  rw [SpatialHashGrid.remove]
  split
  · rename_i missing
    rw [isEntity] at missing
    cases missing
  rename_i other isOther
  rw [isEntity, some.injEq] at isOther
  subst isOther
  rfl

theorem remove (refines : RefinesGrid linked grid) (sound : grid.Sound)
    (small : grid.hotspots.maxHotspots ≤ 65535) (entityId : UInt32) :
    ∃ after, linked.remove entityId = some ((grid.remove entityId).1, after) ∧
      RefinesGrid after (grid.remove entityId).2 := by
  rcases isEntity : grid.entities entityId with _ | entity
  · have missing := remove_of_none (getPosition_eq_none_iff.mpr isEntity)
    rw [LinkedGrid.remove, refines.entities, isEntity, missing]
    exact ⟨linked, rfl, refines⟩
  have fits := grid.inside entityId (by rw [isEntity]; rfl)
  obtain ⟨hotspots, done, further⟩ := refines.hotspots.remove sound.hotspots small entityId
  have detached := refines.detach sound isEntity
  rw [LinkedGrid.remove, refines.entities, isEntity, remove_of_entity isEntity fits]
  simp only [refines.maxEntities, if_neg (Nat.not_le_of_lt fits), done, map_some]
  refine ⟨_, rfl, refines.maxEntities, refines.numBuckets, ?_, ?_, ?_, further⟩
  · exact congrArg (· - 1) refines.activeCount
  · simp only [LinkedGrid.detachFromBucket, LinkedGrid.setEntity, refines.entities]
    rfl
  simp only [refines.bucketOf_eq]
  exact detached

theorem length_bucket_le (sound : grid.Sound) (bucket : Nat) :
    (grid.buckets bucket).length ≤ grid.maxEntities := by
  refine Links.length_le_of_keys (fun _ _ same => UInt32.toNat_inj.mp same)
    (sound.bucketed.nodup bucket) ?_
  intro entityId inBucket
  rw [sound.bucketed.mem_iff] at inBucket
  obtain ⟨entity, isEntity, -⟩ := Option.map_eq_some_iff.mp inBucket
  exact grid.inside entityId (by rw [isEntity]; rfl)

def withKey (grid : SpatialHashGrid) (key : UInt64) : List UInt32 :=
  (grid.buckets (grid.bucketOf key)).filter fun entityId =>
    (grid.entities entityId).any fun entity => decide (entity.key = key)

theorem exists_entity_iff (sound : grid.Sound) (property : UInt64 → Prop) :
    (∃ entity, grid.entities entityId = some entity ∧ property entity.key) ↔
      ∃ position, grid.getPosition entityId = some position ∧
        property (CellCoord.fromPosition position).spatialKey := by
  constructor
  · rintro ⟨entity, isEntity, has⟩
    obtain ⟨cellIs, keyIs⟩ := sound.placed entityId entity isEntity
    refine ⟨entity.position, ?_, ?_⟩
    · rw [SpatialHashGrid.getPosition, isEntity, map_some]
    rw [← cellIs, ← keyIs]
    exact has
  rintro ⟨position, active, has⟩
  obtain ⟨entity, isEntity, isPosition⟩ := Option.map_eq_some_iff.mp active
  obtain ⟨cellIs, keyIs⟩ := sound.placed entityId entity isEntity
  refine ⟨entity, isEntity, ?_⟩
  rw [keyIs, cellIs, isPosition]
  exact has

theorem mem_bucket_iff (sound : grid.Sound) (bucket : Nat) :
    entityId ∈ grid.buckets bucket ↔ ∃ position, grid.getPosition entityId = some position ∧
      bucket = grid.bucketOf (CellCoord.fromPosition position).spatialKey := by
  rw [← exists_entity_iff sound fun key => bucket = grid.bucketOf key, sound.bucketed.mem_iff,
    map_eq_some_iff]
  simp only [eq_comm]

theorem mem_withKey_iff (sound : grid.Sound) (key : UInt64) :
    entityId ∈ withKey grid key ↔ ∃ position, grid.getPosition entityId = some position ∧
      (CellCoord.fromPosition position).spatialKey = key := by
  rw [withKey, mem_filter, mem_bucket_iff sound, Option.any_eq_true]
  simp only [decide_eq_true_eq]
  rw [exists_entity_iff sound fun held => held = key]
  constructor
  · exact fun both => both.2
  rintro ⟨position, active, hasKey⟩
  exact ⟨⟨position, active, by rw [hasKey]⟩, position, active, hasKey⟩

theorem cellEntityCount_eq (refines : RefinesGrid linked grid) (sound : grid.Sound)
    (cell : CellCoord) :
    linked.cellEntityCount cell = some (withKey grid cell.spatialKey).length := by
  have follows := (refines.woven.threads (grid.bucketOf cell.spatialKey)).follows
  have short := length_bucket_le sound (grid.bucketOf cell.spatialKey)
  rw [LinkedGrid.cellEntityCount, refines.maxEntities, refines.bucketOf_eq, refines.entities]
  rw [Links.forEach_eq_foldl follows (Nat.lt_succ_of_le short) 0, foldl_count, Nat.zero_add]
  rfl

end RefinesGrid

def recordPosition (maxEntities : Nat) (positions : UInt32 → Option Vec3Fix) :
    GridCall → UInt32 → Option Vec3Fix
  | .insert entityId position =>
    if entityId.toNat < maxEntities ∧ (positions entityId).isNone then
      Function.update positions entityId (some position)
    else
      positions
  | .updatePosition entityId newPosition =>
    if (positions entityId).isSome then
      Function.update positions entityId (some newPosition)
    else
      positions
  | .remove entityId => Function.update positions entityId none

def positionsAfter (maxEntities : Nat) (calls : List GridCall) : UInt32 → Option Vec3Fix :=
  calls.foldl (recordPosition maxEntities) fun _ => none

/-- The call does not number an entity like the sentinel. -/
def AvoidsTerminal (maxEntities : Nat) (call : GridCall) : Prop :=
  ∀ position, call = .insert terminalIndex position → maxEntities ≤ terminalIndex.toNat

namespace LinkedGrid

/-- These buckets are the ones that the links go through; the active entities are those with
positions, and each of them stands once in the buckets, in that of its cell's key. -/
structure Represents (grid : LinkedGrid) (positions : UInt32 → Option Vec3Fix)
    (buckets : Nat → List UInt32) : Prop where
  positions : ∀ entityId, grid.getPosition entityId = positions entityId
  threads : ∀ bucket, grid.links.Threads terminalIndex terminalIndex
    (grid.bucketHeads bucket) (buckets bucket)
  nodup : ∀ bucket, (buckets bucket).Nodup
  mem_iff : ∀ bucket entityId, entityId ∈ buckets bucket ↔
    ∃ position, grid.getPosition entityId = some position ∧
      bucket = grid.bucketOf (CellCoord.fromPosition position).spatialKey
  counted : Counts grid.activeCount fun entityId => (grid.getPosition entityId).isSome

def ErrorsChangeNothing (grid : LinkedGrid) : Prop :=
  ∀ call error after, grid.attempt call = some (some error, after) → after = grid

def CountExact (grid : LinkedGrid) (cell : CellCoord) : Prop :=
  ∃ count, grid.cellEntityCount cell = some count ∧
    Counts count fun entityId => ∃ position, grid.getPosition entityId = some position ∧
      CellCoord.fromPosition position = cell

end LinkedGrid

structure KeptGrid (maxEntities : Nat) (positions : UInt32 → Option Vec3Fix)
    (grid : SpatialHashGrid) : Prop where
  sound : grid.Sound
  few : grid.hotspots.maxHotspots ≤ 65535
  capacity : grid.maxEntities = maxEntities
  counted : Counts grid.activeCount fun entityId => (grid.getPosition entityId).isSome
  positions : grid.getPosition = positions

namespace KeptGrid

variable {maxEntities : Nat} {positions : UInt32 → Option Vec3Fix} {grid : SpatialHashGrid}

theorem start (maxEntities requestedBuckets : Nat) : KeptGrid maxEntities (fun _ => none)
      (SpatialHashGrid.withCapacity maxEntities requestedBuckets) where
  sound := sound_withCapacity maxEntities requestedBuckets
  few := Nat.le_of_ble_eq_true rfl
  capacity := rfl
  counted := Counts.none fun _ active => by cases active
  positions := rfl

theorem insert_fields {entityId : UInt32} {position : Vec3Fix}
    (done : (grid.insert entityId position).1 = .ok ()) :
    (grid.insert entityId position).2.activeCount = grid.activeCount + 1 ∧
      (grid.insert entityId position).2.hotspots = (grid.hotspots.insert entityId position).2 := by
  obtain ⟨fits, free⟩ := insert_ok_iff.mp done
  have notActive : ¬ (grid.entities entityId).isSome := by
    rw [getPosition_eq_none_iff.mp free]
    decide
  rw [SpatialHashGrid.insert, dif_pos fits, if_neg notActive]
  exact ⟨rfl, rfl⟩

theorem insert (kept : KeptGrid maxEntities positions grid) (entityId : UInt32)
    (position : Vec3Fix) :
    KeptGrid maxEntities (recordPosition maxEntities positions (.insert entityId position))
      (grid.insert entityId position).2 := by
  have accepted := @insert_ok_iff grid entityId position
  rw [kept.capacity, kept.positions, ← isNone_iff_eq_none] at accepted
  rw [recordPosition]
  by_cases done : (grid.insert entityId position).1 = .ok ()
  case neg =>
    rw [if_neg (accepted.not.mp done), insert_of_error done]
    exact kept
  have free := (insert_ok_iff.mp done).2
  have moved := getPosition_insert done
  obtain ⟨count, hotspots⟩ := insert_fields done
  rw [if_pos (accepted.mp done)]
  refine ⟨kept.sound.insert entityId position, ?_, ?_, ?_, ?_⟩
  · rw [hotspots, HotspotManager.maxHotspots_insert]
    exact kept.few
  · rw [maxEntities_insert, kept.capacity]
  · rw [count]
    have notActive : ¬ (grid.getPosition entityId).isSome := by
      rw [free]
      decide
    refine (kept.counted.add notActive).congr fun other => ?_
    rw [moved]
    by_cases same : other = entityId
    · rw [if_pos same]
      exact iff_of_true rfl (Or.inl same)
    rw [if_neg same]
    exact (or_iff_right same).symm
  funext other
  rw [moved, update_apply, kept.positions]

section

variable (kept : KeptGrid maxEntities positions grid)
include kept

theorem updatePosition (entityId : UInt32) (newPosition : Vec3Fix) : KeptGrid maxEntities
      (recordPosition maxEntities positions (.updatePosition entityId newPosition))
      (grid.updatePosition entityId newPosition).2 := by
  rw [recordPosition, ← kept.positions]
  rcases active : grid.getPosition entityId with _ | position
  · rw [updatePosition_of_none active, kept.positions]
    exact kept
  obtain ⟨_, moved, capacity⟩ := updatePosition_of_some active newPosition
  obtain ⟨entity, isEntity, _⟩ := Option.map_eq_some_iff.mp active
  have hotspots := (updatePosition_spec isEntity newPosition).1
  rw [if_pos isSome_some]
  refine ⟨kept.sound.updatePosition entityId newPosition, ?_, ?_, ?_, ?_⟩
  · rw [hotspots, HotspotManager.maxHotspots_updatePosition]
    exact kept.few
  · rw [capacity, kept.capacity]
  · have count : (grid.updatePosition entityId newPosition).2.activeCount =
        grid.activeCount := by
      rw [RefinesGrid.updatePosition_of_entity isEntity (lt_of_getPosition active)]
      split <;> rfl
    rw [count]
    refine kept.counted.congr fun other => ?_
    rw [moved]
    by_cases same : other = entityId
    · rw [if_pos same, same, active]
      exact Iff.rfl
    rw [if_neg same]
  funext other
  rw [moved, update_apply]

theorem remove (entityId : UInt32) :
    KeptGrid maxEntities (recordPosition maxEntities positions (.remove entityId))
      (grid.remove entityId).2 := by
  rw [recordPosition, ← kept.positions]
  rcases active : grid.getPosition entityId with _ | position
  · rw [remove_of_none active, ← active, update_eq_self, kept.positions]
    exact kept
  obtain ⟨_, moved, capacity⟩ := remove_of_some active
  obtain ⟨entity, isEntity, _⟩ := Option.map_eq_some_iff.mp active
  have hotspots := (remove_spec isEntity).1
  refine ⟨kept.sound.remove entityId, ?_, ?_, ?_, ?_⟩
  · rw [hotspots, HotspotManager.maxHotspots_remove]
    exact kept.few
  · rw [capacity, kept.capacity]
  · have count : (grid.remove entityId).2.activeCount = grid.activeCount - 1 := by
      rw [RefinesGrid.remove_of_entity isEntity (lt_of_getPosition active)]
    rw [count]
    have isActive : (grid.getPosition entityId).isSome := by
      rw [active]
      rfl
    refine (kept.counted.remove isActive).congr fun other => ?_
    rw [moved]
    by_cases same : other = entityId
    · rw [if_pos same]
      exact iff_of_false nofun fun both => both.1 same
    rw [if_neg same]
    exact (and_iff_right same).symm
  funext other
  rw [moved, update_apply]

theorem step (call : GridCall) :
    KeptGrid maxEntities (recordPosition maxEntities positions call) (grid.step call) := by
  cases call with
  | insert entityId position => exact kept.insert entityId position
  | updatePosition entityId newPosition => exact kept.updatePosition entityId newPosition
  | remove entityId => exact kept.remove entityId

end

end KeptGrid

namespace RefinesGrid

variable {linked : LinkedGrid} {grid : SpatialHashGrid} {maxEntities : Nat}
  {positions : UInt32 → Option Vec3Fix}

theorem step (refines : RefinesGrid linked grid) (kept : KeptGrid maxEntities positions grid)
    {call : GridCall} (avoids : AvoidsTerminal maxEntities call) :
    ∃ after, linked.step call = some after ∧ RefinesGrid after (grid.step call) := by
  cases call with
  | insert entityId position =>
    have isNumber : entityId.toNat < grid.maxEntities → entityId ≠ terminalIndex := by
      intro inside isTerminal
      rw [isTerminal, kept.capacity] at inside
      rw [isTerminal] at avoids
      exact absurd inside (Nat.not_lt_of_le (avoids position rfl))
    obtain ⟨after, done, further⟩ := refines.insert kept.sound isNumber position
    refine ⟨after, ?_, further⟩
    rw [LinkedGrid.step, LinkedGrid.attempt, done]
    rfl
  | updatePosition entityId newPosition =>
    obtain ⟨after, done, further⟩ :=
      refines.updatePosition kept.sound kept.few entityId newPosition
    refine ⟨after, ?_, further⟩
    rw [LinkedGrid.step, LinkedGrid.attempt, done]
    rfl
  | remove entityId =>
    obtain ⟨after, done, further⟩ := refines.remove kept.sound kept.few entityId
    refine ⟨after, ?_, further⟩
    rw [LinkedGrid.step, LinkedGrid.attempt, done]
    rfl

theorem run (refines : RefinesGrid linked grid) (kept : KeptGrid maxEntities positions grid)
    {calls : List GridCall} (avoid : ∀ call ∈ calls, AvoidsTerminal maxEntities call) :
    ∃ after last, calls.foldlM LinkedGrid.step linked = some after ∧ RefinesGrid after last ∧
      KeptGrid maxEntities (calls.foldl (recordPosition maxEntities) positions) last := by
  induction calls generalizing linked grid positions with
  | nil => exact ⟨linked, grid, rfl, refines, kept⟩
  | cons call calls ih =>
    obtain ⟨next, done, further⟩ := refines.step kept (avoid call mem_cons_self)
    rw [foldlM_cons, done]
    exact ih further (kept.step call) fun later member =>
      avoid later (mem_cons_of_mem call member)

theorem represents (refines : RefinesGrid linked grid)
    (kept : KeptGrid maxEntities positions grid) : linked.Represents positions grid.buckets where
  positions entityId := by
    rw [refines.getPosition_eq, kept.positions]
  threads := refines.woven.threads
  nodup := refines.woven.nodup
  mem_iff bucket entityId := by
    simp only [refines.getPosition_eq, refines.bucketOf_eq]
    exact mem_bucket_iff kept.sound bucket
  counted := by
    simp only [refines.getPosition_eq, refines.activeCount]
    exact kept.counted

theorem countExact_iff (refines : RefinesGrid linked grid) (sound : grid.Sound) (cell : CellCoord) :
    linked.CountExact cell ↔ ∀ entityId position, linked.getPosition entityId = some position →
        (CellCoord.fromPosition position).spatialKey = cell.spatialKey →
          CellCoord.fromPosition position = cell := by
  have counted := Counts.of_list ((sound.bucketed.nodup (grid.bucketOf cell.spatialKey)).filter _)
    fun entityId => @mem_withKey_iff grid entityId sound cell.spatialKey
  have stronger : ∀ entityId, (∃ position, grid.getPosition entityId = some position ∧
      CellCoord.fromPosition position = cell) → ∃ position,
        grid.getPosition entityId = some position ∧
          (CellCoord.fromPosition position).spatialKey = cell.spatialKey := by
    rintro entityId ⟨position, active, inCell⟩
    exact ⟨position, active, by rw [inCell]⟩
  have exactly := counted.iff_of_imp stronger
  simp only [LinkedGrid.CountExact, refines.getPosition_eq, refines.cellEntityCount_eq sound,
    some.injEq, exists_eq_left']
  rw [withKey, exactly]
  constructor
  · intro inCell entityId position active hasKey
    obtain ⟨other, isOther, there⟩ := inCell entityId ⟨position, active, hasKey⟩
    rw [active, some.injEq] at isOther
    rw [isOther]
    exact there
  rintro inCell entityId ⟨position, active, hasKey⟩
  exact ⟨position, active, inCell entityId position active hasKey⟩

end RefinesGrid

theorem LinkedGrid.not_failed {Value Hotspots : Type} {hotspots : Option Hotspots}
    {finish : Hotspots → Except SpatialError Value × LinkedGrid}
    (ok : ∀ after, errorOf (finish after).1 = none) (error : SpatialError) (grid : LinkedGrid) :
    (hotspots.map finish).map (fun result => (errorOf result.1, result.2)) ≠
      some (some error, grid) := by
  intro failed
  obtain ⟨result, isResult, isError⟩ := Option.map_eq_some_iff.mp failed
  obtain ⟨after, _, isFinish⟩ := Option.map_eq_some_iff.mp isResult
  rw [← isFinish, ok] at isError
  cases isError

theorem LinkedGrid.errorsChangeNothing (grid : LinkedGrid) : grid.ErrorsChangeNothing := by
  intro call error after failed
  cases call with
  | insert entityId position =>
    rw [attempt, insert] at failed
    split at failed
    · cases failed
      rfl
    split at failed
    · cases failed
      rfl
    exact absurd failed (not_failed (fun _ => rfl) error after)
  | updatePosition entityId newPosition =>
    rw [attempt, updatePosition] at failed
    split at failed
    · cases failed
      rfl
    split at failed
    · cases failed
      rfl
    refine absurd failed (not_failed (fun _ => ?_) error after)
    split <;> rfl
  | remove entityId =>
    rw [attempt, remove] at failed
    split at failed
    · cases failed
      rfl
    split at failed
    · cases failed
      rfl
    exact absurd failed (not_failed (fun _ => rfl) error after)

/-- Whatever was inserted, moved and removed, the buckets are right and calls that fail change
nothing, and the count of a cell is exact if and only if no active entity stands in another cell
with the same key.  Identifiers are as many as the links can tell apart. -/
theorem represents_and_countExact_iff (maxEntities requestedBuckets : Nat) (calls : List GridCall)
    (avoid : ∀ call ∈ calls, AvoidsTerminal maxEntities call) (cell : CellCoord) :
    ∃ grid, calls.foldlM LinkedGrid.step
        (LinkedGrid.withCapacity maxEntities requestedBuckets) = some grid ∧
      (((∃ buckets, grid.Represents (positionsAfter maxEntities calls) buckets) ∧
          grid.ErrorsChangeNothing ∧ grid.CountExact cell) ↔
        ∀ entityId position, grid.getPosition entityId = some position →
          (CellCoord.fromPosition position).spatialKey = cell.spatialKey →
            CellCoord.fromPosition position = cell) := by
  obtain ⟨grid, last, done, refines, kept⟩ :=
    (RefinesGrid.withCapacity maxEntities requestedBuckets).run
      (KeptGrid.start maxEntities requestedBuckets) avoid
  refine ⟨grid, done, ?_⟩
  rw [refines.countExact_iff kept.sound]
  constructor
  · exact fun both => both.2.2
  exact fun exactly => ⟨⟨_, refines.represents kept⟩, grid.errorsChangeNothing, exactly⟩

theorem represents_and_countExact_iff_oneEntity :
    ∃ grid, [GridCall.insert 3 (Vec3Fix.fromI32 1 2 3)].foldlM LinkedGrid.step
        (LinkedGrid.withCapacity 16 64) = some grid ∧
      (((∃ buckets, grid.Represents
            (positionsAfter 16 [GridCall.insert 3 (Vec3Fix.fromI32 1 2 3)]) buckets) ∧
          grid.ErrorsChangeNothing ∧ grid.CountExact ⟨0, 0, 0⟩) ↔
        ∀ entityId position, grid.getPosition entityId = some position →
          (CellCoord.fromPosition position).spatialKey = (CellCoord.mk 0 0 0).spatialKey →
            CellCoord.fromPosition position = ⟨0, 0, 0⟩) :=
  represents_and_countExact_iff 16 64 [GridCall.insert 3 (Vec3Fix.fromI32 1 2 3)]
    (fun call member position isInsert => by
      rw [mem_singleton] at member
      rw [member] at isInsert
      cases isInsert)
    ⟨0, 0, 0⟩

/-- Far above the world's ground the heights of the cells are numbered from the start again. -/
theorem not_countExact_aloft :
    ¬ ∀ (maxEntities requestedBuckets : Nat) (calls : List GridCall) (cell : CellCoord),
      (∀ call ∈ calls, AvoidsTerminal maxEntities call) → ∃ grid, calls.foldlM LinkedGrid.step
            (LinkedGrid.withCapacity maxEntities requestedBuckets) = some grid ∧
          grid.CountExact cell := by
  intro always
  have avoid : ∀ call ∈ [GridCall.insert 0 (Vec3Fix.fromI32 0 2097152 0)],
      AvoidsTerminal 1 call := by
    intro call _ position _
    decide
  obtain ⟨grid, done, exactly⟩ :=
    always 1 64 [GridCall.insert 0 (Vec3Fix.fromI32 0 2097152 0)] ⟨0, 0, 0⟩ avoid
  obtain ⟨other, last, alsoDone, refines, kept⟩ :=
    (RefinesGrid.withCapacity 1 64).run (KeptGrid.start 1 64) avoid
  rw [done, some.injEq] at alsoDone
  subst alsoDone
  have active : grid.getPosition 0 = some (Vec3Fix.fromI32 0 2097152 0) := by
    rw [refines.getPosition_eq, kept.positions]
    decide
  have inCell := (refines.countExact_iff kept.sound _).mp exactly 0 _ active (by decide)
  revert inCell
  decide

end Eidolon.Spatial
