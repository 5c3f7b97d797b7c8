import Eidolon.Library.Run
import Eidolon.Spatial.Grid
import Eidolon.Spatial.HotspotSound

/-!
# Soundness of the grid

Every active entity is in the bucket of its cell's key and in no other, and what the hotspot
manager tracks is active at the same position.  Not every active entity is tracked: the
manager refuses entities of new cells when it has no cell left.
-/

namespace Eidolon.Spatial

open Core Function Library Option

namespace SpatialHashGrid

structure Sound (grid : SpatialHashGrid) : Prop where
  placed : ∀ entityId entity, grid.entities entityId = some entity →
    entity.cell = CellCoord.fromPosition entity.position ∧
      entity.key = entity.cell.spatialKey
  bucketed : Bucketed grid.buckets fun entityId =>
    (grid.entities entityId).map fun entity => grid.bucketOf entity.key
  hotspots : grid.hotspots.Sound
  tracked : ∀ entityId position, grid.hotspots.positionOf entityId = some position →
    grid.getPosition entityId = some position

theorem sound_withCapacity (maxEntities requestedBuckets : Nat) :
    (withCapacity maxEntities requestedBuckets).Sound where
  placed _ _ active := by
    cases active
  bucketed := Bucketed.empty
  hotspots := HotspotManager.sound_new maxEntities 64
  tracked _ _ isTracked := by
    cases isTracked

variable {grid : SpatialHashGrid} {entityId : UInt32}

theorem Sound.tracked_after (sound : grid.Sound) {after : HotspotManager}
    {position : Option Vec3Fix} (places : grid.hotspots.Places after entityId position)
    {positions : UInt32 → Option Vec3Fix}
    (others : ∀ other, other ≠ entityId → positions other = grid.getPosition other)
    (own : ∀ here, position = some here → positions entityId = some here) (other : UInt32)
    (there : Vec3Fix) (isTracked : after.positionOf other = some there) :
    positions other = some there := by
  by_cases same : other = entityId
  · rw [same] at isTracked ⊢
    rcases places.placed with moved | gone
    · rw [moved] at isTracked
      exact own there isTracked
    rw [gone] at isTracked
    cases isTracked
  rw [others other same]
  rw [places.others other same] at isTracked
  exact sound.tracked other there isTracked

theorem Sound.entities_none (sound : grid.Sound) (inactive : grid.entities entityId = none) :
    grid.hotspots.entities entityId = none := by
  rw [← HotspotManager.positionOf_eq_none_iff]
  by_contra tracked
  obtain ⟨position, isTracked⟩ := Option.ne_none_iff_exists'.mp tracked
  have active := sound.tracked entityId position isTracked
  rw [getPosition, inactive] at active
  cases active

theorem Sound.placed_update (sound : grid.Sound) {changed : Option GridEntity}
    (correct : ∀ entity, changed = some entity →
      entity.cell = CellCoord.fromPosition entity.position ∧
        entity.key = entity.cell.spatialKey) (other : UInt32) (entity : GridEntity)
    (isEntity : Function.update grid.entities entityId changed other = some entity) :
    entity.cell = CellCoord.fromPosition entity.position ∧ entity.key = entity.cell.spatialKey := by
  by_cases same : other = entityId
  · rw [same, update_self] at isEntity
    exact correct entity isEntity
  rw [update_of_ne same] at isEntity
  exact sound.placed other entity isEntity

theorem Sound.insert {grid : SpatialHashGrid} (sound : grid.Sound) (entityId : UInt32)
    (position : Vec3Fix) : (grid.insert entityId position).2.Sound := by
  by_cases done : (grid.insert entityId position).1 = .ok ()
  · obtain ⟨fits, free⟩ := insert_ok_iff.mp done
    have positions := getPosition_insert done
    have inactive := getPosition_eq_none_iff.mp free
    have notActive : ¬ (grid.entities entityId).isSome := by
      rw [inactive]
      decide
    have places := sound.hotspots.insert (sound.entities_none inactive) position
    rw [SpatialHashGrid.insert, dif_pos fits, if_neg notActive] at positions ⊢
    refine ⟨?_, ?_, places.sound, ?_⟩
    · apply sound.placed_update
      intro changed isChanged
      rw [← some.inj isChanged]
      exact ⟨rfl, rfl⟩
    · have notPlaced : (grid.entities entityId).map (fun entity => grid.bucketOf entity.key) =
          none := by
        rw [inactive]
        rfl
      refine (sound.bucketed.push notPlaced _).congr fun other => ?_
      simp only [attachToBucket, setEntity]
      by_cases same : other = entityId
      · rw [same, update_self, update_self]
        rfl
      rw [update_of_ne same, update_of_ne same]
      rfl
    apply sound.tracked_after places
    · intro other different
      rw [positions, if_neg different]
    intro here isHere
    rw [positions, if_pos rfl]
    exact isHere
  rw [insert_of_error done]
  exact sound

theorem updatePosition_spec {entity : GridEntity}
    (isEntity : grid.entities entityId = some entity) (newPosition : Vec3Fix) :
    let after := (grid.updatePosition entityId newPosition).2
    let newCell := CellCoord.fromPosition newPosition
    let erased := Function.update grid.buckets (grid.bucketOf entity.key)
      ((grid.buckets (grid.bucketOf entity.key)).erase entityId)
    let target := grid.bucketOf newCell.spatialKey
    after.hotspots = (grid.hotspots.updatePosition entityId newPosition).2 ∧
      after.numBuckets = grid.numBuckets ∧
      ((newCell = entity.cell ∧ after.buckets = grid.buckets ∧
          after.entities = Function.update grid.entities entityId
            (some { entity with position := newPosition })) ∨
        (after.buckets = Function.update erased target (entityId :: erased target) ∧
          after.entities = Function.update grid.entities entityId
            (some { position := newPosition, cell := newCell, key := newCell.spatialKey }))) := by
  rw [updatePosition]
  split
  · rename_i missing
    rw [isEntity] at missing
    cases missing
  rename_i other isOther
  rw [isEntity, some.injEq] at isOther
  rw [isOther]
  simp only
  split
  · rename_i sameCell
    exact ⟨rfl, rfl, Or.inl ⟨sameCell, rfl, rfl⟩⟩
  exact ⟨rfl, rfl, Or.inr ⟨rfl, rfl⟩⟩

theorem Sound.updatePosition (sound : grid.Sound) (entityId : UInt32) (newPosition : Vec3Fix) :
    (grid.updatePosition entityId newPosition).2.Sound := by
  rcases active : grid.getPosition entityId with _ | position
  · rw [updatePosition_of_none active]
    exact sound
  have positions := (updatePosition_of_some active newPosition).2.1
  have places := sound.hotspots.updatePosition entityId newPosition
  obtain ⟨entity, isEntity, _⟩ := Option.map_eq_some_iff.mp active
  obtain ⟨cellIs, keyIs⟩ := sound.placed entityId entity isEntity
  have placed : (grid.entities entityId).map (fun entity => grid.bucketOf entity.key) =
      some (grid.bucketOf entity.key) := by
    rw [isEntity]
    rfl
  obtain ⟨hotspots, sameBuckets, change⟩ := updatePosition_spec isEntity newPosition
  have sameBucket : ∀ key, (grid.updatePosition entityId newPosition).2.bucketOf key =
      grid.bucketOf key := by
    intro key
    rw [bucketOf, bucketOf, sameBuckets]
  have tracked := sound.tracked_after places
    (fun other different => (positions other).trans (if_neg different))
    (fun here isHere => (positions entityId).trans ((if_pos rfl).trans isHere))
  rw [← hotspots] at tracked
  refine ⟨?_, ?_, by rw [hotspots]; exact places.sound, tracked⟩
  · rcases change with ⟨sameCell, _, entities⟩ | ⟨_, entities⟩
    · rw [entities]
      apply sound.placed_update
      intro changed isChanged
      rw [← some.inj isChanged]
      exact ⟨sameCell.symm, keyIs⟩
    rw [entities]
    apply sound.placed_update
    intro changed isChanged
    rw [← some.inj isChanged]
    exact ⟨rfl, rfl⟩
  simp only [sameBucket]
  rcases change with ⟨_, buckets, entities⟩ | ⟨buckets, entities⟩
  · rw [buckets, entities]
    refine sound.bucketed.congr fun other => ?_
    by_cases same : other = entityId
    · rw [same, update_self, isEntity]
      rfl
    rw [update_of_ne same]
  rw [buckets, entities]
  refine (sound.bucketed.move placed _).congr fun other => ?_
  by_cases same : other = entityId
  · rw [same, update_self, update_self]
    rfl
  rw [update_of_ne same, update_of_ne same]

theorem remove_spec {entity : GridEntity} (isEntity : grid.entities entityId = some entity) :
    let after := (grid.remove entityId).2
    after.hotspots = (grid.hotspots.remove entityId).2 ∧ after.numBuckets = grid.numBuckets ∧
      after.buckets = Function.update grid.buckets (grid.bucketOf entity.key)
        ((grid.buckets (grid.bucketOf entity.key)).erase entityId) ∧
      after.entities = Function.update grid.entities entityId none := by
  rw [remove]
  split
  · rename_i missing
    rw [isEntity] at missing
    cases missing
  rename_i other isOther
  rw [isEntity, some.injEq] at isOther
  rw [isOther]
  exact ⟨rfl, rfl, rfl, rfl⟩

theorem Sound.remove (sound : grid.Sound) (entityId : UInt32) : (grid.remove entityId).2.Sound := by
  rcases active : grid.getPosition entityId with _ | position
  · rw [remove_of_none active]
    exact sound
  have positions := (remove_of_some active).2.1
  have places := sound.hotspots.remove entityId
  obtain ⟨entity, isEntity, _⟩ := Option.map_eq_some_iff.mp active
  have placed : (grid.entities entityId).map (fun entity => grid.bucketOf entity.key) =
      some (grid.bucketOf entity.key) := by
    rw [isEntity]
    rfl
  obtain ⟨hotspots, sameBuckets, buckets, entities⟩ := remove_spec isEntity
  have sameBucket : ∀ key, (grid.remove entityId).2.bucketOf key = grid.bucketOf key := by
    intro key
    rw [bucketOf, bucketOf, sameBuckets]
  have tracked := sound.tracked_after places
    (fun other different => (positions other).trans (if_neg different))
    (fun here isHere => by cases isHere)
  rw [← hotspots] at tracked
  refine ⟨?_, ?_, by rw [hotspots]; exact places.sound, tracked⟩
  · rw [entities]
    apply sound.placed_update
    intro changed isChanged
    cases isChanged
  simp only [sameBucket]
  rw [buckets, entities]
  refine (sound.bucketed.erase placed).congr fun other => ?_
  by_cases same : other = entityId
  · rw [same, update_self, update_self]
    rfl
  rw [update_of_ne same, update_of_ne same]

/-- The operations on a grid. -/
inductive GridCall where
  | insert (entityId : UInt32) (position : Vec3Fix)
  | updatePosition (entityId : UInt32) (newPosition : Vec3Fix)
  | remove (entityId : UInt32)
  deriving DecidableEq

def step (grid : SpatialHashGrid) : GridCall → SpatialHashGrid
  | .insert entityId position => (grid.insert entityId position).2
  | .updatePosition entityId newPosition => (grid.updatePosition entityId newPosition).2
  | .remove entityId => (grid.remove entityId).2

theorem sound_run (maxEntities requestedBuckets : Nat) (calls : List GridCall) :
    (Library.run step (withCapacity maxEntities requestedBuckets) calls).Sound := by
  have preserved : ∀ (grid : SpatialHashGrid) (call : GridCall),
      grid.Sound → (grid.step call).Sound := by
    intro grid call sound
    cases call with
    | insert entityId position => exact sound.insert entityId position
    | updatePosition entityId newPosition => exact sound.updatePosition entityId newPosition
    | remove entityId => exact sound.remove entityId
  exact (throughout_of_preserved preserved
    (sound_withCapacity maxEntities requestedBuckets) calls).run

end SpatialHashGrid

end Eidolon.Spatial
