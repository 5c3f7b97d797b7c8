import Eidolon.Library.Run
import Eidolon.World.SoaStorage

/-!
# Storage of entities in aligned blocks

The second storage of entities keeps one block for each, with the components side by side.
Both storages take the same calls; what one has in its arrays the other has in its blocks.
-/

namespace Eidolon.World

open Core Library List

/-- The block of an entity, without the padding that fills its cache line. -/
structure AlignedEntityBlock64 where
  position : Vec3Fix
  velocity : Vec3Fix
  entityId : UInt32
  heading : QuantizedYaw
  flags : UInt8
  health : UInt16
  maxHealth : UInt16
  generation : UInt16
  deriving DecidableEq

def AlignedEntityBlock64.step (block : AlignedEntityBlock64) (dt : Fixed64) :
    AlignedEntityBlock64 :=
  { block with position := block.position.add (block.velocity.scale dt) }

structure AlignedBlockStorage where
  blocks : List AlignedEntityBlock64
  sparseToDense : UInt32 → UInt32
  coldData : List ColdEntityMetadata

namespace AlignedBlockStorage

def empty : AlignedBlockStorage where
  blocks := []
  sparseToDense := fun _ => sparseSentinel
  coldData := []

variable (storage : AlignedBlockStorage)

def lookupIndex (id : UInt32) : Option Nat :=
  let denseIdx := storage.sparseToDense id
  if denseIdx = sparseSentinel then none else some denseIdx.toNat

def spawn (block : AlignedEntityBlock64) (cold : ColdEntityMetadata) :
    Except WorldError Nat × AlignedBlockStorage :=
  if storage.sparseToDense block.entityId = sparseSentinel then
    let denseIdx := storage.blocks.length
    (.ok denseIdx,
      { blocks := storage.blocks ++ [block]
        coldData := storage.coldData ++ [cold]
        sparseToDense :=
          Function.update storage.sparseToDense block.entityId (UInt32.ofNat denseIdx) })
  else
    (.error (.entityAlreadyExists block.entityId), storage)

def despawn (id : UInt32) : Except WorldError ColdEntityMetadata × AlignedBlockStorage :=
  match storage.lookupIndex id with
  | none => (.error (.entityNotFound id), storage)
  | some denseIdx =>
    let lastIdx := storage.blocks.length - 1
    match storage.blocks[denseIdx]?, storage.coldData[denseIdx]? with
    | some _, some removedCold =>
      let blocks := swapRemove storage.blocks denseIdx
      let cleared := Function.update storage.sparseToDense id sparseSentinel
      let sparseToDense :=
        if denseIdx < lastIdx then
          match blocks[denseIdx]? with
          | none => cleared
          | some swapped => Function.update cleared swapped.entityId (UInt32.ofNat denseIdx)
        else cleared
      (.ok removedCold,
        { blocks := blocks
          coldData := swapRemove storage.coldData denseIdx
          sparseToDense := sparseToDense })
    -- an index outside of the blocks, where the source panics
    | _, _ => (.error (.entityNotFound id), storage)

def getBlock (id : UInt32) : Option AlignedEntityBlock64 :=
  (storage.lookupIndex id).bind fun denseIdx => storage.blocks[denseIdx]?

def stepKinematics (dt : Fixed64) : AlignedBlockStorage :=
  { storage with blocks := storage.blocks.map fun block => block.step dt }

end AlignedBlockStorage

theorem length_swapRemove_of_eq {α β : Type*} {items : List α} {ids : List β} {index : Nat}
    (same : items.length = ids.length) (inside : index < ids.length) :
    (swapRemove items index).length = (swapRemove ids index).length := by
  rw [length_swapRemove inside, length_swapRemove (by omega), same]

structure EntityComponents where
  position : Vec3Fix
  velocity : Vec3Fix
  acceleration : Vec3Fix
  heading : QuantizedYaw
  flags : UInt8
  health : UInt32
  maxHealth : UInt32
  cold : ColdEntityMetadata

structure EntityMotion where
  position : Vec3Fix
  velocity : Vec3Fix
  heading : QuantizedYaw
  flags : UInt8
  deriving DecidableEq

namespace SoaEntityStorage

variable (storage : SoaEntityStorage)

def componentsAt (index : Nat) : Option EntityComponents := do
  let position ← storage.positions[index]?
  let velocity ← storage.velocities[index]?
  let acceleration ← storage.accelerations[index]?
  let heading ← storage.headings[index]?
  let flags ← storage.flags[index]?
  let health ← storage.health[index]?
  let maxHealth ← storage.maxHealth[index]?
  let cold ← storage.coldData[index]?
  return ⟨position, velocity, acceleration, heading, flags, health, maxHealth, cold⟩

def componentsOf (id : UInt32) : Option EntityComponents :=
  (storage.lookupIndex id).bind storage.componentsAt

def motionOf (id : UInt32) : Option EntityMotion := do
  let index ← storage.lookupIndex id
  let position ← storage.positions[index]?
  let velocity ← storage.velocities[index]?
  let heading ← storage.headings[index]?
  let flags ← storage.flags[index]?
  return ⟨position, velocity, heading, flags⟩

structure Parallel (storage : SoaEntityStorage) : Prop where
  indexed : storage.Indexed
  accelerations : storage.accelerations.length = storage.ids.length
  headings : storage.headings.length = storage.ids.length
  flags : storage.flags.length = storage.ids.length
  health : storage.health.length = storage.ids.length
  maxHealth : storage.maxHealth.length = storage.ids.length

variable {storage : SoaEntityStorage}

theorem parallel_empty : empty.Parallel :=
  ⟨indexed_empty, rfl, rfl, rfl, rfl, rfl⟩

theorem Parallel.spawn (parallel : storage.Parallel) (params : EntitySpawnParams)
    (room : storage.ids.length < sparseSentinel.toNat) : (storage.spawn params).2.Parallel := by
  have indexed := indexed_spawn parallel.indexed params room
  by_cases free : storage.sparseToDense params.id = sparseSentinel
  · rw [SoaEntityStorage.spawn, if_pos free] at indexed ⊢
    refine ⟨indexed, ?_, ?_, ?_, ?_, ?_⟩
    · simp only [length_append, length_singleton, parallel.accelerations]
    · simp only [length_append, length_singleton, parallel.headings]
    · simp only [length_append, length_singleton, parallel.flags]
    · simp only [length_append, length_singleton, parallel.health]
    simp only [length_append, length_singleton, parallel.maxHealth]
  rw [SoaEntityStorage.spawn, if_neg free]
  exact parallel

private theorem getElem?_swapRemove_parallel {α β : Type*} {items : List α} {ids : List β}
    {index : Nat} (same : items.length = ids.length) (inside : index < ids.length) {other : Nat}
    (remains : other < ids.length - 1) :
    (swapRemove items index)[other]? = items[if other = index then ids.length - 1 else other]? := by
  rw [getElem?_swapRemove (same ▸ inside), same, if_pos remains]
  split <;> rfl

variable {id : UInt32}

theorem despawn_of_some (parallel : storage.Parallel) {denseIdx : Nat}
    (found : storage.lookupIndex id = some denseIdx) :
    ∃ removedCold, storage.coldData[denseIdx]? = some removedCold ∧
      storage.despawn id = (.ok removedCold,
        { ids := swapRemove storage.ids denseIdx
          positions := swapRemove storage.positions denseIdx
          velocities := swapRemove storage.velocities denseIdx
          accelerations := swapRemove storage.accelerations denseIdx
          headings := swapRemove storage.headings denseIdx
          flags := swapRemove storage.flags denseIdx
          health := swapRemove storage.health denseIdx
          maxHealth := swapRemove storage.maxHealth denseIdx
          coldData := swapRemove storage.coldData denseIdx
          sparseToDense := (storage.despawn id).2.sparseToDense }) := by
  have held := (parallel.indexed.lookup id denseIdx).mp found
  have inside : denseIdx < storage.ids.length := (List.getElem?_eq_some_iff.mp held).1
  have insideCold : denseIdx < storage.coldData.length := by
    rw [parallel.indexed.coldData]
    exact inside
  have coldHeld := List.getElem?_eq_getElem insideCold
  refine ⟨_, coldHeld, ?_⟩
  rw [SoaEntityStorage.despawn, found]
  simp only [held, coldHeld]

theorem despawn_of_none (free : storage.lookupIndex id = none) :
    storage.despawn id = (.error (.entityNotFound id), storage) := by
  rw [SoaEntityStorage.despawn, free]

section

variable (parallel : storage.Parallel)
include parallel

theorem Parallel.despawn (id : UInt32) : (storage.despawn id).2.Parallel := by
  have indexed := indexed_despawn parallel.indexed id
  rcases found : storage.lookupIndex id with _ | denseIdx
  · rw [despawn_of_none found]
    exact parallel
  obtain ⟨removedCold, -, result⟩ := despawn_of_some parallel found
  have held := (parallel.indexed.lookup id denseIdx).mp found
  have inside : denseIdx < storage.ids.length := (List.getElem?_eq_some_iff.mp held).1
  refine ⟨indexed, ?_, ?_, ?_, ?_, ?_⟩
  · rw [result]
    exact length_swapRemove_of_eq parallel.accelerations inside
  · rw [result]
    exact length_swapRemove_of_eq parallel.headings inside
  · rw [result]
    exact length_swapRemove_of_eq parallel.flags inside
  · rw [result]
    exact length_swapRemove_of_eq parallel.health inside
  rw [result]
  exact length_swapRemove_of_eq parallel.maxHealth inside

theorem Parallel.stepKinematics (dt : Fixed64) : (storage.stepKinematics dt).Parallel := by
  have positions : (storage.stepKinematics dt).positions.length = storage.ids.length := by
    rw [positions_stepKinematics, updateBelow, length_updateWhere, parallel.indexed.positions]
  exact ⟨⟨positions, parallel.indexed.velocities, parallel.indexed.coldData,
    parallel.indexed.lookup⟩, parallel.accelerations, parallel.headings, parallel.flags,
    parallel.health, parallel.maxHealth⟩

theorem Parallel.componentsOf_of_some {denseIdx : Nat}
    (found : storage.lookupIndex id = some denseIdx) :
    ∃ components, storage.componentsOf id = some components := by
  have held := (parallel.indexed.lookup id denseIdx).mp found
  have inside : denseIdx < storage.ids.length := (List.getElem?_eq_some_iff.mp held).1
  have entry : ∀ {β : Type} {items : List β}, items.length = storage.ids.length →
      ∃ item, items[denseIdx]? = some item := by
    intro β items same
    exact ⟨_, List.getElem?_eq_getElem (same ▸ inside)⟩
  obtain ⟨position, positionHeld⟩ := entry parallel.indexed.positions
  obtain ⟨velocity, velocityHeld⟩ := entry parallel.indexed.velocities
  obtain ⟨acceleration, accelerationHeld⟩ := entry parallel.accelerations
  obtain ⟨heading, headingHeld⟩ := entry parallel.headings
  obtain ⟨flags, flagsHeld⟩ := entry parallel.flags
  obtain ⟨health, healthHeld⟩ := entry parallel.health
  obtain ⟨maxHealth, maxHealthHeld⟩ := entry parallel.maxHealth
  obtain ⟨cold, coldHeld⟩ := entry parallel.indexed.coldData
  refine ⟨⟨position, velocity, acceleration, heading, flags, health, maxHealth, cold⟩, ?_⟩
  rw [componentsOf, found, Option.bind_some, componentsAt, positionHeld, velocityHeld,
    accelerationHeld, headingHeld, flagsHeld, healthHeld, maxHealthHeld, coldHeld]
  rfl

theorem componentsOf_despawn (id other : UInt32) : (storage.despawn id).2.componentsOf other =
      if other = id then none else storage.componentsOf other := by
  rcases found : storage.lookupIndex id with _ | denseIdx
  · rw [despawn_of_none found]
    split
    · rename_i same
      rw [same, componentsOf, found, Option.bind_none]
    rfl
  obtain ⟨removedCold, -, result⟩ := despawn_of_some parallel found
  have held := (parallel.indexed.lookup id denseIdx).mp found
  have inside : denseIdx < storage.ids.length := (List.getElem?_eq_some_iff.mp held).1
  have after := (parallel.despawn id).indexed.lookup
  have idsAfter : (storage.despawn id).2.ids = swapRemove storage.ids denseIdx := by
    rw [result]
  rw [idsAfter] at after
  apply bind_swapRemove parallel.indexed.lookup held after
  intro index remains
  rw [result]
  simp only [componentsAt, getElem?_swapRemove_parallel parallel.indexed.positions inside remains,
    getElem?_swapRemove_parallel parallel.indexed.velocities inside remains,
    getElem?_swapRemove_parallel parallel.accelerations inside remains,
    getElem?_swapRemove_parallel parallel.headings inside remains,
    getElem?_swapRemove_parallel parallel.flags inside remains,
    getElem?_swapRemove_parallel parallel.health inside remains,
    getElem?_swapRemove_parallel parallel.maxHealth inside remains,
    getElem?_swapRemove_parallel parallel.indexed.coldData inside remains]
  split <;> rfl

end

end SoaEntityStorage

end Eidolon.World
