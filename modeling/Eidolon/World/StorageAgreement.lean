import Eidolon.World.AlignedStorage

/-!
# The two storages of entities agree

The arrays of one storage are the columns of the blocks of the other, with one table, so that
any calls have the same replies and leave the same entities in both.
-/

namespace Eidolon.World

open Core Library List Option

theorem map_swapRemove {α β : Type*} (project : α → β) (items : List α) (index : Nat) :
    (swapRemove items index).map project = swapRemove (items.map project) index := by
  rw [swapRemove, swapRemove, getLast?_map]
  rcases items.getLast? with _ | last
  · rfl
  simp only [map_some]
  rw [map_dropLast, map_set]

/-- A call of either storage; health has other widths in the blocks, and the arrays have no
generation. -/
inductive StorageCall where
  | spawn (params : EntitySpawnParams) (health maxHealth generation : UInt16)
  | despawn (id : UInt32)
  | stepKinematics (dt : Fixed64)

inductive StorageReply where
  | spawned (denseIdx : Nat)
  | despawned (cold : ColdEntityMetadata)
  | stepped

def SoaEntityStorage.call (storage : SoaEntityStorage) :
    StorageCall → Except WorldError StorageReply × SoaEntityStorage
  | .spawn params _ _ _ => ((storage.spawn params).1.map .spawned, (storage.spawn params).2)
  | .despawn id => ((storage.despawn id).1.map .despawned, (storage.despawn id).2)
  | .stepKinematics dt => (.ok .stepped, storage.stepKinematics dt)

def EntitySpawnParams.block (params : EntitySpawnParams) (health maxHealth generation : UInt16) :
    AlignedEntityBlock64 where
  position := params.position
  velocity := params.velocity
  entityId := params.id
  heading := params.heading
  flags := params.flags
  health := health
  maxHealth := maxHealth
  generation := generation

namespace AlignedBlockStorage

def call (storage : AlignedBlockStorage) :
    StorageCall → Except WorldError StorageReply × AlignedBlockStorage
  | .spawn params health maxHealth generation =>
    ((storage.spawn (params.block health maxHealth generation) params.cold).1.map .spawned,
      (storage.spawn (params.block health maxHealth generation) params.cold).2)
  | .despawn id => ((storage.despawn id).1.map .despawned, (storage.despawn id).2)
  | .stepKinematics dt => (.ok .stepped, storage.stepKinematics dt)

variable (storage : AlignedBlockStorage)

def componentsAt (index : Nat) : Option (AlignedEntityBlock64 × ColdEntityMetadata) := do
  let block ← storage.blocks[index]?
  let cold ← storage.coldData[index]?
  return (block, cold)

def componentsOf (id : UInt32) : Option (AlignedEntityBlock64 × ColdEntityMetadata) :=
  (storage.lookupIndex id).bind storage.componentsAt

def motionOf (id : UInt32) : Option EntityMotion := do
  let block ← storage.getBlock id
  return ⟨block.position, block.velocity, block.heading, block.flags⟩

structure Indexed (storage : AlignedBlockStorage) : Prop where
  coldData : storage.coldData.length = storage.blocks.length
  lookup : ∀ id index, storage.lookupIndex id = some index ↔
    (storage.blocks.map AlignedEntityBlock64.entityId)[index]? = some id

theorem despawn_of_none {storage : AlignedBlockStorage} {id : UInt32}
    (free : storage.lookupIndex id = none) :
    storage.despawn id = (.error (.entityNotFound id), storage) := by
  rw [AlignedBlockStorage.despawn, free]

end AlignedBlockStorage

structure Storages where
  soa : SoaEntityStorage
  aligned : AlignedBlockStorage

namespace Storages

def empty : Storages where
  soa := .empty
  aligned := .empty

def step (storages : Storages) (call : StorageCall) : Storages where
  soa := (storages.soa.call call).2
  aligned := (storages.aligned.call call).2

/-- An index for one more entity is not the sentinel. -/
def HasRoom (storages : Storages) : StorageCall → Prop
  | .spawn .. => storages.soa.ids.length < sparseSentinel.toNat
  | _ => True

/-- Both storages are in order and represent one map. -/
structure Sound (storages : Storages) : Prop where
  parallel : storages.soa.Parallel
  indexed : storages.aligned.Indexed
  sameMotion : ∀ id, storages.soa.motionOf id = storages.aligned.motionOf id

/-- What a call should do in both storages. -/
structure Behaves (storages : Storages) (call : StorageCall) : Prop where
  sameReply : (storages.soa.call call).1 = (storages.aligned.call call).1
  keptOnError : ∀ error, (storages.soa.call call).1 = .error error →
    (storages.step call).soa = storages.soa ∧ (storages.step call).aligned = storages.aligned
  despawnsLive : ∀ id, call = .despawn id →
    ((∃ reply, (storages.soa.call call).1 = .ok reply) ↔
      ∃ components, storages.soa.componentsOf id = some components)
  despawnsOne : ∀ id, call = .despawn id → ∀ other,
    (storages.step call).soa.componentsOf other =
        (if other = id then none else storages.soa.componentsOf other) ∧
      (storages.step call).aligned.componentsOf other =
        if other = id then none else storages.aligned.componentsOf other

end Storages

structure Mirrors (soa : SoaEntityStorage) (aligned : AlignedBlockStorage) : Prop where
  ids : soa.ids = aligned.blocks.map AlignedEntityBlock64.entityId
  positions : soa.positions = aligned.blocks.map AlignedEntityBlock64.position
  velocities : soa.velocities = aligned.blocks.map AlignedEntityBlock64.velocity
  headings : soa.headings = aligned.blocks.map AlignedEntityBlock64.heading
  flags : soa.flags = aligned.blocks.map AlignedEntityBlock64.flags
  coldData : soa.coldData = aligned.coldData
  table : soa.sparseToDense = aligned.sparseToDense

namespace Mirrors

variable {soa : SoaEntityStorage} {aligned : AlignedBlockStorage}

theorem empty : Mirrors .empty .empty :=
  ⟨rfl, rfl, rfl, rfl, rfl, rfl, rfl⟩

section

variable (mirrors : Mirrors soa aligned)
include mirrors

theorem lookupIndex_eq (id : UInt32) : soa.lookupIndex id = aligned.lookupIndex id := by
  rw [SoaEntityStorage.lookupIndex, AlignedBlockStorage.lookupIndex, mirrors.table]

theorem indexed (parallel : soa.Parallel) : aligned.Indexed := by
  constructor
  · rw [← mirrors.coldData, parallel.indexed.coldData, mirrors.ids, length_map]
  intro id index
  rw [← mirrors.lookupIndex_eq, ← mirrors.ids]
  exact parallel.indexed.lookup id index

theorem motionOf_eq (id : UInt32) : soa.motionOf id = aligned.motionOf id := by
  rw [SoaEntityStorage.motionOf, AlignedBlockStorage.motionOf, AlignedBlockStorage.getBlock,
    ← mirrors.lookupIndex_eq, mirrors.positions, mirrors.velocities, mirrors.headings,
    mirrors.flags]
  rcases soa.lookupIndex id with _ | index
  · rfl
  simp only [bind_eq_bind, bind_some, getElem?_map]
  cases aligned.blocks[index]? with
  | _ => rfl

theorem spawn (params : EntitySpawnParams) (health maxHealth generation : UInt16) :
    (soa.spawn params).1 =
        (aligned.spawn (params.block health maxHealth generation) params.cold).1 ∧
      Mirrors (soa.spawn params).2
        (aligned.spawn (params.block health maxHealth generation) params.cold).2 := by
  have size : soa.ids.length = aligned.blocks.length := by
    rw [mirrors.ids, length_map]
  have sameId : (params.block health maxHealth generation).entityId = params.id := rfl
  rw [SoaEntityStorage.spawn, AlignedBlockStorage.spawn, ← mirrors.table, sameId]
  by_cases free : soa.sparseToDense params.id = sparseSentinel
  · rw [if_pos free, if_pos free, size]
    refine ⟨rfl, ?_⟩
    constructor
    · rw [mirrors.ids, map_append]
      rfl
    · rw [mirrors.positions, map_append]
      rfl
    · rw [mirrors.velocities, map_append]
      rfl
    · rw [mirrors.headings, map_append]
      rfl
    · rw [mirrors.flags, map_append]
      rfl
    · rw [mirrors.coldData]
    rfl
  rw [if_neg free, if_neg free]
  exact ⟨rfl, mirrors⟩

private theorem despawn_of_some (parallel : soa.Parallel) {id : UInt32} {denseIdx : Nat}
    (found : soa.lookupIndex id = some denseIdx) :
    (soa.despawn id).1 = (aligned.despawn id).1 ∧
      Mirrors (soa.despawn id).2 (aligned.despawn id).2 := by
  have held := (parallel.indexed.lookup id denseIdx).mp found
  obtain ⟨removedCold, coldHeld, -⟩ := SoaEntityStorage.despawn_of_some parallel found
  obtain ⟨block, blockHeld, isId⟩ : ∃ block, aligned.blocks[denseIdx]? = some block ∧
      block.entityId = id := by
    rw [mirrors.ids, getElem?_map, map_eq_some_iff] at held
    exact held
  have swapped : (swapRemove soa.ids denseIdx)[denseIdx]? =
      (swapRemove aligned.blocks denseIdx)[denseIdx]?.map AlignedEntityBlock64.entityId := by
    rw [mirrors.ids, ← map_swapRemove, getElem?_map]
  have size : soa.ids.length = aligned.blocks.length := by
    rw [mirrors.ids, length_map]
  have foundAligned := mirrors.lookupIndex_eq id
  rw [found] at foundAligned
  rw [SoaEntityStorage.despawn, found, AlignedBlockStorage.despawn, ← foundAligned]
  simp only [held, coldHeld, blockHeld, ← mirrors.coldData]
  refine ⟨trivial, ?_⟩
  constructor
  · rw [mirrors.ids, map_swapRemove]
  · rw [mirrors.positions, map_swapRemove]
  · rw [mirrors.velocities, map_swapRemove]
  · rw [mirrors.headings, map_swapRemove]
  · rw [mirrors.flags, map_swapRemove]
  · rfl
  rw [swapped, size, mirrors.table]
  cases (swapRemove aligned.blocks denseIdx)[denseIdx]? with
  | _ => rfl

theorem despawn (parallel : soa.Parallel) (id : UInt32) :
    (soa.despawn id).1 = (aligned.despawn id).1 ∧
      Mirrors (soa.despawn id).2 (aligned.despawn id).2 := by
  cases found : soa.lookupIndex id with
  | none =>
    have foundAligned := mirrors.lookupIndex_eq id
    rw [found] at foundAligned
    rw [SoaEntityStorage.despawn_of_none found,
      AlignedBlockStorage.despawn_of_none foundAligned.symm]
    exact ⟨rfl, mirrors⟩
  | some denseIdx => exact mirrors.despawn_of_some parallel found

theorem stepKinematics (dt : Fixed64) :
    Mirrors (soa.stepKinematics dt) (aligned.stepKinematics dt) := by
  have column : ∀ {β : Type} (project : AlignedEntityBlock64 → β),
      (∀ block : AlignedEntityBlock64, project (block.step dt) = project block) →
      aligned.blocks.map project = (aligned.stepKinematics dt).blocks.map project := by
    intro β project kept
    rw [AlignedBlockStorage.stepKinematics, List.map_map]
    apply map_congr_left
    intro block _
    exact (kept block).symm
  constructor
  · exact mirrors.ids.trans (column _ fun _ => rfl)
  · rw [SoaEntityStorage.positions_stepKinematics, mirrors.positions, mirrors.velocities,
      AlignedBlockStorage.stepKinematics, List.map_map]
    apply ext_getElem?
    intro index
    rw [updateBelow, getElem?_updateWhere, getElem?_map, getElem?_map, length_map]
    rcases held : aligned.blocks[index]? with _ | block
    · rfl
    have inside : index < aligned.blocks.length := (List.getElem?_eq_some_iff.mp held).1
    simp only [map_some, decide_eq_true inside, if_true, SoaEntityStorage.displace,
      getElem?_map, held]
    rfl
  · exact mirrors.velocities.trans (column _ fun _ => rfl)
  · exact mirrors.headings.trans (column _ fun _ => rfl)
  · exact mirrors.flags.trans (column _ fun _ => rfl)
  · exact mirrors.coldData
  exact mirrors.table

theorem componentsOf_despawn (parallel : soa.Parallel) (id other : UInt32) :
    (aligned.despawn id).2.componentsOf other =
      if other = id then none else aligned.componentsOf other := by
  have indexed := mirrors.indexed parallel
  have indexedAfter := (mirrors.despawn parallel id).2.indexed (parallel.despawn id)
  rcases found : aligned.lookupIndex id with _ | denseIdx
  · rw [AlignedBlockStorage.despawn_of_none found]
    split
    · rename_i same
      rw [same, AlignedBlockStorage.componentsOf, found, bind_none]
    rfl
  have held := (indexed.lookup id denseIdx).mp found
  have inside : denseIdx < aligned.blocks.length := by
    have below := (List.getElem?_eq_some_iff.mp held).1
    rwa [length_map] at below
  have insideCold : denseIdx < aligned.coldData.length := by
    rw [indexed.coldData]
    exact inside
  have blocksAfter : (aligned.despawn id).2.blocks = swapRemove aligned.blocks denseIdx := by
    rw [AlignedBlockStorage.despawn, found]
    simp only [getElem?_eq_getElem inside, getElem?_eq_getElem insideCold]
  have coldAfter : (aligned.despawn id).2.coldData = swapRemove aligned.coldData denseIdx := by
    rw [AlignedBlockStorage.despawn, found]
    simp only [getElem?_eq_getElem inside, getElem?_eq_getElem insideCold]
  have after := indexedAfter.lookup
  rw [blocksAfter, map_swapRemove] at after
  apply bind_swapRemove indexed.lookup held after
  intro index remains
  rw [length_map] at remains ⊢
  rw [AlignedBlockStorage.componentsAt, blocksAfter, coldAfter, getElem?_swapRemove inside,
    getElem?_swapRemove insideCold, indexed.coldData, if_pos remains]
  split <;> rw [AlignedBlockStorage.componentsAt]

end

end Mirrors

namespace Storages

variable {storages : Storages}

structure Coupled (storages : Storages) : Prop where
  parallel : storages.soa.Parallel
  mirrors : Mirrors storages.soa storages.aligned

theorem coupled_empty : empty.Coupled :=
  ⟨SoaEntityStorage.parallel_empty, Mirrors.empty⟩

section

variable (coupled : storages.Coupled)
include coupled

theorem Coupled.sound : storages.Sound :=
  ⟨coupled.parallel, coupled.mirrors.indexed coupled.parallel, coupled.mirrors.motionOf_eq⟩

theorem Coupled.step {call : StorageCall} (room : storages.HasRoom call) :
    (storages.step call).Coupled := by
  cases call with
  | spawn params health maxHealth generation =>
    exact ⟨coupled.parallel.spawn params room,
      (coupled.mirrors.spawn params health maxHealth generation).2⟩
  | despawn id =>
    exact ⟨coupled.parallel.despawn id, (coupled.mirrors.despawn coupled.parallel id).2⟩
  | stepKinematics dt =>
    exact ⟨coupled.parallel.stepKinematics dt, coupled.mirrors.stepKinematics dt⟩

theorem Coupled.sameReply (call : StorageCall) :
    (storages.soa.call call).1 = (storages.aligned.call call).1 := by
  cases call with
  | spawn params health maxHealth generation =>
    rw [SoaEntityStorage.call, AlignedBlockStorage.call,
      (coupled.mirrors.spawn params health maxHealth generation).1]
  | despawn id =>
    rw [SoaEntityStorage.call, AlignedBlockStorage.call,
      (coupled.mirrors.despawn coupled.parallel id).1]
  | stepKinematics dt => rfl

theorem Coupled.keptOnError {call : StorageCall} {error : WorldError}
    (failed : (storages.soa.call call).1 = .error error) :
    (storages.step call).soa = storages.soa ∧ (storages.step call).aligned = storages.aligned := by
  cases call with
  | spawn params health maxHealth generation =>
    have sameId : (params.block health maxHealth generation).entityId = params.id := rfl
    rw [SoaEntityStorage.call, SoaEntityStorage.spawn] at failed
    rw [Storages.step, SoaEntityStorage.call, AlignedBlockStorage.call,
      SoaEntityStorage.spawn, AlignedBlockStorage.spawn, ← coupled.mirrors.table, sameId]
    by_cases free : storages.soa.sparseToDense params.id = sparseSentinel
    · rw [if_pos free] at failed
      cases failed
    rw [if_neg free, if_neg free]
    exact ⟨rfl, rfl⟩
  | despawn id =>
    rw [SoaEntityStorage.call] at failed
    rw [Storages.step, SoaEntityStorage.call, AlignedBlockStorage.call]
    rcases found : storages.soa.lookupIndex id with _ | denseIdx
    · have foundAligned := coupled.mirrors.lookupIndex_eq id
      rw [found] at foundAligned
      rw [SoaEntityStorage.despawn_of_none found,
        AlignedBlockStorage.despawn_of_none foundAligned.symm]
      exact ⟨rfl, rfl⟩
    obtain ⟨removedCold, -, result⟩ :=
      SoaEntityStorage.despawn_of_some coupled.parallel found
    rw [result] at failed
    cases failed
  | stepKinematics dt => cases failed

theorem Coupled.despawnsLive (id : UInt32) :
    (∃ reply, (storages.soa.call (.despawn id)).1 = .ok reply) ↔
      ∃ components, storages.soa.componentsOf id = some components := by
  rw [SoaEntityStorage.call]
  rcases found : storages.soa.lookupIndex id with _ | denseIdx
  · rw [SoaEntityStorage.despawn_of_none found, SoaEntityStorage.componentsOf, found]
    constructor
    · rintro ⟨reply, isOk⟩
      cases isOk
    rintro ⟨components, there⟩
    cases there
  obtain ⟨removedCold, -, result⟩ :=
    SoaEntityStorage.despawn_of_some coupled.parallel found
  obtain ⟨components, there⟩ := coupled.parallel.componentsOf_of_some found
  rw [result, there]
  exact iff_of_true ⟨_, rfl⟩ ⟨_, rfl⟩

theorem Coupled.behaves (call : StorageCall) : storages.Behaves call := by
  refine ⟨coupled.sameReply call, fun error failed => coupled.keptOnError failed, ?_, ?_⟩
  · rintro id rfl
    exact coupled.despawnsLive id
  rintro id rfl other
  exact ⟨SoaEntityStorage.componentsOf_despawn coupled.parallel id other,
    coupled.mirrors.componentsOf_despawn coupled.parallel id other⟩

end

/-- Whatever the calls, both storages give the same replies and hold the same entities. -/
theorem agree {calls : List StorageCall} (room : EachStep step HasRoom empty calls) :
    Throughout step Sound empty calls ∧ EachStep step Behaves empty calls := by
  have preserved : ∀ (storages : Storages) (call : StorageCall),
      storages.Coupled → storages.HasRoom call → (storages.step call).Coupled :=
    fun _ _ coupled room => coupled.step room
  have coupled : Throughout step Coupled empty calls :=
    throughout_of_eachStep preserved coupled_empty room
  refine ⟨coupled.imp fun _ now => now.sound, ?_⟩
  exact eachStep_of_invariant preserved (fun _ call now _ => now.behaves call) coupled_empty room

/-- An entity that moves one along each axis in a unit of time. -/
def wanderer (id : UInt32) : EntitySpawnParams where
  id := id
  position := ⟨.zero, .zero, .zero⟩
  velocity := ⟨.one, .one, .one⟩
  acceleration := ⟨.zero, .zero, .zero⟩
  heading := ⟨64⟩
  flags := 1
  health := 100
  maxHealth := 100
  cold :=
    { accountId := none
      sessionId := none
      guildId := none
      equipment := .new
      name := "" }

/-- Two entities are spawned and step, and the first leaves its index to the second. -/
theorem agree_wanderers :
    Throughout step Sound empty [.spawn (wanderer 7) 100 100 0, .spawn (wanderer 9) 100 100 0,
        .stepKinematics .one, .despawn 7, .despawn 7, .stepKinematics .one] ∧
      EachStep step Behaves empty [.spawn (wanderer 7) 100 100 0,
        .spawn (wanderer 9) 100 100 0, .stepKinematics .one, .despawn 7, .despawn 7,
        .stepKinematics .one] := by
  apply agree
  refine ⟨?_, ?_, trivial, trivial, trivial, trivial, trivial⟩
  · exact Nat.zero_lt_succ _
  exact Nat.succ_lt_succ (Nat.zero_lt_succ _)

end Storages

end Eidolon.World
