import Mathlib.Data.UInt
import Eidolon.Core.Quant
import Eidolon.Core.Simd
import Eidolon.Library.Slices
import Eidolon.World.Equipment

/-!
# Storage of entities in parallel arrays

Entities in dense arrays, one for each component, with a table from identifiers to indices.
The table is a function, which is the sentinel for what it has no entry for.
-/

namespace Eidolon.World

open Core Function Option

def sparseSentinel : UInt32 := 0xFFFFFFFF

structure ColdEntityMetadata where
  accountId : Option UInt64
  sessionId : Option UInt64
  guildId : Option UInt32
  equipment : EquipmentContainer
  name : String

structure EntitySpawnParams where
  id : UInt32
  position : Vec3Fix
  velocity : Vec3Fix
  acceleration : Vec3Fix
  heading : QuantizedYaw
  flags : UInt8
  health : UInt32
  maxHealth : UInt32
  cold : ColdEntityMetadata

structure SoaEntityStorage where
  ids : List UInt32
  positions : List Vec3Fix
  velocities : List Vec3Fix
  accelerations : List Vec3Fix
  headings : List QuantizedYaw
  flags : List UInt8
  health : List UInt32
  maxHealth : List UInt32
  coldData : List ColdEntityMetadata
  sparseToDense : UInt32 → UInt32

def swapRemove {α : Type*} (items : List α) (index : Nat) : List α :=
  match items.getLast? with
  | none => items
  | some last => (items.set index last).dropLast

namespace SoaEntityStorage

def empty : SoaEntityStorage where
  ids := []
  positions := []
  velocities := []
  accelerations := []
  headings := []
  flags := []
  health := []
  maxHealth := []
  coldData := []
  sparseToDense := fun _ => sparseSentinel

variable (storage : SoaEntityStorage)

def lookupIndex (id : UInt32) : Option Nat :=
  let denseIdx := storage.sparseToDense id
  if denseIdx = sparseSentinel then none else some denseIdx.toNat

def spawn (params : EntitySpawnParams) : Except WorldError Nat × SoaEntityStorage :=
  if storage.sparseToDense params.id = sparseSentinel then
    let denseIdx := storage.ids.length
    (.ok denseIdx,
      { ids := storage.ids ++ [params.id]
        positions := storage.positions ++ [params.position]
        velocities := storage.velocities ++ [params.velocity]
        accelerations := storage.accelerations ++ [params.acceleration]
        headings := storage.headings ++ [params.heading]
        flags := storage.flags ++ [params.flags]
        health := storage.health ++ [params.health]
        maxHealth := storage.maxHealth ++ [params.maxHealth]
        coldData := storage.coldData ++ [params.cold]
        sparseToDense :=
          Function.update storage.sparseToDense params.id (UInt32.ofNat denseIdx) })
  else
    (.error (.entityAlreadyExists params.id), storage)

def despawn (id : UInt32) : Except WorldError ColdEntityMetadata × SoaEntityStorage :=
  match storage.lookupIndex id with
  | none => (.error (.entityNotFound id), storage)
  | some denseIdx =>
    let lastIdx := storage.ids.length - 1
    match storage.ids[denseIdx]?, storage.coldData[denseIdx]? with
    | some removedId, some removedCold =>
      let ids := swapRemove storage.ids denseIdx
      let cleared := Function.update storage.sparseToDense removedId sparseSentinel
      let sparseToDense :=
        if denseIdx < lastIdx then
          match ids[denseIdx]? with
          | none => cleared
          | some swappedId => Function.update cleared swappedId (UInt32.ofNat denseIdx)
        else cleared
      (.ok removedCold,
        { ids := ids
          positions := swapRemove storage.positions denseIdx
          velocities := swapRemove storage.velocities denseIdx
          accelerations := swapRemove storage.accelerations denseIdx
          headings := swapRemove storage.headings denseIdx
          flags := swapRemove storage.flags denseIdx
          health := swapRemove storage.health denseIdx
          maxHealth := swapRemove storage.maxHealth denseIdx
          coldData := swapRemove storage.coldData denseIdx
          sparseToDense := sparseToDense })
    -- an index outside of the arrays, where the source panics
    | _, _ => (.error (.entityNotFound id), storage)

def setTransform (id : UInt32) (pos vel : Vec3Fix) (heading : QuantizedYaw) :
    Bool × SoaEntityStorage :=
  match storage.lookupIndex id with
  | none => (false, storage)
  | some idx =>
    (true,
      { storage with
        positions := storage.positions.set idx pos
        velocities := storage.velocities.set idx vel
        headings := storage.headings.set idx heading })

def stepLanes (lanes start : Nat) (velocities : List Vec3Fix) (dt : Fixed64)
    (positions : List Vec3Fix) : List Vec3Fix :=
  let zero : Vec3Fix := { x := Fixed64.zero, y := Fixed64.zero, z := Fixed64.zero }
  let stepped : Fin lanes → Vec3Fix :=
    Vec3FixLanes.stepKinematicsChunk (fun lane => positions.getD (start + lane) zero)
      (fun lane => velocities.getD (start + lane) zero) dt
  positions.mapIdx fun index position =>
    if inside : start ≤ index ∧ index < start + lanes then
      stepped ⟨index - start, by omega⟩
    else position

def stepOne (velocities : List Vec3Fix) (dt : Fixed64) (positions : List Vec3Fix)
    (index : Nat) : List Vec3Fix :=
  match velocities[index]? with
  | none => positions
  | some velocity => positions.modify index fun position => position.add (velocity.scale dt)

variable (dt : Fixed64)

/-- Chunks of 16, then one of 8 if it fits, then the rest one by one. -/
def stepKinematicsSimd16x : SoaEntityStorage :=
  let count := storage.positions.length
  let chunks16 := count / 16
  let afterChunks := (List.range chunks16).foldl (fun positions chunk =>
    stepLanes 16 (chunk * 16) storage.velocities dt positions) storage.positions
  let offset := chunks16 * 16
  let (afterEight, offset) :=
    if 8 ≤ count - offset then
      (stepLanes 8 offset storage.velocities dt afterChunks, offset + 8)
    else (afterChunks, offset)
  { storage with
    positions := (List.range' offset (count - offset)).foldl
      (stepOne storage.velocities dt) afterEight }

def stepKinematicsSimd8x : SoaEntityStorage :=
  let count := storage.positions.length
  let chunks := count / 8
  let afterChunks := (List.range chunks).foldl (fun positions chunk =>
    stepLanes 8 (chunk * 8) storage.velocities dt positions) storage.positions
  { storage with
    positions := (List.range' (chunks * 8) (count - chunks * 8)).foldl
      (stepOne storage.velocities dt) afterChunks }

def stepKinematicsScalar : SoaEntityStorage :=
  { storage with
    positions := (List.range storage.positions.length).foldl
      (stepOne storage.velocities dt) storage.positions }

def stepKinematics : SoaEntityStorage :=
  storage.stepKinematicsSimd16x dt

end SoaEntityStorage

end Eidolon.World

/-!
## Indices and steps of the storage

Spawning and despawning keep the table of identifiers right, and the blocks of a step
together step every position once.
-/

namespace Eidolon.World

open Core Function Library Option
open scoped List

section SwapRemove

variable {α : Type*} {items : List α} {index : Nat}

theorem swapRemove_eq (inside : index < items.length) :
    ∃ last, items[items.length - 1]? = some last ∧
      swapRemove items index = (items.set index last).dropLast := by
  rcases found : items.getLast? with _ | last
  · rw [List.getLast?_eq_none_iff] at found
    rw [found] at inside
    exact absurd inside (Nat.not_lt_zero index)
  refine ⟨last, ?_, ?_⟩
  · rw [← List.getLast?_eq_getElem?, found]
  rw [swapRemove, found]

theorem length_swapRemove (inside : index < items.length) :
    (swapRemove items index).length = items.length - 1 := by
  obtain ⟨last, _, same⟩ := swapRemove_eq inside
  rw [same, List.length_dropLast, List.length_set]

theorem getElem?_swapRemove (inside : index < items.length) (other : Nat) :
    (swapRemove items index)[other]? =
      if other < items.length - 1 then
        (if other = index then items[items.length - 1]? else items[other]?)
      else none := by
  obtain ⟨last, lastIs, same⟩ := swapRemove_eq inside
  rw [same, List.getElem?_dropLast, List.length_set, lastIs]
  by_cases remains : other < items.length - 1
  · rw [if_pos remains, if_pos remains, List.getElem?_set]
    by_cases here : other = index
    · rw [if_pos here.symm, if_pos here, if_pos (by omega)]
    rw [if_neg (Ne.symm here), if_neg here]
  rw [if_neg remains, if_neg remains]

theorem perm_swapRemove {removed : α} (held : items[index]? = some removed) :
    items.Perm (removed :: swapRemove items index) := by
  obtain ⟨inside, isRemoved⟩ := List.getElem?_eq_some_iff.mp held
  rcases List.eq_nil_or_concat' items with rfl | ⟨init, last, rfl⟩
  · exact absurd inside (Nat.not_lt_zero index)
  have swapped : swapRemove (init ++ [last]) index =
      ((init ++ [last]).set index last).dropLast := by
    rw [swapRemove, List.getLast?_concat]
  have bound := inside
  rw [List.length_append, List.length_singleton] at bound
  rw [swapped]
  by_cases atEnd : index = init.length
  · have isLast : removed = last := by
      rw [← isRemoved]
      simp [atEnd]
    rw [isLast, atEnd, List.set_append_right _ _ (Nat.le_refl _), Nat.sub_self,
      List.set_cons_zero, List.dropLast_concat]
    exact List.perm_append_singleton last init
  have within : index < init.length := by
    omega
  have here : init[index] = removed := by
    rw [← isRemoved, List.getElem_append_left within]
  have split : init = init.take index ++ removed :: init.drop (index + 1) := by
    rw [← here, List.cons_getElem_drop_succ, List.take_append_drop]
  rw [List.set_append_left _ _ within, List.dropLast_concat,
    List.set_eq_take_append_cons_drop, if_pos within]
  calc init ++ [last]
      = (init.take index ++ removed :: init.drop (index + 1)) ++ [last] := by rw [← split]
    _ ~ (removed :: (init.take index ++ init.drop (index + 1))) ++ [last] :=
        List.perm_middle.append_right _
    _ = removed :: (init.take index ++ (init.drop (index + 1) ++ [last])) := by
        rw [List.cons_append, List.append_assoc]
    _ ~ removed :: (init.take index ++ last :: init.drop (index + 1)) :=
        ((List.perm_append_singleton _ _).append_left _).cons _

variable {entry : α → Option Nat}

theorem index_swapRemove [DecidableEq α]
    (indexes : ∀ item index, entry item = some index ↔ items[index]? = some item)
    {removed last : α} (held : items[index]? = some removed)
    (lastHeld : items[items.length - 1]? = some last) (item : α) (other : Nat) :
    (if index < items.length - 1 ∧ item = last then some index
      else if item = removed then none else entry item) = some other ↔
      (swapRemove items index)[other]? = some item := by
  have inside : index < items.length := (List.getElem?_eq_some_iff.mp held).1
  have removedEntry := (indexes removed index).mpr held
  have lastEntry := (indexes last _).mpr lastHeld
  rw [getElem?_swapRemove inside]
  by_cases remains : other < items.length - 1
  · by_cases here : other = index
    · grind
    grind
  grind

theorem index_append [DecidableEq α]
    (indexes : ∀ item index, entry item = some index ↔ items[index]? = some item) {added : α}
    (absent : entry added = none) (item : α) (other : Nat) :
    (if item = added then some items.length else entry item) = some other ↔
      (items ++ [added])[other]? = some item := by
  by_cases below : other < items.length
  · grind
  grind

/-- What is read of each item after a removal: nothing of the removed one, and of every
other one what was read before, wherever it is now. -/
theorem bind_swapRemove {β : Type*} {after : α → Option Nat}
    (indexes : ∀ item index, entry item = some index ↔ items[index]? = some item) {removed : α}
    (held : items[index]? = some removed)
    (indexesAfter : ∀ item other,
      after item = some other ↔ (swapRemove items index)[other]? = some item)
    {read readAfter : Nat → Option β}
    (swapped : ∀ other, other < items.length - 1 →
      readAfter other = if other = index then read (items.length - 1) else read other) (item : α)
    [Decidable (item = removed)] :
    (after item).bind readAfter = if item = removed then none else (entry item).bind read := by
  have inside : index < items.length := (List.getElem?_eq_some_iff.mp held).1
  have removedEntry := (indexes removed index).mpr held
  have onlyThere : ∀ other : Nat, items[other]? = some removed → other = index := by
    intro other there
    rw [← indexes, removedEntry, some.injEq] at there
    exact there.symm
  -- where an item is after the removal, there or at the end it was before
  have origin : ∀ item other, after item = some other → other < items.length - 1 ∧
      ((other = index ∧ items[items.length - 1]? = some item) ∨
        (other ≠ index ∧ items[other]? = some item)) := by
    intro item other found
    rw [indexesAfter, getElem?_swapRemove inside] at found
    split at found
    · rename_i remains
      split at found
      · exact ⟨remains, Or.inl ⟨‹_›, found⟩⟩
      exact ⟨remains, Or.inr ⟨‹_›, found⟩⟩
    cases found
  by_cases same : item = removed
  · rw [if_pos same]
    rcases found : after item with _ | other
    · rfl
    obtain ⟨remains, ⟨atGap, last⟩ | ⟨elsewhere, there⟩⟩ := origin item other found
    · rw [same] at last
      have := onlyThere _ last
      omega
    rw [same] at there
    exact absurd (onlyThere _ there) elsewhere
  rw [if_neg same]
  cases found : entry item with
  | none =>
    have absent : ∀ other : Nat, items[other]? ≠ some item := by
      intro other there
      rw [← indexes, found] at there
      cases there
    rcases foundAfter : after item with _ | other
    · rfl
    obtain ⟨-, ⟨-, last⟩ | ⟨-, there⟩⟩ := origin item other foundAfter
    · exact absurd last (absent _)
    exact absurd there (absent _)
  | some before =>
    have heldBefore := (indexes item before).mp found
    have insideBefore : before < items.length := (List.getElem?_eq_some_iff.mp heldBefore).1
    have elsewhere : before ≠ index := by
      rintro rfl
      rw [held, some.injEq] at heldBefore
      exact same heldBefore.symm
    by_cases last : before = items.length - 1
    · -- the last item is moved into the gap
      have moved : after item = some index := by
        rw [indexesAfter, getElem?_swapRemove inside, if_pos (by omega), if_pos rfl, ← last]
        exact heldBefore
      rw [moved, bind_some, bind_some, swapped index (by omega), if_pos rfl, last]
    have kept : after item = some before := by
      rw [indexesAfter, getElem?_swapRemove inside, if_pos (by omega), if_neg elsewhere]
      exact heldBefore
    rw [kept, bind_some, bind_some, swapped before (by omega), if_neg elsewhere]

end SwapRemove

namespace SoaEntityStorage

structure Indexed (storage : SoaEntityStorage) : Prop where
  positions : storage.positions.length = storage.ids.length
  velocities : storage.velocities.length = storage.ids.length
  coldData : storage.coldData.length = storage.ids.length
  lookup : ∀ id index, storage.lookupIndex id = some index ↔ storage.ids[index]? = some id

variable {storage : SoaEntityStorage}

theorem indexed_empty : empty.Indexed := by
  refine ⟨rfl, rfl, rfl, ?_⟩
  simp [empty, lookupIndex]

private def entryIndex (entry : UInt32) : Option Nat :=
  if entry = sparseSentinel then none else some entry.toNat

private theorem entryIndex_ofNat {index : Nat} (small : index < sparseSentinel.toNat) :
    entryIndex (UInt32.ofNat index) = some index := by
  have sentinel : sparseSentinel.toNat = 4294967295 := rfl
  have same : (UInt32.ofNat index).toNat = index := by
    rw [UInt32.toNat_ofNat']
    omega
  have notSentinel : UInt32.ofNat index ≠ sparseSentinel := by
    intro isSentinel
    rw [isSentinel] at same
    omega
  rw [entryIndex, if_neg notSentinel, same]

private theorem entryIndex_sentinel : entryIndex sparseSentinel = none := by
  rw [entryIndex, if_pos rfl]

private theorem lookupIndex_eq (storage : SoaEntityStorage) (id : UInt32) :
    storage.lookupIndex id = entryIndex (storage.sparseToDense id) :=
  rfl

private theorem lt_sentinel_of_lookup {id : UInt32} {index : Nat}
    (found : storage.lookupIndex id = some index) : index < sparseSentinel.toNat := by
  rw [lookupIndex_eq, entryIndex] at found
  split at found
  · cases found
  rename_i notSentinel
  rw [some.injEq] at found
  have different : (storage.sparseToDense id).toNat ≠ sparseSentinel.toNat :=
    fun same => notSentinel (UInt32.toNat_inj.mp same)
  have bound := (storage.sparseToDense id).toNat_lt
  have sentinel : sparseSentinel.toNat = 4294967295 := rfl
  omega

theorem indexed_spawn (indexed : storage.Indexed) (params : EntitySpawnParams)
    (room : storage.ids.length < sparseSentinel.toNat) : (storage.spawn params).2.Indexed := by
  rw [spawn]
  split
  · rename_i free
    refine ⟨?_, ?_, ?_, ?_⟩
    · simp only [List.length_append, List.length_singleton, indexed.positions]
    · simp only [List.length_append, List.length_singleton, indexed.velocities]
    · simp only [List.length_append, List.length_singleton, indexed.coldData]
    intro id index
    have absent : storage.lookupIndex params.id = none := by
      rw [lookupIndex_eq, free, entryIndex_sentinel]
    rw [← index_append indexed.lookup absent, lookupIndex_eq]
    simp only [update_apply]
    rw [apply_ite entryIndex, entryIndex_ofNat room]
    rfl
  exact indexed

private theorem indexed_despawn_of_some (indexed : storage.Indexed) {id : UInt32} {denseIdx : Nat}
    (found : storage.lookupIndex id = some denseIdx) : (storage.despawn id).2.Indexed := by
  have held := (indexed.lookup id denseIdx).mp found
  have inside : denseIdx < storage.ids.length := (List.getElem?_eq_some_iff.mp held).1
  have insideCold : denseIdx < storage.coldData.length := by
    rw [indexed.coldData]
    exact inside
  have insidePositions : denseIdx < storage.positions.length := by
    rw [indexed.positions]
    exact inside
  have insideVelocities : denseIdx < storage.velocities.length := by
    rw [indexed.velocities]
    exact inside
  obtain ⟨lastId, lastHeld⟩ : ∃ lastId, storage.ids[storage.ids.length - 1]? = some lastId :=
    ⟨_, List.getElem?_eq_getElem (by omega)⟩
  rw [despawn, found]
  simp only [held, List.getElem?_eq_getElem insideCold]
  refine ⟨?_, ?_, ?_, ?_⟩
  · simp only [length_swapRemove insidePositions, length_swapRemove inside, indexed.positions]
  · simp only [length_swapRemove insideVelocities, length_swapRemove inside, indexed.velocities]
  · simp only [length_swapRemove insideCold, length_swapRemove inside, indexed.coldData]
  intro other index
  rw [← index_swapRemove indexed.lookup held lastHeld, lookupIndex_eq]
  have moved : (swapRemove storage.ids denseIdx)[denseIdx]? =
      if denseIdx < storage.ids.length - 1 then some lastId else none := by
    rw [getElem?_swapRemove inside, if_pos rfl, lastHeld]
  have placed := entryIndex_ofNat (lt_sentinel_of_lookup found)
  rw [moved]
  by_cases moves : denseIdx < storage.ids.length - 1
  · rw [if_pos moves, if_pos moves]
    simp only [update_apply, moves, true_and]
    by_cases isLast : other = lastId
    · rw [if_pos isLast, if_pos isLast, placed]
    rw [if_neg isLast, if_neg isLast, apply_ite entryIndex]
    rfl
  simp only [update_apply, moves, false_and, if_false]
  rw [apply_ite entryIndex]
  rfl

theorem indexed_despawn (indexed : storage.Indexed) (id : UInt32) :
    (storage.despawn id).2.Indexed := by
  rcases found : storage.lookupIndex id with _ | denseIdx
  · rw [despawn, found]
    exact indexed
  exact indexed_despawn_of_some indexed found

def displace (velocities : List Vec3Fix) (dt : Fixed64) (index : Nat) (position : Vec3Fix) :
    Vec3Fix :=
  match velocities[index]? with
  | none => position
  | some velocity => position.add (velocity.scale dt)

variable {velocities positions : List Vec3Fix} {dt : Fixed64}

theorem add_scale_zero (position : Vec3Fix) (dt : Fixed64) :
    position.add (Vec3Fix.scale { x := Fixed64.zero, y := Fixed64.zero, z := Fixed64.zero } dt) =
      position := by
  have still : Fixed64.zero.saturatingMul dt = Fixed64.zero := by
    have product : Fixed64.zero.raw.toInt * dt.raw.toInt / Fixed64.scale = 0 := by
      change 0 * dt.raw.toInt / Fixed64.scale = 0
      rw [Int.zero_mul, Int.zero_ediv]
    rw [Fixed64.saturatingMul, product]
    rfl
  have stays : ∀ coordinate : Fixed64, coordinate.saturatingAdd Fixed64.zero = coordinate := by
    intro coordinate
    have sum : coordinate.raw.toInt + Fixed64.zero.raw.toInt = coordinate.raw.toInt :=
      Int.add_zero _
    have least := coordinate.raw.le_toInt
    have greatest := coordinate.raw.toInt_lt
    apply Fixed64.eq_of_toInt_eq
    rw [Fixed64.saturatingAdd, Fixed64.toInt_ofIntClamp, Fixed64.maxRaw]
    omega
  rw [Vec3Fix.scale, Vec3Fix.add]
  rw [still, stays, stays, stays]

theorem stepLanes_eq {lanes start : Nat} (fits : start + lanes ≤ positions.length) :
    stepLanes lanes start velocities dt positions =
      updateWhere (fun index => decide (start ≤ index ∧ index < start + lanes))
        (displace velocities dt) positions := by
  apply List.ext_getElem?
  intro index
  rw [getElem?_updateWhere, stepLanes, List.getElem?_mapIdx]
  by_cases inside : start ≤ index ∧ index < start + lanes
  · have below : index < positions.length := by omega
    have here : start + (index - start) = index := by omega
    simp only [map_some, dif_pos inside, Vec3FixLanes.stepKinematicsChunk_apply, here,
      displace, List.getD_eq_getElem?_getD, List.getElem?_eq_getElem below, getD_some,
      decide_eq_true inside, if_true]
    cases velocities[index]? with
    | none => rw [getD_none, add_scale_zero]
    | some velocity => rfl
  simp only [dif_neg inside, decide_eq_false inside, Bool.false_eq_true, if_false]

theorem stepOne_eq (index : Nat) : stepOne velocities dt positions index =
      updateWhere (fun other => other == index) (displace velocities dt) positions := by
  rw [← modify_eq_updateWhere, stepOne]
  rcases found : velocities[index]? with _ | velocity
  · have same : displace velocities dt index = id := by
      funext position
      rw [displace, found]
      rfl
    rw [same, List.modify_id]
  have same : displace velocities dt index = fun position => position.add (velocity.scale dt) := by
    funext position
    rw [displace, found]
  rw [same]

private theorem foldl_stepLanes (lanes : Nat) {number : Nat}
    (fits : number * lanes ≤ positions.length) :
    (List.range number).foldl (fun positions chunk =>
        stepLanes lanes (chunk * lanes) velocities dt positions) positions =
      updateBelow (number * lanes) (displace velocities dt) positions := by
  induction number with
  | zero =>
    rw [Nat.zero_mul, updateBelow_zero]
    rfl
  | succ number ih =>
    have fitsBefore : number * lanes + lanes ≤ positions.length := by
      rw [← Nat.succ_mul]
      exact fits
    rw [List.range_succ, List.foldl_append, ih (by omega), List.foldl_cons,
      List.foldl_nil, stepLanes_eq, updateWhere_updateBelow (Nat.le_add_right _ _),
      Nat.succ_mul]
    rw [updateBelow, length_updateWhere]
    exact fitsBefore

private theorem foldl_stepOne (offset number : Nat) :
    (List.range' offset number).foldl (stepOne velocities dt)
        (updateBelow offset (displace velocities dt) positions) =
      updateBelow (offset + number) (displace velocities dt) positions := by
  induction number generalizing offset with
  | zero => rfl
  | succ number ih =>
    have next : stepOne velocities dt (updateBelow offset (displace velocities dt) positions)
        offset = updateBelow (offset + 1) (displace velocities dt) positions := by
      rw [stepOne_eq, ← updateWhere_updateBelow (Nat.le_succ offset)]
      apply updateWhere_congr
      intro index _
      rw [beq_eq_decide, decide_eq_decide]
      omega
    rw [List.range'_succ, List.foldl_cons, next, ih, Nat.add_assoc, Nat.add_comm 1]

theorem positions_stepKinematics (storage : SoaEntityStorage) (dt : Fixed64) :
    (storage.stepKinematics dt).positions =
      updateBelow storage.positions.length (displace storage.velocities dt)
        storage.positions := by
  have chunksFit : storage.positions.length / 16 * 16 ≤ storage.positions.length :=
    Nat.div_mul_le_self _ 16
  rw [stepKinematics, stepKinematicsSimd16x]
  simp only
  rw [foldl_stepLanes 16 chunksFit]
  by_cases eight : 8 ≤ storage.positions.length - storage.positions.length / 16 * 16
  · rw [if_pos eight]
    rw [stepLanes_eq, updateWhere_updateBelow (Nat.le_add_right _ _), foldl_stepOne]
    · congr 1
      omega
    rw [updateBelow, length_updateWhere]
    omega
  rw [if_neg eight]
  rw [foldl_stepOne]
  congr 1
  omega

theorem positions_stepKinematicsSimd8x (storage : SoaEntityStorage) (dt : Fixed64) :
    (storage.stepKinematicsSimd8x dt).positions =
      updateBelow storage.positions.length (displace storage.velocities dt)
        storage.positions := by
  have chunksFit : storage.positions.length / 8 * 8 ≤ storage.positions.length :=
    Nat.div_mul_le_self _ 8
  rw [stepKinematicsSimd8x]
  rw [foldl_stepLanes 8 chunksFit, foldl_stepOne, Nat.add_sub_cancel' chunksFit]

theorem positions_stepKinematicsScalar (storage : SoaEntityStorage) (dt : Fixed64) :
    (storage.stepKinematicsScalar dt).positions =
      updateBelow storage.positions.length (displace storage.velocities dt)
        storage.positions := by
  rw [stepKinematicsScalar, List.range_eq_range']
  calc (List.range' 0 storage.positions.length).foldl (stepOne storage.velocities dt)
        storage.positions
      = (List.range' 0 storage.positions.length).foldl (stepOne storage.velocities dt)
          (updateBelow 0 (displace storage.velocities dt) storage.positions) := by
        rw [updateBelow_zero]
    _ = updateBelow (0 + storage.positions.length) (displace storage.velocities dt)
          storage.positions := foldl_stepOne 0 _
    _ = updateBelow storage.positions.length (displace storage.velocities dt)
          storage.positions := by
        rw [Nat.zero_add]

/-- The lanes of 16 and of 8 leave the storage that the scalar step leaves. -/
theorem stepKinematics_agree (storage : SoaEntityStorage) (dt : Fixed64) :
    storage.stepKinematicsSimd16x dt = storage.stepKinematicsScalar dt ∧
      storage.stepKinematicsSimd8x dt = storage.stepKinematicsScalar dt := by
  have sixteen : (storage.stepKinematicsSimd16x dt).positions =
      (storage.stepKinematicsScalar dt).positions :=
    (positions_stepKinematics storage dt).trans (positions_stepKinematicsScalar storage dt).symm
  have eight : (storage.stepKinematicsSimd8x dt).positions =
      (storage.stepKinematicsScalar dt).positions :=
    (positions_stepKinematicsSimd8x storage dt).trans
      (positions_stepKinematicsScalar storage dt).symm
  constructor
  · exact congrArg (fun positions => { storage with positions := positions }) sixteen
  exact congrArg (fun positions => { storage with positions := positions }) eight

end SoaEntityStorage

end Eidolon.World
