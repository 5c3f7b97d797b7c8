import Mathlib.Data.FinEnum
import Mathlib.Data.Set.Card
import Eidolon.Library.Grouping
import Eidolon.Spatial.Quadtree

/-!
# Cells of the hotspot quadtree

What the changes of one cell do to its lists.  A cell keeps each of its entities in one
list: the flat one, or the one of the entity's leaf once the cell is split.
-/

namespace Eidolon.Spatial

open Core Function Library List Option

namespace HotspotCell

def lists (hotspot : HotspotCell) : Option (Fin 16) → List UInt32
  | none => hotspot.flat
  | some leaf => hotspot.leaves leaf

def listOf (hotspot : HotspotCell) (leaf : Fin 16) : Option (Fin 16) :=
  if hotspot.isSplit then some leaf else none

structure Holds (hotspot : HotspotCell) (inside : UInt32 → Option (Fin 16)) : Prop where
  bucketed : Bucketed hotspot.lists fun entityId => (inside entityId).map hotspot.listOf
  leafCounted : ∀ leaf, hotspot.leafCounts leaf = (hotspot.leaves leaf).length
  counted : hotspot.entityCount = Set.ncard {entityId | (inside entityId).isSome}

variable {hotspot : HotspotCell} {inside : UInt32 → Option (Fin 16)}

theorem Holds.congr {other : UInt32 → Option (Fin 16)} (holds : hotspot.Holds inside)
    (same : ∀ entityId, inside entityId = other entityId) : hotspot.Holds other := by
  have equal : inside = other := funext same
  rw [← equal]
  exact holds

theorem holds_new (cell : CellCoord) : (new cell).Holds fun _ => none where
  bucketed := by
    have nothing : (new cell).lists = fun _ => [] := by
      funext list
      cases list with
      | _ => rfl
    rw [nothing]
    exact Bucketed.empty
  leafCounted _ := rfl
  counted := by
    simp [new]

theorem lists_pushLeaf (hotspot : HotspotCell) (leaf : Fin 16) (entityId : UInt32) :
    (hotspot.pushLeaf leaf entityId).lists =
      Function.update hotspot.lists (some leaf) (entityId :: hotspot.lists (some leaf)) := by
  funext list
  rcases list with _ | other
  · rfl
  by_cases same : other = leaf
  · rw [same, update_self]
    exact update_self _ _ _
  rw [update_of_ne (fun equal => same (some.inj equal))]
  exact update_of_ne same _ _

theorem lists_unlinkLeaf (hotspot : HotspotCell) (leaf : Fin 16) (entityId : UInt32) :
    (hotspot.unlinkLeaf leaf entityId).lists = Function.update hotspot.lists (some leaf)
        ((hotspot.lists (some leaf)).erase entityId) := by
  funext list
  rcases list with _ | other
  · rfl
  by_cases same : other = leaf
  · rw [same, update_self]
    exact update_self _ _ _
  rw [update_of_ne (fun equal => same (some.inj equal))]
  exact update_of_ne same _ _

theorem lists_flat (hotspot : HotspotCell) (flat : List UInt32) :
    ({ hotspot with flat := flat } : HotspotCell).lists =
      Function.update hotspot.lists none flat := by
  funext list
  cases list with
  | _ => rfl

theorem leafCounted_pushLeaf
    (leafCounted : ∀ leaf, hotspot.leafCounts leaf = (hotspot.leaves leaf).length) (leaf : Fin 16)
    (entityId : UInt32) (other : Fin 16) :
    (hotspot.pushLeaf leaf entityId).leafCounts other =
      ((hotspot.pushLeaf leaf entityId).leaves other).length := by
  rw [pushLeaf]
  by_cases same : other = leaf
  · rw [same]
    simp only [update_self, length_cons, leafCounted]
  simp only [update_of_ne same, leafCounted]

variable {entityId : UInt32} {leaf : Fin 16}

theorem leafCounted_unlinkLeaf
    (leafCounted : ∀ leaf, hotspot.leafCounts leaf = (hotspot.leaves leaf).length)
    (member : entityId ∈ hotspot.leaves leaf) (other : Fin 16) :
    (hotspot.unlinkLeaf leaf entityId).leafCounts other =
      ((hotspot.unlinkLeaf leaf entityId).leaves other).length := by
  rw [unlinkLeaf]
  by_cases same : other = leaf
  · rw [same]
    simp only [update_self, length_erase_of_mem member, leafCounted]
  simp only [update_of_ne same, leafCounted]

def linked (leaf : Fin 16) (entityId : UInt32) (hotspot : HotspotCell) : HotspotCell :=
  if hotspot.isSplit then
    hotspot.pushLeaf leaf entityId
  else
    { hotspot with flat := entityId :: hotspot.flat }

def unlinked (leaf : Fin 16) (entityId : UInt32) (hotspot : HotspotCell) : HotspotCell :=
  if hotspot.isSplit then
    hotspot.unlinkLeaf leaf entityId
  else
    { hotspot with flat := hotspot.flat.erase entityId }

theorem frame_linked (leaf : Fin 16) (entityId : UInt32) (hotspot : HotspotCell) :
    (hotspot.linked leaf entityId).cell = hotspot.cell ∧
      (hotspot.linked leaf entityId).isSplit = hotspot.isSplit ∧
      (hotspot.linked leaf entityId).entityCount = hotspot.entityCount := by
  rw [linked]
  split <;> exact ⟨rfl, rfl, rfl⟩

theorem frame_unlinked (leaf : Fin 16) (entityId : UInt32) (hotspot : HotspotCell) :
    (hotspot.unlinked leaf entityId).cell = hotspot.cell ∧
      (hotspot.unlinked leaf entityId).isSplit = hotspot.isSplit ∧
      (hotspot.unlinked leaf entityId).entityCount = hotspot.entityCount := by
  rw [unlinked]
  split <;> exact ⟨rfl, rfl, rfl⟩

theorem lists_linked (leaf : Fin 16) (entityId : UInt32) (hotspot : HotspotCell) :
    (hotspot.linked leaf entityId).lists = Function.update hotspot.lists (hotspot.listOf leaf)
        (entityId :: hotspot.lists (hotspot.listOf leaf)) := by
  rw [linked, listOf]
  split
  · exact lists_pushLeaf hotspot leaf entityId
  exact lists_flat hotspot _

theorem lists_unlinked (leaf : Fin 16) (entityId : UInt32) (hotspot : HotspotCell) :
    (hotspot.unlinked leaf entityId).lists = Function.update hotspot.lists (hotspot.listOf leaf)
        ((hotspot.lists (hotspot.listOf leaf)).erase entityId) := by
  rw [unlinked, listOf]
  split
  · exact lists_unlinkLeaf hotspot leaf entityId
  exact lists_flat hotspot _

def withEntity (leaf : Fin 16) (entityId : UInt32) (hotspot : HotspotCell) : HotspotCell :=
  { hotspot.linked leaf entityId with
    entityCount := (hotspot.linked leaf entityId).entityCount + 1 }

def withoutEntity (leaf : Fin 16) (entityId : UInt32) (hotspot : HotspotCell) :
    HotspotCell :=
  { hotspot.unlinked leaf entityId with
    entityCount := (hotspot.unlinked leaf entityId).entityCount - 1 }

private theorem map_update (inside : UInt32 → Option (Fin 16)) (entityId : UInt32)
    (value : Option (Fin 16)) (list : Fin 16 → Option (Fin 16)) (other : UInt32) :
    Function.update (fun entityId => (inside entityId).map list) entityId (value.map list) other =
      (Function.update inside entityId value other).map list := by
  by_cases same : other = entityId
  · rw [same, update_self, update_self]
  rw [update_of_ne same, update_of_ne same]

theorem Holds.withEntity (holds : hotspot.Holds inside) (free : inside entityId = none)
    (leaf : Fin 16) :
    (hotspot.withEntity leaf entityId).Holds (Function.update inside entityId (some leaf)) where
  bucketed := by
    change Bucketed (hotspot.linked leaf entityId).lists _
    have notPlaced : (inside entityId).map hotspot.listOf = none := by
      rw [free]
      rfl
    rw [lists_linked]
    refine (holds.bucketed.push notPlaced (hotspot.listOf leaf)).congr fun other => ?_
    have sameList : (hotspot.withEntity leaf entityId).listOf = hotspot.listOf := by
      funext leaf
      rw [listOf, listOf, HotspotCell.withEntity]
      simp only [(frame_linked _ _ _).2.1]
    rw [sameList]
    exact map_update inside entityId (some leaf) hotspot.listOf other
  leafCounted other := by
    change (hotspot.linked leaf entityId).leafCounts other =
      ((hotspot.linked leaf entityId).leaves other).length
    rw [HotspotCell.linked]
    split
    · exact leafCounted_pushLeaf holds.leafCounted leaf entityId other
    exact holds.leafCounted other
  counted := by
    have larger : {other | (Function.update inside entityId (some leaf) other).isSome} =
        insert entityId {other | (inside other).isSome} := by
      ext other
      by_cases same : other = entityId
      · simp [same]
      simp [same]
    have outside : entityId ∉ {other | (inside other).isSome} := by
      simp [free]
    rw [larger, Set.ncard_insert_of_notMem outside, ← holds.counted, HotspotCell.withEntity]
    simp only [(frame_linked _ _ _).2.2]

theorem Holds.withoutEntity (holds : hotspot.Holds inside) (held : inside entityId = some leaf) :
    (hotspot.withoutEntity leaf entityId).Holds (Function.update inside entityId none) where
  bucketed := by
    change Bucketed (hotspot.unlinked leaf entityId).lists _
    have placed : (inside entityId).map hotspot.listOf = some (hotspot.listOf leaf) := by
      rw [held]
      rfl
    rw [lists_unlinked]
    refine (holds.bucketed.erase placed).congr fun other => ?_
    have sameList : (hotspot.withoutEntity leaf entityId).listOf = hotspot.listOf := by
      funext leaf
      rw [listOf, listOf, HotspotCell.withoutEntity]
      simp only [(frame_unlinked _ _ _).2.1]
    rw [sameList]
    exact map_update inside entityId none hotspot.listOf other
  leafCounted other := by
    change (hotspot.unlinked leaf entityId).leafCounts other =
      ((hotspot.unlinked leaf entityId).leaves other).length
    rw [HotspotCell.unlinked]
    split
    · rename_i split
      refine leafCounted_unlinkLeaf holds.leafCounted ?_ other
      have member := (holds.bucketed.mem_iff (some leaf) entityId).mpr
        (by rw [held, map_some, listOf, if_pos split])
      exact member
    exact holds.leafCounted other
  counted := by
    have smaller : {other | (Function.update inside entityId none other).isSome} =
        {other | (inside other).isSome} \ {entityId} := by
      ext other
      by_cases same : other = entityId
      · simp [same]
      simp [same]
    have member : entityId ∈ {other | (inside other).isSome} := by
      simp [held]
    rw [smaller, Set.ncard_sdiff_singleton_of_mem member, ← holds.counted,
      HotspotCell.withoutEntity]
    simp only [(frame_unlinked _ _ _).2.2]

theorem Holds.moved (holds : hotspot.Holds inside) (held : inside entityId = some leaf)
    (split : hotspot.isSplit = true) (newLeaf : Fin 16) :
    ((hotspot.unlinkLeaf leaf entityId).pushLeaf newLeaf entityId).Holds
      (Function.update inside entityId (some newLeaf)) where
  bucketed := by
    have placed : (inside entityId).map hotspot.listOf = some (some leaf) := by
      rw [held, map_some, listOf, if_pos split]
    rw [lists_pushLeaf, lists_unlinkLeaf]
    refine (holds.bucketed.move placed (some newLeaf)).congr fun other => ?_
    have target : some (some newLeaf) = (some newLeaf).map hotspot.listOf := by
      rw [map_some, listOf, if_pos split]
    rw [target]
    exact map_update inside entityId (some newLeaf) hotspot.listOf other
  leafCounted other := by
    apply leafCounted_pushLeaf
    have member : entityId ∈ hotspot.lists (some leaf) :=
      (holds.bucketed.mem_iff (some leaf) entityId).mpr
        (by rw [held, map_some, listOf, if_pos split])
    exact leafCounted_unlinkLeaf holds.leafCounted member
  counted := by
    have sameEntities : {other | (Function.update inside entityId (some newLeaf) other).isSome} =
        {other | (inside other).isSome} := by
      ext other
      by_cases same : other = entityId
      · simp [same, held]
      simp [update_of_ne same]
    rw [sameEntities, ← holds.counted]
    rfl

theorem mem_members_iff (holds : hotspot.Holds inside) :
    entityId ∈ HotspotManager.members hotspot ↔ (inside entityId).isSome := by
  have placed : ∀ list, entityId ∈ hotspot.lists list ↔
      ∃ leaf, inside entityId = some leaf ∧ hotspot.listOf leaf = list := by
    intro list
    rw [holds.bucketed.mem_iff, map_eq_some_iff]
  rw [HotspotManager.members, isSome_iff_exists]
  split
  · rename_i split
    rw [mem_flatMap]
    constructor
    · intro found
      obtain ⟨leaf, _, member⟩ := found
      obtain ⟨held, isHeld, _⟩ := (placed (some leaf)).mp member
      exact ⟨held, isHeld⟩
    intro held
    obtain ⟨leaf, isHeld⟩ := held
    have member := (placed (some leaf)).mpr ⟨leaf, isHeld, by rw [listOf, if_pos split]⟩
    exact ⟨leaf, mem_finRange leaf, member⟩
  rename_i notSplit
  constructor
  · intro member
    obtain ⟨held, isHeld, _⟩ := (placed none).mp member
    exact ⟨held, isHeld⟩
  intro held
  obtain ⟨leaf, isHeld⟩ := held
  exact (placed none).mpr ⟨leaf, isHeld, by rw [listOf, if_neg notSplit]⟩

theorem nodup_members (holds : hotspot.Holds inside) : (HotspotManager.members hotspot).Nodup := by
  rw [HotspotManager.members]
  split
  · have leaves := holds.bucketed.nodup_flatMap ((nodup_finRange 16).map (some_injective _))
    exact leaves
  exact holds.bucketed.nodup none

def pushLeaves (leafOf : UInt32 → Fin 16) (entityIds : List UInt32) (hotspot : HotspotCell) :
    HotspotCell :=
  entityIds.foldl (fun hotspot entityId => hotspot.pushLeaf (leafOf entityId) entityId) hotspot

theorem pushLeaves_spec (leafOf : UInt32 → Fin 16) (entityIds : List UInt32)
    (hotspot : HotspotCell) :
    let pushed := hotspot.pushLeaves leafOf entityIds
    pushed.cell = hotspot.cell ∧ pushed.isSplit = hotspot.isSplit ∧
      pushed.entityCount = hotspot.entityCount ∧ pushed.flat = hotspot.flat ∧
      ∀ leaf,
        let ofLeaf := entityIds.filter fun entityId => decide (leafOf entityId = leaf)
        pushed.leaves leaf = ofLeaf.reverse ++ hotspot.leaves leaf ∧
          pushed.leafCounts leaf = ofLeaf.length + hotspot.leafCounts leaf := by
  induction entityIds generalizing hotspot with
  | nil =>
    refine ⟨rfl, rfl, rfl, rfl, fun leaf => ⟨rfl, ?_⟩⟩
    exact (Nat.zero_add _).symm
  | cons entityId entityIds ih =>
    obtain ⟨sameCell, sameSplit, sameCount, sameFlat, leaves⟩ :=
      ih (hotspot.pushLeaf (leafOf entityId) entityId)
    refine ⟨sameCell, sameSplit, sameCount, sameFlat, fun leaf => ?_⟩
    obtain ⟨listIs, countIs⟩ := leaves leaf
    rw [pushLeaves, foldl_cons, ← pushLeaves, listIs, countIs, pushLeaf]
    rw [filter_cons]
    by_cases same : leafOf entityId = leaf
    · rw [if_pos (decide_eq_true same), ← same]
      simp only [update_self, reverse_cons, append_assoc, singleton_append, length_cons]
      refine ⟨trivial, ?_⟩
      omega
    have notSame : ¬ decide (leafOf entityId = leaf) = true := by
      rw [decide_eq_true_iff]
      exact same
    rw [if_neg notSame]
    simp only [update_of_ne (Ne.symm same), and_self]

def cleared (hotspot : HotspotCell) : HotspotCell :=
  { hotspot with
    isSplit := true, flat := [], leaves := fun _ => [], leafCounts := fun _ => 0 }

def distributed (leafOf : UInt32 → Fin 16) (hotspot : HotspotCell) : HotspotCell :=
  hotspot.cleared.pushLeaves leafOf hotspot.flat

theorem Holds.distributed (holds : hotspot.Holds inside) (notSplit : hotspot.isSplit = false)
    (leafOf : UInt32 → Fin 16) :
    (hotspot.distributed leafOf).Holds
      fun entityId => (inside entityId).map fun _ => leafOf entityId := by
  obtain ⟨_, sameSplit, sameCount, sameFlat, leaves⟩ :=
    hotspot.cleared.pushLeaves_spec leafOf hotspot.flat
  have isSplit : (hotspot.distributed leafOf).isSplit = true := sameSplit
  have inFlat : ∀ entityId, entityId ∈ hotspot.flat ↔ (inside entityId).isSome := by
    intro entityId
    rw [← mem_members_iff holds, HotspotManager.members, notSplit]
    simp
  have flatNodup : hotspot.flat.Nodup := holds.bucketed.nodup none
  have leafList : ∀ leaf, (hotspot.distributed leafOf).leaves leaf =
      (hotspot.flat.filter fun entityId => decide (leafOf entityId = leaf)).reverse := by
    intro leaf
    exact (leaves leaf).1.trans (append_nil _)
  have noFlat : (hotspot.distributed leafOf).flat = [] := sameFlat
  constructor
  · constructor
    · intro list
      rcases list with _ | leaf
      · rw [lists, noFlat]
        exact nodup_nil
      rw [lists, leafList, nodup_reverse]
      exact flatNodup.filter _
    intro list entityId
    rw [map_eq_some_iff]
    simp only [Function.comp, listOf, isSplit, if_true]
    rcases list with _ | leaf
    · rw [lists, noFlat]
      simp
    rw [lists, leafList, mem_reverse, mem_filter, inFlat, isSome_iff_exists]
    simp
  · intro leaf
    rw [leafList, length_reverse]
    exact (leaves leaf).2
  have sameEntities : {entityId | ((inside entityId).map fun _ => leafOf entityId).isSome} =
        {entityId | (inside entityId).isSome} := by
    simp
  rw [sameEntities, ← holds.counted]
  exact sameCount

def merged (hotspot : HotspotCell) : HotspotCell :=
  { hotspot with
    isSplit := false
    flat := ((List.finRange 16).flatMap hotspot.leaves).foldl (fun flat entityId =>
      entityId :: flat) []
    leaves := fun _ => []
    leafCounts := fun _ => 0 }

theorem Holds.merged (holds : hotspot.Holds inside) (split : hotspot.isSplit = true) :
    hotspot.merged.Holds inside := by
  have flatIs : hotspot.merged.flat = (HotspotManager.members hotspot).reverse := by
    rw [HotspotManager.members, if_pos split]
    exact List.foldl_flip_cons_eq_append'.trans (append_nil _)
  constructor
  · constructor
    · intro list
      cases list with
      | none =>
        change hotspot.merged.flat.Nodup
        rw [flatIs, nodup_reverse]
        exact nodup_members holds
      | some leaf => exact nodup_nil
    intro list entityId
    cases list with
    | none =>
      change entityId ∈ hotspot.merged.flat ↔ _
      rw [flatIs, mem_reverse, mem_members_iff holds, isSome_iff_exists]
      simp [listOf, HotspotCell.merged]
    | some leaf => simp [lists, listOf, HotspotCell.merged]
  · intro leaf
    rfl
  exact holds.counted

end HotspotCell

end Eidolon.Spatial
