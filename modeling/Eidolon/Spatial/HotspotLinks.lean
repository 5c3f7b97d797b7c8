import Eidolon.Spatial.GridSound
import Eidolon.Spatial.LinkedHotspots

/-!
# The links of the hotspot manager

The lists through the links are those of the manager without links, and each operation does
the same to both.
-/

namespace Eidolon.Spatial

open Core Function Library List Option

abbrev Slot := Nat × Option (Fin 16)

def LinkedCell.headOf (hotspot : LinkedCell) : Option (Fin 16) → UInt32
  | none => hotspot.flatHead
  | some leaf => hotspot.leafHeads leaf

structure LinkedCell.Shows (linked : LinkedCell) (hotspot : HotspotCell) : Prop where
  cell : linked.cell = hotspot.cell
  isSplit : linked.isSplit = hotspot.isSplit
  entityCount : linked.entityCount = hotspot.entityCount
  leafCounts : linked.leafCounts = hotspot.leafCounts

def TrackedEntity.linked (entity : TrackedEntity) : LinkedEntity where
  position := entity.position
  hotspotId := UInt16.ofNat entity.hotspotId
  leafIdx := entity.leafIdx

def LinkedManager.headAt (manager : LinkedManager) (slot : Slot) : UInt32 :=
  (manager.hotspotCells slot.1).headOf slot.2

namespace HotspotManager

def listAt (manager : HotspotManager) (slot : Slot) : List UInt32 :=
  manager.hotspotCells[slot.1]?.elim [] fun hotspot => hotspot.lists slot.2

variable {manager : HotspotManager}

theorem listAt_of_getElem? {hIdx : Nat} {hotspot : HotspotCell}
    (held : manager.hotspotCells[hIdx]? = some hotspot) (list : Option (Fin 16)) :
    manager.listAt (hIdx, list) = hotspot.lists list := by
  rw [listAt, held]
  rfl

theorem Sound.mem_listAt_iff (sound : manager.Sound) {slot : Slot} {entityId : UInt32} :
    entityId ∈ manager.listAt slot ↔ ∃ entity hotspot, manager.entities entityId = some entity ∧
        manager.hotspotCells[slot.1]? = some hotspot ∧ entity.hotspotId = slot.1 + 1 ∧
          hotspot.listOf entity.leafIdx = slot.2 := by
  rw [listAt]
  rcases held : manager.hotspotCells[slot.1]? with _ | hotspot
  · simp
  rw [elim_some, (sound.holds _ hotspot held).bucketed.mem_iff, map_eq_some_iff]
  constructor
  · rintro ⟨leaf, inside, isList⟩
    rw [leafIn, bind_eq_some_iff] at inside
    obtain ⟨entity, isEntity, isLeaf⟩ := inside
    split at isLeaf
    · rename_i numbered
      rw [some.injEq] at isLeaf
      exact ⟨entity, hotspot, isEntity, rfl, numbered, isLeaf ▸ isList⟩
    cases isLeaf
  rintro ⟨entity, other, isEntity, isOther, numbered, isList⟩
  rw [some.injEq] at isOther
  refine ⟨entity.leafIdx, ?_, isOther ▸ isList⟩
  rw [leafIn, isEntity, bind_some, if_pos numbered]

theorem Sound.length_listAt_le (sound : manager.Sound) (slot : Slot) :
    (manager.listAt slot).length ≤ manager.maxEntities := by
  apply Links.length_le_of_keys (fun _ _ => UInt32.toNat_inj.mp)
  · rw [listAt]
    cases held : manager.hotspotCells[slot.1]? with
    | none => exact nodup_nil
    | some hotspot => exact (sound.holds _ hotspot held).bucketed.nodup slot.2
  intro entityId member
  obtain ⟨entity, _, isEntity, _⟩ := sound.mem_listAt_iff.mp member
  exact sound.within entityId (by rw [isEntity]; rfl)

end HotspotManager

structure Refines (linked : LinkedManager) (manager : HotspotManager) : Prop where
  maxEntities : linked.maxEntities = manager.maxEntities
  maxHotspots : linked.maxHotspots = manager.maxHotspots
  active : linked.activeHotspotsCount = manager.hotspotCells.length
  room : manager.hotspotCells.length ≤ manager.maxHotspots
  cells : ∀ (hIdx : Nat) (hotspot : HotspotCell),
    manager.hotspotCells[hIdx]? = some hotspot → (linked.hotspotCells hIdx).Shows hotspot
  entities : ∀ entityId,
    linked.entities entityId = (manager.entities entityId).map TrackedEntity.linked
  woven : linked.links.Woven quadtreeEmpty linked.headAt manager.listAt

namespace Refines

variable {linked : LinkedManager} {manager : HotspotManager} {hIdx : Nat}
  {hotspot : HotspotCell} {entityId : UInt32}

theorem new (maxEntities maxHotspots : Nat) : Refines (LinkedManager.new maxEntities maxHotspots)
      (HotspotManager.new maxEntities maxHotspots) where
  maxEntities := rfl
  maxHotspots := rfl
  active := rfl
  room := Nat.zero_le _
  cells _ _ held := by
    cases held
  entities _ := rfl
  woven := by
    refine (Links.Woven.empty _ quadtreeEmpty).congr (fun slot => ?_) fun _ => rfl
    rcases slot with ⟨hIdx, list⟩
    cases list with
    | _ => rfl

theorem headAt_modifyCell (linked : LinkedManager) (hIdx : Nat)
    (change : LinkedCell → LinkedCell) (slot : Slot) :
    (linked.modifyCell hIdx change).headAt slot =
      if slot.1 = hIdx then (change (linked.hotspotCells hIdx)).headOf slot.2
      else linked.headAt slot := by
  rw [LinkedManager.headAt, LinkedManager.modifyCell]
  simp only
  by_cases here : slot.1 = hIdx
  · rw [here, update_self, if_pos rfl]
  rw [update_of_ne here, if_neg here]
  rfl

theorem listAt_modifyCell (held : manager.hotspotCells[hIdx]? = some hotspot)
    (change : HotspotCell → HotspotCell) (slot : Slot) :
    (manager.modifyCell hIdx change).listAt slot =
      if slot.1 = hIdx then (change hotspot).lists slot.2 else manager.listAt slot := by
  rw [HotspotManager.listAt, HotspotManager.getElem?_modifyCell]
  by_cases here : slot.1 = hIdx
  · rw [if_pos here.symm, if_pos here, here, held]
    rfl
  rw [if_neg (Ne.symm here), if_neg here]
  rfl

theorem update_slot {α : Type} {family : Slot → α} {list : Option (Fin 16)} {value : α}
    {changed : Option (Fin 16) → α}
    (one : changed = Function.update (fun other => family (hIdx, other)) list value)
    (slot : Slot) :
    (if slot.1 = hIdx then changed slot.2 else family slot) =
      Function.update family (hIdx, list) value slot := by
  rcases slot with ⟨index, other⟩
  by_cases here : index = hIdx
  · rw [if_pos here, one, here]
    by_cases same : other = list
    · rw [same, update_self, update_self]
    rw [update_of_ne same, update_of_ne fun equal => same (Prod.mk.inj equal).2]
  rw [if_neg here, update_of_ne fun equal => here (Prod.mk.inj equal).1]

theorem change (refines : Refines linked manager)
    (held : manager.hotspotCells[hIdx]? = some hotspot)
    {linkedChange : LinkedCell → LinkedCell} {change : HotspotCell → HotspotCell}
    (alike : (linkedChange (linked.hotspotCells hIdx)).Shows (change hotspot))
    {links : Links UInt32}
    (woven : links.Woven quadtreeEmpty (linked.modifyCell hIdx linkedChange).headAt
      (manager.modifyCell hIdx change).listAt) :
    Refines { linked.modifyCell hIdx linkedChange with links := links }
      (manager.modifyCell hIdx change) where
  maxEntities := refines.maxEntities
  maxHotspots := refines.maxHotspots
  active := by
    rw [HotspotManager.modifyCell, length_modify]
    exact refines.active
  room := by
    rw [HotspotManager.modifyCell, length_modify]
    exact refines.room
  cells index other isOther := by
    rw [HotspotManager.getElem?_modifyCell] at isOther
    simp only [LinkedManager.modifyCell]
    by_cases here : hIdx = index
    · subst here
      rw [if_pos rfl, held, map_some, some.injEq] at isOther
      rw [update_self, ← isOther]
      exact alike
    rw [if_neg here] at isOther
    rw [update_of_ne (Ne.symm here)]
    exact refines.cells index other isOther
  entities := refines.entities
  woven := woven

theorem changeCounts (refines : Refines linked manager)
    (held : manager.hotspotCells[hIdx]? = some hotspot) {linkedChange : LinkedCell → LinkedCell}
    {change : HotspotCell → HotspotCell}
    (alike : (linkedChange (linked.hotspotCells hIdx)).Shows (change hotspot))
    (heads : (linkedChange (linked.hotspotCells hIdx)).headOf = (linked.hotspotCells hIdx).headOf)
    (lists : (change hotspot).lists = hotspot.lists) :
    Refines (linked.modifyCell hIdx linkedChange) (manager.modifyCell hIdx change) := by
  refine refines.change held alike (refines.woven.congr (fun slot => ?_) fun slot => ?_)
  · rw [headAt_modifyCell]
    split
    · rename_i here
      rw [heads, ← here]
      rfl
    rfl
  rw [listAt_modifyCell held]
  split
  · rename_i here
    rw [lists, ← HotspotManager.listAt_of_getElem? held, ← here]
  rfl

theorem prepend (refines : Refines linked manager)
    (held : manager.hotspotCells[hIdx]? = some hotspot) (isEntity : entityId ≠ quadtreeEmpty)
    (free : ∀ slot, entityId ∉ manager.listAt slot) {list : Option (Fin 16)}
    {linkedChange : LinkedCell → LinkedCell} {change : HotspotCell → HotspotCell}
    (alike : (linkedChange (linked.hotspotCells hIdx)).Shows (change hotspot))
    (heads : (linkedChange (linked.hotspotCells hIdx)).headOf =
      Function.update (linked.hotspotCells hIdx).headOf list entityId)
    (lists : (change hotspot).lists =
      Function.update hotspot.lists list (entityId :: hotspot.lists list)) :
    Refines
      { linked.modifyCell hIdx linkedChange with
        links := linked.links.prepend quadtreeEmpty
          ((linked.hotspotCells hIdx).headOf list) entityId }
      (manager.modifyCell hIdx change) := by
  refine refines.change held alike
    ((refines.woven.prepend isEntity free (hIdx, list)).congr (fun slot => ?_) fun slot => ?_)
  · rw [headAt_modifyCell]
    exact update_slot heads slot
  rw [listAt_modifyCell held]
  apply update_slot
  rw [lists]
  simp only [HotspotManager.listAt_of_getElem? held]

theorem unlink (refines : Refines linked manager)
    (held : manager.hotspotCells[hIdx]? = some hotspot) {list : Option (Fin 16)}
    (member : entityId ∈ hotspot.lists list)
    {linkedChange : LinkedCell → LinkedCell} {change : HotspotCell → HotspotCell}
    (alike : (linkedChange (linked.hotspotCells hIdx)).Shows (change hotspot))
    (heads : (linkedChange (linked.hotspotCells hIdx)).headOf =
      Function.update (linked.hotspotCells hIdx).headOf list
        (linked.links.headWithout quadtreeEmpty ((linked.hotspotCells hIdx).headOf list) entityId))
    (lists : (change hotspot).lists =
      Function.update hotspot.lists list ((hotspot.lists list).erase entityId)) :
    Refines
      { linked.modifyCell hIdx linkedChange with
        links := linked.links.unlink quadtreeEmpty entityId }
      (manager.modifyCell hIdx change) := by
  rw [← HotspotManager.listAt_of_getElem? held] at member
  refine refines.change held alike
    ((refines.woven.unlink member).congr (fun slot => ?_) fun slot => ?_)
  · rw [headAt_modifyCell]
    exact update_slot heads slot
  rw [listAt_modifyCell held]
  apply update_slot
  rw [lists]
  simp only [HotspotManager.listAt_of_getElem? held]

theorem setEntity (refines : Refines linked manager) (entityId : UInt32)
    (entity : Option TrackedEntity) :
    Refines (linked.setEntity entityId (entity.map TrackedEntity.linked))
      (manager.setEntity entityId entity) where
  maxEntities := refines.maxEntities
  maxHotspots := refines.maxHotspots
  active := refines.active
  room := refines.room
  cells := refines.cells
  entities other := by
    simp only [LinkedManager.setEntity, HotspotManager.setEntity]
    by_cases same : other = entityId
    · rw [same, update_self, update_self]
    rw [update_of_ne same, update_of_ne same]
    exact refines.entities other
  woven := refines.woven

theorem headOf_leafHeads (hotspot : LinkedCell) (leaf : Fin 16) (head : UInt32)
    (leafCounts : Fin 16 → Nat) :
    ({ hotspot with
      leafHeads := Function.update hotspot.leafHeads leaf head
      leafCounts := leafCounts } : LinkedCell).headOf =
        Function.update hotspot.headOf (some leaf) head := by
  funext list
  rcases list with _ | other
  · rfl
  by_cases same : other = leaf
  · rw [same, update_self]
    exact update_self _ _ _
  rw [update_of_ne fun equal => same (some.inj equal)]
  exact update_of_ne same _ _

theorem headOf_flatHead (hotspot : LinkedCell) (head : UInt32) :
    ({ hotspot with flatHead := head } : LinkedCell).headOf =
      Function.update hotspot.headOf none head := by
  funext list
  cases list with
  | _ => rfl

section

variable (refines : Refines linked manager)
include refines

section

variable (held : manager.hotspotCells[hIdx]? = some hotspot)
include held

theorem pushLeaf (isEntity : entityId ≠ quadtreeEmpty)
    (free : ∀ slot, entityId ∉ manager.listAt slot) (leaf : Fin 16) :
    Refines (linked.pushLeaf hIdx leaf entityId)
      (manager.modifyCell hIdx (·.pushLeaf leaf entityId)) := by
  have alike := refines.cells hIdx hotspot held
  refine @prepend _ _ _ _ _ refines held isEntity free (some leaf) _ (·.pushLeaf leaf entityId)
    ⟨alike.cell, alike.isSplit, alike.entityCount, ?_⟩
    (headOf_leafHeads _ leaf entityId _) (HotspotCell.lists_pushLeaf hotspot leaf entityId)
  simp only [HotspotCell.pushLeaf, alike.leafCounts]

theorem pushFlat (isEntity : entityId ≠ quadtreeEmpty)
    (free : ∀ slot, entityId ∉ manager.listAt slot) :
    Refines (linked.pushFlat hIdx entityId) (manager.modifyCell hIdx fun hotspot =>
        { hotspot with flat := entityId :: hotspot.flat }) := by
  have alike := refines.cells hIdx hotspot held
  exact @prepend _ _ _ _ _ refines held isEntity free none _ _
    ⟨alike.cell, alike.isSplit, alike.entityCount, alike.leafCounts⟩
    (headOf_flatHead _ entityId) (HotspotCell.lists_flat hotspot _)

theorem unlinkLeaf {leaf : Fin 16} (member : entityId ∈ hotspot.leaves leaf) :
    Refines (linked.unlinkLeaf hIdx leaf entityId)
      (manager.modifyCell hIdx (·.unlinkLeaf leaf entityId)) := by
  have alike := refines.cells hIdx hotspot held
  refine @unlink _ _ _ _ _ refines held (some leaf) member _ _
    ⟨alike.cell, alike.isSplit, alike.entityCount, ?_⟩
    (headOf_leafHeads _ leaf _ _) (HotspotCell.lists_unlinkLeaf hotspot leaf entityId)
  simp only [HotspotCell.unlinkLeaf, alike.leafCounts]

theorem unlinkFlat (member : entityId ∈ hotspot.flat) :
    Refines (linked.unlinkFlat hIdx entityId) (manager.modifyCell hIdx fun hotspot =>
        { hotspot with flat := hotspot.flat.erase entityId }) := by
  have alike := refines.cells hIdx hotspot held
  exact @unlink _ _ _ _ _ refines held none member _ _
    ⟨alike.cell, alike.isSplit, alike.entityCount, alike.leafCounts⟩
    (headOf_flatHead _ _) (HotspotCell.lists_flat hotspot _)

end

end

theorem modifyCell_congr (held : manager.hotspotCells[hIdx]? = some hotspot)
    {first second : HotspotCell → HotspotCell} (same : first hotspot = second hotspot) :
    manager.modifyCell hIdx first = manager.modifyCell hIdx second := by
  have cells : (manager.modifyCell hIdx first).hotspotCells =
      (manager.modifyCell hIdx second).hotspotCells := by
    apply ext_getElem?
    intro index
    rw [HotspotManager.getElem?_modifyCell, HotspotManager.getElem?_modifyCell]
    by_cases here : hIdx = index
    · subst here
      rw [if_pos rfl, if_pos rfl, held, map_some, map_some, same]
    rw [if_neg here, if_neg here]
  exact HotspotManager.ext rfl rfl cells rfl

theorem link (refines : Refines linked manager)
    (held : manager.hotspotCells[hIdx]? = some hotspot) (isEntity : entityId ≠ quadtreeEmpty)
    (free : ∀ slot, entityId ∉ manager.listAt slot) (leaf : Fin 16) :
    Refines (if (linked.hotspotCells hIdx).isSplit then linked.pushLeaf hIdx leaf entityId
        else linked.pushFlat hIdx entityId)
      (manager.modifyCell hIdx (·.linked leaf entityId)) := by
  rw [(refines.cells hIdx hotspot held).isSplit]
  split
  · rename_i split
    have same : manager.modifyCell hIdx (·.linked leaf entityId) =
        manager.modifyCell hIdx (·.pushLeaf leaf entityId) :=
      modifyCell_congr held (if_pos split)
    rw [same]
    exact refines.pushLeaf held isEntity free leaf
  rename_i notSplit
  have same : manager.modifyCell hIdx (·.linked leaf entityId) =
      manager.modifyCell hIdx fun hotspot =>
        { hotspot with flat := entityId :: hotspot.flat } :=
    modifyCell_congr held (if_neg notSplit)
  rw [same]
  exact refines.pushFlat held isEntity free

theorem unlinked (refines : Refines linked manager)
    (held : manager.hotspotCells[hIdx]? = some hotspot) {leaf : Fin 16}
    (member : entityId ∈ hotspot.lists (hotspot.listOf leaf)) :
    Refines (if (linked.hotspotCells hIdx).isSplit then linked.unlinkLeaf hIdx leaf entityId
        else linked.unlinkFlat hIdx entityId)
      (manager.modifyCell hIdx (·.unlinked leaf entityId)) := by
  rw [(refines.cells hIdx hotspot held).isSplit]
  rw [HotspotCell.listOf] at member
  split
  · rename_i split
    rw [if_pos split] at member
    have same : manager.modifyCell hIdx (·.unlinked leaf entityId) =
        manager.modifyCell hIdx (·.unlinkLeaf leaf entityId) :=
      modifyCell_congr held (if_pos split)
    rw [same]
    exact refines.unlinkLeaf held member
  rename_i notSplit
  rw [if_neg notSplit] at member
  have same : manager.modifyCell hIdx (·.unlinked leaf entityId) =
      manager.modifyCell hIdx fun hotspot =>
        { hotspot with flat := hotspot.flat.erase entityId } :=
    modifyCell_congr held (if_neg notSplit)
  rw [same]
  exact refines.unlinkFlat held member

theorem reset (refines : Refines linked manager) (free : ∀ slot, entityId ∉ manager.listAt slot) :
    Refines { linked with links := linked.links.reset quadtreeEmpty entityId } manager where
  maxEntities := refines.maxEntities
  maxHotspots := refines.maxHotspots
  active := refines.active
  room := refines.room
  cells := refines.cells
  entities := refines.entities
  woven := refines.woven.reset free

theorem findHotspot_eq (refines : Refines linked manager) (cell : CellCoord) :
    linked.findHotspot cell = manager.findHotspot cell := by
  have named : ∀ (hIdx : Nat) (inside : hIdx < manager.hotspotCells.length),
      (linked.hotspotCells hIdx).cell = manager.hotspotCells[hIdx].cell := fun hIdx inside =>
    (refines.cells hIdx _ (getElem?_eq_getElem inside)).cell
  apply Option.ext
  intro hIdx
  rw [LinkedManager.findHotspot, HotspotManager.findHotspot, refines.active,
    find?_range_eq_some, findIdx?_eq_some_iff_getElem]
  constructor
  · rintro ⟨isCell, inRange, before⟩
    rw [mem_range] at inRange
    refine ⟨inRange, ?_, fun index earlier => ?_⟩
    · rw [← named hIdx inRange]
      exact isCell
    rw [← named index (earlier.trans inRange)]
    simpa using before index earlier
  rintro ⟨inside, isCell, before⟩
  refine ⟨?_, List.mem_range.mpr inside, fun index earlier => ?_⟩
  · rw [named hIdx inside]
    exact isCell
  rw [named index (earlier.trans inside)]
  simpa using before index earlier

theorem isSplit_eq (refines : Refines linked manager) (cell : CellCoord) :
    linked.isSplit cell = manager.isSplit cell := by
  rw [LinkedManager.isSplit, HotspotManager.isSplit, refines.findHotspot_eq]
  rcases found : manager.findHotspot cell with _ | hIdx
  · rfl
  rw [HotspotManager.findHotspot, findIdx?_eq_some_iff_getElem] at found
  obtain ⟨inside, _⟩ := found
  have held := getElem?_eq_getElem inside
  simp only [held, any_some]
  exact (refines.cells hIdx _ held).isSplit

theorem append (refines : Refines linked manager) (cell : CellCoord)
    (notFull : manager.hotspotCells.length < manager.maxHotspots) :
    Refines
      { linked with
        hotspotCells := Function.update linked.hotspotCells linked.activeHotspotsCount
          (LinkedCell.new cell)
        activeHotspotsCount := linked.activeHotspotsCount + 1 }
      { manager with hotspotCells := manager.hotspotCells ++ [HotspotCell.new cell] } where
  maxEntities := refines.maxEntities
  maxHotspots := refines.maxHotspots
  active := by
    rw [length_append]
    exact congrArg (· + 1) refines.active
  room := by
    rw [length_append]
    exact notFull
  cells hIdx hotspot held := by
    simp only [refines.active]
    rw [getElem?_append] at held
    split at held
    · rename_i inside
      rw [update_of_ne (Nat.ne_of_lt inside)]
      exact refines.cells hIdx hotspot held
    rw [getElem?_singleton] at held
    split at held
    · have atEnd : hIdx = manager.hotspotCells.length := by
        omega
      rw [atEnd, update_self, ← some.inj held]
      exact ⟨rfl, rfl, rfl, rfl⟩
    cases held
  entities := refines.entities
  woven := by
    have nothing : ∀ list, (LinkedCell.new cell).headOf list = quadtreeEmpty ∧
        (HotspotCell.new cell).lists list = [] := by
      intro list
      cases list with
      | _ => exact ⟨rfl, rfl⟩
    refine (refines.woven.clear fun slot => slot.1 = manager.hotspotCells.length).congr
      (fun slot => ?_) fun slot => ?_
    · rw [LinkedManager.headAt]
      simp only [refines.active]
      by_cases atEnd : slot.1 = manager.hotspotCells.length
      · rw [atEnd, update_self, if_pos rfl, (nothing slot.2).1]
      rw [update_of_ne atEnd, if_neg atEnd]
      rfl
    rw [HotspotManager.listAt]
    by_cases atEnd : slot.1 = manager.hotspotCells.length
    · rw [atEnd, if_pos rfl, getElem?_concat_length, elim_some, (nothing slot.2).2]
    rw [HotspotManager.listAt, getElem?_append]
    split
    · rfl
    rename_i outside
    have further : slot.1 - manager.hotspotCells.length ≠ 0 := by
      omega
    rw [getElem?_singleton, if_neg further, getElem?_eq_none (Nat.le_of_not_lt outside)]

theorem getOrCreateHotspot (refines : Refines linked manager) (cell : CellCoord) :
    (linked.getOrCreateHotspot cell).1 = (manager.getOrCreateHotspot cell).1 ∧
      Refines (linked.getOrCreateHotspot cell).2 (manager.getOrCreateHotspot cell).2 := by
  rw [LinkedManager.getOrCreateHotspot, HotspotManager.getOrCreateHotspot, refines.findHotspot_eq]
  cases manager.findHotspot cell with
  | some hIdx => exact ⟨rfl, refines⟩
  | none =>
    by_cases full : manager.maxHotspots ≤ manager.hotspotCells.length
    · have linkedFull : linked.maxHotspots ≤ linked.activeHotspotsCount := by
        rw [refines.maxHotspots, refines.active]
        exact full
      rw [if_pos full, if_pos linkedFull]
      exact ⟨rfl, refines⟩
    have notFull : ¬ linked.maxHotspots ≤ linked.activeHotspotsCount := by
      rw [refines.maxHotspots, refines.active]
      exact full
    rw [if_neg full, if_neg notFull]
    exact ⟨congrArg Except.ok refines.active, refines.append cell (Nat.lt_of_not_le full)⟩

end Refines

end Eidolon.Spatial
