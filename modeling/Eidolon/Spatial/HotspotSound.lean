import Eidolon.Spatial.HotspotCells

/-!
# Soundness of the hotspot manager

Whatever is inserted, moved and removed, every tracked entity is in the list for its leaf in
the cell of its position, and in no other list.
-/

namespace Eidolon.Spatial

open Core Function Library List Option

attribute [ext] HotspotManager

namespace HotspotManager

variable (entities : UInt32 → Option TrackedEntity)

def leafIn (hIdx : Nat) (entityId : UInt32) : Option (Fin 16) :=
  (entities entityId).bind fun entity =>
    if entity.hotspotId = hIdx + 1 then some entity.leafIdx else none

/-- The cell is the one of the entity's position, and its leaf is right when leaves are in
use. -/
structure InCell (hotspot : HotspotCell) (entity : TrackedEntity) : Prop where
  cell : hotspot.cell = CellCoord.fromPosition entity.position
  leaf : hotspot.isSplit = true →
    entity.leafIdx = HotspotCell.computeLeafIndex hotspot.cell entity.position

structure Sound (manager : HotspotManager) : Prop where
  distinct : ∀ (first second : Nat) (one other : HotspotCell),
    manager.hotspotCells[first]? = some one → manager.hotspotCells[second]? = some other →
      one.cell = other.cell → first = second
  within : ∀ entityId, (manager.entities entityId).isSome →
    entityId.toNat < manager.maxEntities
  indexed : ∀ entityId entity, manager.entities entityId = some entity →
    ∃ hIdx hotspot, entity.hotspotId = hIdx + 1 ∧
      manager.hotspotCells[hIdx]? = some hotspot ∧ InCell hotspot entity
  holds : ∀ (hIdx : Nat) (hotspot : HotspotCell),
    manager.hotspotCells[hIdx]? = some hotspot → hotspot.Holds (leafIn manager.entities hIdx)

theorem sound_new (maxEntities maxHotspots : Nat) : (new maxEntities maxHotspots).Sound where
  distinct first _ one _ held := by
    cases held
  within _ tracked := by
    cases tracked
  indexed _ _ tracked := by
    cases tracked
  holds _ _ held := by
    cases held

def positionOf (manager : HotspotManager) (entityId : UInt32) : Option Vec3Fix :=
  (manager.entities entityId).map (·.position)

theorem getElem?_modifyCell (manager : HotspotManager) (hIdx : Nat)
    (change : HotspotCell → HotspotCell) (other : Nat) :
    (manager.modifyCell hIdx change).hotspotCells[other]? =
      if hIdx = other then (manager.hotspotCells[other]?).map change
      else manager.hotspotCells[other]? := by
  rw [modifyCell]
  by_cases same : hIdx = other
  · simp [same]
  simp [same]

variable {manager : HotspotManager} {hIdx : Nat} {hotspot : HotspotCell}

theorem getElem?_modifyCell_self (held : manager.hotspotCells[hIdx]? = some hotspot)
    (change : HotspotCell → HotspotCell) :
    (manager.modifyCell hIdx change).hotspotCells[hIdx]? = some (change hotspot) := by
  rw [getElem?_modifyCell, if_pos rfl, held]
  rfl

theorem cellAt_of_getElem? (held : manager.hotspotCells[hIdx]? = some hotspot) :
    manager.cellAt hIdx = hotspot := by
  rw [cellAt, getD_eq_getElem?_getD, held]
  rfl

theorem modifyCell_modifyCell (manager : HotspotManager) (hIdx : Nat)
    (first second : HotspotCell → HotspotCell) :
    (manager.modifyCell hIdx first).modifyCell hIdx second =
      manager.modifyCell hIdx fun hotspot => second (first hotspot) := by
  have cells : (((manager.modifyCell hIdx first).modifyCell hIdx second).hotspotCells) =
      (manager.modifyCell hIdx fun hotspot => second (first hotspot)).hotspotCells := by
    apply ext_getElem?
    intro other
    rw [getElem?_modifyCell, getElem?_modifyCell, getElem?_modifyCell]
    by_cases same : hIdx = other
    · rw [if_pos same, if_pos same, if_pos same, Option.map_map]
      rfl
    rw [if_neg same, if_neg same, if_neg same]
  simp only [modifyCell] at cells ⊢
  rw [cells]

theorem Sound.findHotspot_eq_some_iff (sound : manager.Sound) {cell : CellCoord} :
    manager.findHotspot cell = some hIdx ↔
      ∃ hotspot, manager.hotspotCells[hIdx]? = some hotspot ∧ hotspot.cell = cell := by
  rw [findHotspot, findIdx?_eq_some_iff_getElem]
  constructor
  · intro found
    obtain ⟨inside, matching, _⟩ := found
    exact ⟨_, getElem?_eq_getElem inside, of_decide_eq_true matching⟩
  intro found
  obtain ⟨hotspot, held, named⟩ := found
  obtain ⟨inside, isHeld⟩ := List.getElem?_eq_some_iff.mp held
  refine ⟨inside, by rw [isHeld, named, decide_eq_true rfl], ?_⟩
  intro earlier before matching
  have sameCell := of_decide_eq_true matching
  have sameIndex := sound.distinct earlier hIdx _ hotspot
    (getElem?_eq_getElem (Nat.lt_trans before inside)) held
    (sameCell.trans named.symm)
  omega

theorem Sound.rebuild (sound : manager.Sound) (held : manager.hotspotCells[hIdx]? = some hotspot)
    (change : HotspotCell → HotspotCell) (sameCell : (change hotspot).cell = hotspot.cell)
    {entities : UInt32 → Option TrackedEntity}
    (apart : ∀ entityId, entities entityId = manager.entities entityId ∨
      (∀ entity, manager.entities entityId = some entity → entity.hotspotId = hIdx + 1) ∧
        ∀ entity, entities entityId = some entity → entity.hotspotId = hIdx + 1)
    (inCell : ∀ entityId entity, entities entityId = some entity → entity.hotspotId = hIdx + 1 →
        entityId.toNat < manager.maxEntities ∧ InCell (change hotspot) entity)
    (holds : (change hotspot).Holds (leafIn entities hIdx)) :
    ({ manager.modifyCell hIdx change with entities := entities } : HotspotManager).Sound := by
  have cellBefore : ∀ {index : Nat} {after : HotspotCell},
      (manager.modifyCell hIdx change).hotspotCells[index]? = some after →
        ∃ before, manager.hotspotCells[index]? = some before ∧ before.cell = after.cell := by
    intro index after isAfter
    rw [getElem?_modifyCell] at isAfter
    by_cases same : hIdx = index
    · rw [if_pos same, ← same, held, map_some, some.injEq] at isAfter
      exact ⟨hotspot, by rw [← same, held], by rw [← isAfter, sameCell]⟩
    rw [if_neg same] at isAfter
    exact ⟨after, isAfter, rfl⟩
  have here : (manager.modifyCell hIdx change).hotspotCells[hIdx]? = some (change hotspot) :=
    getElem?_modifyCell_self held _
  constructor
  · intro first second one other isFirst isSecond sameCells
    obtain ⟨_, firstBefore, firstCell⟩ := cellBefore isFirst
    obtain ⟨_, secondBefore, secondCell⟩ := cellBefore isSecond
    exact sound.distinct first second _ _ firstBefore secondBefore
      (firstCell.trans (sameCells.trans secondCell.symm))
  · intro entityId tracked
    obtain ⟨entity, isEntity⟩ := Option.isSome_iff_exists.mp tracked
    have isEntity : entities entityId = some entity := isEntity
    rcases apart entityId with same | moved
    · apply sound.within
      rw [← same, isEntity]
      rfl
    exact (inCell entityId entity isEntity (moved.2 entity isEntity)).1
  · intro entityId entity isEntity
    have isEntity : entities entityId = some entity := isEntity
    by_cases inside : entity.hotspotId = hIdx + 1
    · exact ⟨hIdx, change hotspot, inside, here, (inCell entityId entity isEntity inside).2⟩
    rcases apart entityId with same | moved
    · rw [same] at isEntity
      obtain ⟨index, other, numbered, isOther, correct⟩ := sound.indexed _ _ isEntity
      refine ⟨index, other, numbered, ?_, correct⟩
      rw [getElem?_modifyCell, if_neg, isOther]
      intro sameIndex
      rw [sameIndex] at inside
      exact inside numbered
    exact absurd (moved.2 entity isEntity) inside
  intro index after isAfter
  by_cases same : index = hIdx
  · rw [same, here, some.injEq] at isAfter
    rw [same, ← isAfter]
    exact holds
  rw [getElem?_modifyCell, if_neg (Ne.symm same)] at isAfter
  refine (sound.holds index after isAfter).congr fun entityId => ?_
  rcases apart entityId with equal | moved
  · rw [leafIn, leafIn]
    simp only [equal]
  have nowhere : ∀ option : Option TrackedEntity,
      (∀ entity, option = some entity → entity.hotspotId = hIdx + 1) → (option.bind fun entity =>
          if entity.hotspotId = index + 1 then some entity.leafIdx else none) = none := by
    intro option inHere
    rcases option with _ | entity
    · rfl
    rw [bind_some, if_neg]
    rw [inHere entity rfl]
    omega
  exact (nowhere _ moved.1).trans (nowhere _ moved.2).symm

theorem Sound.change (sound : manager.Sound) (held : manager.hotspotCells[hIdx]? = some hotspot)
    (change : HotspotCell → HotspotCell) (sameCell : (change hotspot).cell = hotspot.cell)
    (notSplit : (change hotspot).isSplit = false)
    (holds : (change hotspot).Holds (leafIn manager.entities hIdx)) :
    (manager.modifyCell hIdx change).Sound := by
  refine sound.rebuild held change sameCell (fun _ => .inl rfl) ?_ holds
  intro entityId entity isEntity inside
  obtain ⟨index, other, numbered, isOther, correct⟩ := sound.indexed entityId entity isEntity
  have sameIndex : index = hIdx := by
    omega
  rw [sameIndex, held, some.injEq] at isOther
  refine ⟨sound.within entityId (by rw [isEntity]; rfl), ?_, ?_⟩
  · rw [sameCell, isOther]
    exact correct.cell
  intro split
  rw [notSplit] at split
  cases split

variable {entityId : UInt32}

theorem Sound.rebuildOne (sound : manager.Sound)
    (held : manager.hotspotCells[hIdx]? = some hotspot) (change : HotspotCell → HotspotCell)
    (sameCell : (change hotspot).cell = hotspot.cell)
    (sameSplit : (change hotspot).isSplit = hotspot.isSplit) {value : Option TrackedEntity}
    (fits : entityId.toNat < manager.maxEntities)
    (before : ∀ entity, manager.entities entityId = some entity → entity.hotspotId = hIdx + 1)
    (after : ∀ entity, value = some entity → entity.hotspotId = hIdx + 1)
    (inCell : ∀ entity, value = some entity → InCell (change hotspot) entity)
    (holds : (change hotspot).Holds (Function.update (leafIn manager.entities hIdx) entityId
      (value.map (·.leafIdx)))) :
    ({ manager.modifyCell hIdx change with
      entities := Function.update manager.entities entityId value } : HotspotManager).Sound := by
  refine sound.rebuild held change sameCell ?_ ?_ ?_
  · intro other
    by_cases same : other = entityId
    · right
      rw [same, update_self]
      exact ⟨before, after⟩
    left
    rw [update_of_ne same]
  · intro other tracked isTracked inside
    by_cases same : other = entityId
    · rw [same, update_self] at isTracked
      rw [same]
      exact ⟨fits, inCell tracked isTracked⟩
    rw [update_of_ne same] at isTracked
    obtain ⟨index, cell, isIndex, isCell, correct⟩ := sound.indexed _ _ isTracked
    have sameIndex : index = hIdx := by
      omega
    rw [sameIndex, held, some.injEq] at isCell
    refine ⟨sound.within other (by rw [isTracked]; rfl), ?_, ?_⟩
    · rw [sameCell, isCell]
      exact correct.cell
    intro split
    rw [sameSplit, isCell] at split
    rw [sameCell, isCell]
    exact correct.leaf split
  refine holds.congr fun other => ?_
  by_cases same : other = entityId
  · rw [same, update_self, leafIn, update_self]
    cases isValue : value with
    | none => rfl
    | some entity => rw [map_some, bind_some, if_pos (after entity isValue)]
  rw [update_of_ne same, leafIn, leafIn, update_of_ne same]

theorem Sound.getOrCreateHotspot (sound : manager.Sound) (cell : CellCoord) :
    (∃ error, manager.getOrCreateHotspot cell = (.error error, manager)) ∨
      ∃ hIdx hotspot created, manager.getOrCreateHotspot cell = (.ok hIdx, created) ∧
        created.Sound ∧ created.hotspotCells[hIdx]? = some hotspot ∧ hotspot.cell = cell ∧
        created.entities = manager.entities ∧ created.maxEntities = manager.maxEntities := by
  rw [HotspotManager.getOrCreateHotspot]
  cases found : manager.findHotspot cell with
  | some hIdx =>
    obtain ⟨hotspot, held, named⟩ := sound.findHotspot_eq_some_iff.mp found
    exact .inr ⟨hIdx, hotspot, manager, rfl, sound, held, named, rfl, rfl⟩
  | none =>
    simp only
    split
    · exact .inl ⟨_, rfl⟩
    right
    have unknown : ∀ hotspot ∈ manager.hotspotCells, hotspot.cell ≠ cell := by
      rw [findHotspot, findIdx?_eq_none_iff] at found
      intro hotspot member
      exact of_decide_eq_false (found hotspot member)
    -- A cell of the longer list is an old one or the new one at its end.
    have cases : ∀ {index : Nat} {hotspot : HotspotCell},
        (manager.hotspotCells ++ [HotspotCell.new cell])[index]? = some hotspot →
          manager.hotspotCells[index]? = some hotspot ∨
            index = manager.hotspotCells.length ∧ hotspot = HotspotCell.new cell := by
      intro index hotspot held
      rw [getElem?_append] at held
      split at held
      · exact .inl held
      right
      rw [getElem?_singleton] at held
      split at held
      · exact ⟨by omega, (some.inj held).symm⟩
      cases held
    refine ⟨manager.hotspotCells.length, HotspotCell.new cell, _, rfl, ?_, ?_, rfl, rfl, rfl⟩
    · constructor
      · intro first second one other isFirst isSecond sameCell
        rcases cases isFirst with firstOld | firstNew
        · rcases cases isSecond with secondOld | secondNew
          · exact sound.distinct _ _ _ _ firstOld secondOld sameCell
          rw [secondNew.2] at sameCell
          exact absurd sameCell (unknown one (mem_of_getElem? firstOld))
        rcases cases isSecond with secondOld | secondNew
        · rw [firstNew.2] at sameCell
          exact absurd sameCell.symm (unknown other (mem_of_getElem? secondOld))
        rw [firstNew.1, secondNew.1]
      · exact sound.within
      · intro entityId entity isEntity
        obtain ⟨hIdx, hotspot, numbered, held, inCell⟩ :=
          sound.indexed entityId entity isEntity
        refine ⟨hIdx, hotspot, numbered, ?_, inCell⟩
        rw [List.getElem?_append_left (List.getElem?_eq_some_iff.mp held).1]
        exact held
      intro hIdx hotspot held
      rcases cases held with old | new
      · exact sound.holds hIdx hotspot old
      rw [new.2]
      refine (HotspotCell.holds_new cell).congr fun entityId => ?_
      rw [leafIn]
      rcases isEntity : manager.entities entityId with _ | entity
      · rfl
      obtain ⟨hIdx, _, numbered, isHeld, _⟩ :=
        sound.indexed entityId entity isEntity
      have inside := (List.getElem?_eq_some_iff.mp isHeld).1
      rw [bind_some, if_neg]
      omega
    simp

def withLinked (manager : HotspotManager) (hIdx : Nat) (entityId : UInt32)
    (entity : TrackedEntity) : HotspotManager :=
  { manager.modifyCell hIdx (·.withEntity entity.leafIdx entityId) with
    entities := Function.update manager.entities entityId (some entity) }

theorem Sound.withLinked (sound : manager.Sound)
    (held : manager.hotspotCells[hIdx]? = some hotspot) (free : manager.entities entityId = none)
    (fits : entityId.toNat < manager.maxEntities) {entity : TrackedEntity}
    (numbered : entity.hotspotId = hIdx + 1)
    (cellIs : hotspot.cell = CellCoord.fromPosition entity.position)
    (leafIs : entity.leafIdx = HotspotCell.computeLeafIndex hotspot.cell entity.position) :
    (manager.withLinked hIdx entityId entity).Sound := by
  have frame := hotspot.frame_linked entity.leafIdx entityId
  have notInside : leafIn manager.entities hIdx entityId = none := by
    rw [leafIn, free]
    rfl
  refine sound.rebuildOne held (·.withEntity entity.leafIdx entityId) frame.1 frame.2.1 fits
    ?_ ?_ ?_ ((sound.holds hIdx hotspot held).withEntity notInside entity.leafIdx)
  · intro tracked isTracked
    rw [free] at isTracked
    cases isTracked
  · intro tracked isTracked
    rw [← some.inj isTracked]
    exact numbered
  intro tracked isTracked
  rw [← some.inj isTracked]
  refine ⟨frame.1.trans cellIs, ?_⟩
  intro _
  exact leafIs.trans (congrArg (HotspotCell.computeLeafIndex · entity.position) frame.1.symm)

variable (change : TrackedEntity → TrackedEntity)

def overwritten (entityIds : List UInt32) (entityId : UInt32) : Option TrackedEntity :=
  if entityId ∈ entityIds then (entities entityId).map change else entities entityId

theorem overwritten_nil : overwritten entities change [] = entities := by
  funext entityId
  rw [overwritten, if_neg not_mem_nil]

theorem overwritten_update {entities : UInt32 → Option TrackedEntity}
    {change : TrackedEntity → TrackedEntity} {entityId : UInt32} {entity : TrackedEntity}
    (isEntity : entities entityId = some entity)
    (again : change (change entity) = change entity) (entityIds : List UInt32) :
    overwritten (Function.update entities entityId (some (change entity))) change entityIds =
      overwritten entities change (entityId :: entityIds) := by
  funext other
  simp only [overwritten, mem_cons]
  by_cases same : other = entityId
  · rw [same, update_self, if_pos (Or.inl rfl), isEntity, map_some, map_some, again, ite_self]
  rw [update_of_ne same]
  simp only [same, false_or]

def relabeled (cell : CellCoord) (entity : TrackedEntity) : TrackedEntity :=
  { entity with leafIdx := HotspotCell.computeLeafIndex cell entity.position }

theorem foldl_split (cell : CellCoord) (hIdx : Nat) (entityIds : List UInt32)
    (manager : HotspotManager)
    (tracked : ∀ entityId ∈ entityIds, (manager.entities entityId).isSome) :
    entityIds.foldl (fun manager entityId =>
        match manager.entities entityId with
        | some entity =>
          let leafIdx := HotspotCell.computeLeafIndex cell entity.position
          (manager.setEntity entityId (some { entity with leafIdx := leafIdx })).modifyCell
            hIdx (·.pushLeaf leafIdx entityId)
        | none => manager) manager =
      { manager.modifyCell hIdx (·.pushLeaves (leafOf manager.entities cell) entityIds) with
        entities := overwritten manager.entities (relabeled cell) entityIds } := by
  induction entityIds generalizing manager with
  | nil =>
    have unchanged : manager.modifyCell hIdx (fun hotspot => hotspot.pushLeaves
        (leafOf manager.entities cell) []) = manager :=
      congrArg (fun cells => { manager with hotspotCells := cells })
        (modify_id hIdx manager.hotspotCells)
    rw [foldl_nil, unchanged, overwritten_nil]
  | cons entityId entityIds ih =>
    obtain ⟨entity, isEntity⟩ :=
      Option.isSome_iff_exists.mp (tracked entityId mem_cons_self)
    rw [foldl_cons]
    simp only [isEntity]
    have sameLeaf : leafOf (Function.update manager.entities entityId
        (some { entity with
          leafIdx := HotspotCell.computeLeafIndex cell entity.position })) cell =
        leafOf manager.entities cell := by
      funext other
      rw [leafOf, leafOf]
      by_cases same : other = entityId
      · rw [same, update_self, isEntity]
      rw [update_of_ne same]
    have ownLeaf : leafOf manager.entities cell entityId =
        HotspotCell.computeLeafIndex cell entity.position := by
      rw [leafOf, isEntity]
    have stillTracked : ∀ other ∈ entityIds, ((Function.update manager.entities entityId
        (some { entity with
          leafIdx := HotspotCell.computeLeafIndex cell entity.position })) other).isSome := by
      intro other member
      by_cases same : other = entityId
      · rw [same, update_self]
        rfl
      rw [update_of_ne same]
      exact tracked other (mem_cons_of_mem entityId member)
    refine (ih _ stillTracked).trans ?_
    rw [modifyCell_modifyCell]
    apply HotspotManager.ext
    · rfl
    · rfl
    · simp only [setEntity, modifyCell, sameLeaf, HotspotCell.pushLeaves, foldl_cons, ownLeaf]
    exact @overwritten_update manager.entities (relabeled cell) _ _ isEntity rfl entityIds

theorem leafIn_isSome_iff {entities : UInt32 → Option TrackedEntity} :
    (leafIn entities hIdx entityId).isSome ↔
      ∃ entity, entities entityId = some entity ∧ entity.hotspotId = hIdx + 1 := by
  rw [leafIn]
  rcases isEntity : entities entityId with _ | entity
  · simp
  by_cases numbered : entity.hotspotId = hIdx + 1
  · simp [numbered]
  simp [numbered]

theorem Sound.splitCell_eq (sound : manager.Sound)
    (held : manager.hotspotCells[hIdx]? = some hotspot) (notSplit : hotspot.isSplit = false) :
    manager.splitCell hIdx = { manager.modifyCell hIdx fun other =>
          other.cleared.pushLeaves (leafOf manager.entities hotspot.cell) hotspot.flat with
        entities := overwritten manager.entities (relabeled hotspot.cell) hotspot.flat } := by
  have tracked : ∀ entityId ∈ hotspot.flat, (manager.entities entityId).isSome := by
    intro entityId member
    have isMember : entityId ∈ members hotspot := by
      rw [members, notSplit]
      exact member
    obtain ⟨entity, isEntity, _⟩ := leafIn_isSome_iff.mp
      ((HotspotCell.mem_members_iff (sound.holds hIdx hotspot held)).mp isMember)
    rw [isEntity]
    rfl
  rw [splitCell, cellAt_of_getElem? held]
  refine (foldl_split hotspot.cell hIdx hotspot.flat (manager.modifyCell hIdx
    HotspotCell.cleared) tracked).trans ?_
  rw [modifyCell_modifyCell]
  rfl

theorem Sound.splitCell (sound : manager.Sound) (held : manager.hotspotCells[hIdx]? = some hotspot)
    (notSplit : hotspot.isSplit = false) : (manager.splitCell hIdx).Sound := by
  have holds := sound.holds hIdx hotspot held
  have inFlat : ∀ entityId, entityId ∈ hotspot.flat ↔
      ∃ entity, manager.entities entityId = some entity ∧ entity.hotspotId = hIdx + 1 := by
    intro entityId
    rw [← leafIn_isSome_iff, ← HotspotCell.mem_members_iff holds, members, notSplit]
    simp
  have sameCell := (hotspot.cleared.pushLeaves_spec (leafOf manager.entities hotspot.cell)
    hotspot.flat).1
  rw [sound.splitCell_eq held notSplit]
  refine sound.rebuild held _ sameCell ?_ ?_ ?_
  · intro entityId
    rw [overwritten]
    by_cases member : entityId ∈ hotspot.flat
    · obtain ⟨entity, isEntity, numbered⟩ := (inFlat entityId).mp member
      right
      rw [if_pos member, isEntity]
      refine ⟨?_, ?_⟩
      · intro tracked isTracked
        rw [← some.inj isTracked]
        exact numbered
      intro tracked isTracked
      rw [← some.inj isTracked]
      exact numbered
    left
    rw [if_neg member]
  · intro entityId entity isEntity numbered
    rw [overwritten] at isEntity
    by_cases member : entityId ∈ hotspot.flat
    · rw [if_pos member, map_eq_some_iff] at isEntity
      obtain ⟨before, isBefore, isRelabeled⟩ := isEntity
      obtain ⟨index, other, isIndex, isOther, correct⟩ := sound.indexed _ _ isBefore
      have sameNumber : before.hotspotId = hIdx + 1 := by
        rw [← isRelabeled] at numbered
        exact numbered
      have sameIndex : index = hIdx := by
        omega
      rw [sameIndex, held, some.injEq] at isOther
      have cellIs : hotspot.cell = CellCoord.fromPosition before.position := by
        rw [isOther]
        exact correct.cell
      rw [← isRelabeled]
      refine ⟨sound.within entityId (by rw [isBefore]; rfl), ?_, ?_⟩
      · exact sameCell.trans cellIs
      intro _
      rw [sameCell]
      rfl
    rw [if_neg member] at isEntity
    exact absurd ((inFlat entityId).mpr ⟨entity, isEntity, numbered⟩) member
  refine (holds.distributed notSplit (leafOf manager.entities hotspot.cell)).congr
    fun entityId => ?_
  rw [leafIn, leafIn, overwritten]
  by_cases member : entityId ∈ hotspot.flat
  · obtain ⟨entity, isEntity, numbered⟩ := (inFlat entityId).mp member
    rw [if_pos member, isEntity, map_some, bind_some, bind_some,
      if_pos numbered, relabeled, if_pos numbered, map_some, leafOf, isEntity]
  rw [if_neg member]
  rcases isEntity : manager.entities entityId with _ | entity
  · rfl
  have elsewhere : entity.hotspotId ≠ hIdx + 1 :=
    fun numbered => member ((inFlat entityId).mpr ⟨entity, isEntity, numbered⟩)
  rw [bind_some, if_neg elsewhere]
  rfl

theorem Sound.positionOf_splitCell (sound : manager.Sound)
    (held : manager.hotspotCells[hIdx]? = some hotspot) (notSplit : hotspot.isSplit = false)
    (entityId : UInt32) :
    (manager.splitCell hIdx).positionOf entityId = manager.positionOf entityId := by
  rw [sound.splitCell_eq held notSplit, positionOf]
  simp only [overwritten]
  split
  · rw [Option.map_map]
    rfl
  rfl

theorem Sound.maxEntities_splitCell (sound : manager.Sound)
    (held : manager.hotspotCells[hIdx]? = some hotspot) (notSplit : hotspot.isSplit = false) :
    (manager.splitCell hIdx).maxEntities = manager.maxEntities := by
  rw [sound.splitCell_eq held notSplit]
  rfl

/-- What one operation does to the manager: it stays sound, and the position of no other
entity is changed; the entity is at the new position or not tracked. -/
structure Places (before after : HotspotManager) (entityId : UInt32)
    (position : Option Vec3Fix) : Prop where
  sound : after.Sound
  capacity : after.maxEntities = before.maxEntities
  others : ∀ other, other ≠ entityId → after.positionOf other = before.positionOf other
  placed : after.positionOf entityId = position ∨ after.positionOf entityId = none

theorem Places.trans {before between after : HotspotManager} {first second : Option Vec3Fix}
    (earlier : Places before between entityId first)
    (later : Places between after entityId second) : Places before after entityId second where
  sound := later.sound
  capacity := later.capacity.trans earlier.capacity
  others other different := (later.others other different).trans (earlier.others other different)
  placed := later.placed

theorem Sound.insert {manager : HotspotManager} (sound : manager.Sound) {entityId : UInt32}
    (free : manager.entities entityId = none) (position : Vec3Fix) :
    Places manager (manager.insert entityId position).2 entityId (some position) := by
  have untracked : manager.positionOf entityId = none := by
    rw [positionOf, free]
    rfl
  have unchanged : Places manager manager entityId (some position) :=
    ⟨sound, rfl, fun _ _ => rfl, .inr untracked⟩
  rw [HotspotManager.insert]
  split
  · exact unchanged
  rw [if_neg (by rw [free]; decide)]
  rcases sound.getOrCreateHotspot (CellCoord.fromPosition position) with
    ⟨error, refused⟩ | ⟨hIdx, hotspot, created, done, createdSound, held, named, entities, capacity⟩
  · simp only [refused]
    exact unchanged
  simp only [done]
  rw [cellAt_of_getElem? held]
  generalize entityIs : ({
    position := position
    hotspotId := hIdx + 1
    leafIdx := HotspotCell.computeLeafIndex hotspot.cell position } : TrackedEntity) = entity
  have leafIs : HotspotCell.computeLeafIndex hotspot.cell position = entity.leafIdx := by
    rw [← entityIs]
  have linkedIs : ((created.setEntity entityId (some entity)).modifyCell hIdx fun hotspot =>
      if hotspot.isSplit then hotspot.pushLeaf entity.leafIdx entityId
      else { hotspot with flat := entityId :: hotspot.flat }).modifyCell hIdx (fun hotspot =>
        { hotspot with entityCount := hotspot.entityCount + 1 }) =
      created.withLinked hIdx entityId entity := by
    rw [modifyCell_modifyCell]
    rfl
  have linkedSound : (created.withLinked hIdx entityId entity).Sound := by
    apply createdSound.withLinked held
    · rw [entities, free]
    · omega
    · rw [← entityIs]
    · rw [← entityIs]
      exact named
    rw [← entityIs]
  have linkedHeld : (created.withLinked hIdx entityId entity).hotspotCells[hIdx]? =
      some (hotspot.withEntity entity.leafIdx entityId) :=
    getElem?_modifyCell_self held _
  have places : Places manager (created.withLinked hIdx entityId entity) entityId
      (some position) := by
    refine ⟨linkedSound, capacity, ?_, .inl ?_⟩
    · intro other different
      rw [positionOf, positionOf, ← entities]
      simp only [HotspotManager.withLinked, update_of_ne different]
    rw [positionOf, ← entityIs]
    simp only [HotspotManager.withLinked, update_self, map_some]
  rw [leafIs]
  rw [linkedIs, cellAt_of_getElem? linkedHeld]
  split
  · rename_i full
    have notSplit : (hotspot.withEntity entity.leafIdx entityId).isSplit = false := by
      rw [Bool.and_eq_true, Bool.not_eq_true'] at full
      exact full.1
    refine ⟨linkedSound.splitCell linkedHeld notSplit, ?_, ?_, ?_⟩
    · rw [linkedSound.maxEntities_splitCell linkedHeld notSplit, places.capacity]
    · intro other different
      rw [linkedSound.positionOf_splitCell linkedHeld notSplit, places.others other different]
    rw [linkedSound.positionOf_splitCell linkedHeld notSplit]
    exact places.placed
  exact places

def withUnlinked (manager : HotspotManager) (hIdx : Nat) (entityId : UInt32)
    (leaf : Fin 16) : HotspotManager :=
  { manager.modifyCell hIdx (·.withoutEntity leaf entityId) with
    entities := Function.update manager.entities entityId none }

theorem Sound.withUnlinked (sound : manager.Sound)
    (held : manager.hotspotCells[hIdx]? = some hotspot) {entity : TrackedEntity}
    (isEntity : manager.entities entityId = some entity) (numbered : entity.hotspotId = hIdx + 1) :
    (manager.withUnlinked hIdx entityId entity.leafIdx).Sound := by
  have frame := hotspot.frame_unlinked entity.leafIdx entityId
  have inside : leafIn manager.entities hIdx entityId = some entity.leafIdx := by
    rw [leafIn, isEntity, bind_some, if_pos numbered]
  have fits := sound.within entityId (by rw [isEntity]; rfl)
  refine sound.rebuildOne held (·.withoutEntity entity.leafIdx entityId) frame.1 frame.2.1
    fits ?_ ?_ ?_ ((sound.holds hIdx hotspot held).withoutEntity inside)
  · intro tracked isTracked
    rw [isEntity] at isTracked
    rw [← some.inj isTracked]
    exact numbered
  · intro tracked isTracked
    cases isTracked
  intro tracked isTracked
  cases isTracked

theorem Sound.mergeCell (sound : manager.Sound) (held : manager.hotspotCells[hIdx]? = some hotspot)
    (split : hotspot.isSplit = true) : (manager.mergeCell hIdx).Sound :=
  sound.change held HotspotCell.merged rfl rfl ((sound.holds hIdx hotspot held).merged split)

def renumbered (number : Nat) (entity : TrackedEntity) : TrackedEntity :=
  { entity with hotspotId := number }

theorem foldl_renumber (number : Nat) (entityIds : List UInt32) (manager : HotspotManager) :
    entityIds.foldl (fun manager entityId =>
        match manager.entities entityId with
        | some entity => manager.setEntity entityId (some { entity with hotspotId := number })
        | none => manager) manager =
      { manager with
        entities := overwritten manager.entities (renumbered number) entityIds } := by
  induction entityIds generalizing manager with
  | nil => rw [foldl_nil, overwritten_nil]
  | cons entityId entityIds ih =>
    rw [foldl_cons]
    cases isEntity : manager.entities entityId with
    | none =>
      rw [ih]
      apply HotspotManager.ext
      · rfl
      · rfl
      · rfl
      funext other
      simp only [overwritten, mem_cons]
      by_cases same : other = entityId
      · rw [same, isEntity, map_none, ite_self, ite_self]
      simp only [same, false_or]
    | some entity =>
      rw [ih]
      apply HotspotManager.ext
      · rfl
      · rfl
      · rfl
      exact @overwritten_update manager.entities (renumbered number) _ _ isEntity rfl entityIds

def renumberedLast (hIdx lastIdx : Nat) (entityId : UInt32) : Option TrackedEntity :=
  (entities entityId).map fun entity =>
    if entity.hotspotId = lastIdx + 1 then renumbered (hIdx + 1) entity else entity

theorem Sound.reclaimHotspot_eq (sound : manager.Sound)
    (inside : hIdx < manager.hotspotCells.length) :
    (manager.reclaimHotspot hIdx).maxEntities = manager.maxEntities ∧
      (manager.reclaimHotspot hIdx).entities =
        renumberedLast manager.entities hIdx (manager.hotspotCells.length - 1) ∧
      ∀ index, (manager.reclaimHotspot hIdx).hotspotCells[index]? =
        if index < manager.hotspotCells.length - 1 then
          manager.hotspotCells[
            if index = hIdx then manager.hotspotCells.length - 1 else index]?
        else none := by
  have nonempty : manager.hotspotCells ≠ [] := by
    intro empty
    rw [empty] at inside
    cases inside
  have lastHeld : manager.hotspotCells[manager.hotspotCells.length - 1]? =
      some (manager.hotspotCells.getLast nonempty) := by
    rw [← getLast?_eq_getElem?, getLast?_eq_some_getLast nonempty]
  rw [reclaimHotspot, getLast?_eq_some_getLast nonempty]
  simp only
  split
  · have inLast : ∀ entityId, entityId ∈ members (manager.hotspotCells.getLast nonempty) ↔
        ∃ entity, manager.entities entityId = some entity ∧
          entity.hotspotId = manager.hotspotCells.length - 1 + 1 := by
      intro entityId
      rw [HotspotCell.mem_members_iff (sound.holds _ _ lastHeld), leafIn_isSome_iff]
    have folded := foldl_renumber (hIdx + 1) (members (manager.hotspotCells.getLast nonempty))
      { manager with
        hotspotCells :=
          (manager.hotspotCells.set hIdx (manager.hotspotCells.getLast nonempty)).dropLast }
    generalize foldIs : List.foldl _ _ (members (manager.hotspotCells.getLast nonempty)) = moved
    rw [foldIs.symm.trans folded]
    refine ⟨rfl, ?_, ?_⟩
    · funext entityId
      simp only [overwritten, renumberedLast]
      by_cases member : entityId ∈ members (manager.hotspotCells.getLast nonempty)
      · obtain ⟨entity, isEntity, numbered⟩ := (inLast entityId).mp member
        rw [if_pos member, isEntity, map_some, map_some, if_pos numbered]
      rw [if_neg member]
      rcases isEntity : manager.entities entityId with _ | entity
      · rfl
      rw [map_some, if_neg]
      intro numbered
      exact member ((inLast entityId).mpr ⟨entity, isEntity, numbered⟩)
    intro index
    rw [getElem?_dropLast, length_set, getElem?_set]
    split
    · by_cases here : index = hIdx
      · rw [if_pos here.symm, if_pos here, lastHeld]
      rw [if_neg (Ne.symm here), if_neg here]
    rfl
  rename_i isLast
  have sameIndex : hIdx = manager.hotspotCells.length - 1 := not_not.mp isLast
  refine ⟨rfl, ?_, ?_⟩
  · funext entityId
    rw [renumberedLast, ← sameIndex]
    rcases manager.entities entityId with _ | entity
    · rfl
    rw [map_some]
    split
    · rename_i numbered
      rw [renumbered, ← numbered]
    rfl
  intro index
  rw [getElem?_dropLast]
  split
  · rw [if_neg]
    omega
  rfl

theorem Sound.reclaimHotspot (sound : manager.Sound)
    (held : manager.hotspotCells[hIdx]? = some hotspot) (empty : hotspot.entityCount = 0) :
    (manager.reclaimHotspot hIdx).Sound := by
  have inside := (List.getElem?_eq_some_iff.mp held).1
  obtain ⟨capacity, entitiesAre, cellsAre⟩ := sound.reclaimHotspot_eq inside
  -- Nothing is tracked in the cell that is dropped.
  have notHere : ∀ entityId entity, manager.entities entityId = some entity →
      entity.hotspotId ≠ hIdx + 1 := by
    intro entityId entity isEntity numbered
    have nothing := (sound.holds hIdx hotspot held).counted
    rw [empty, eq_comm, Set.ncard_eq_zero] at nothing
    have member : entityId ∈ {entityId | (leafIn manager.entities hIdx entityId).isSome} :=
      leafIn_isSome_iff.mpr ⟨entity, isEntity, numbered⟩
    rw [nothing] at member
    cases member
  have fromOld : ∀ {index : Nat} {cell : HotspotCell},
      (manager.reclaimHotspot hIdx).hotspotCells[index]? = some cell →
        index < manager.hotspotCells.length - 1 ∧ manager.hotspotCells[
            if index = hIdx then manager.hotspotCells.length - 1 else index]? = some cell := by
    intro index cell isCell
    rw [cellsAre] at isCell
    split at isCell
    · rename_i before
      exact ⟨before, isCell⟩
    cases isCell
  constructor
  · intro first second one other isFirst isSecond sameCell
    obtain ⟨firstBefore, firstOld⟩ := fromOld isFirst
    obtain ⟨secondBefore, secondOld⟩ := fromOld isSecond
    have sameIndex := sound.distinct _ _ _ _ firstOld secondOld sameCell
    split at sameIndex
    · split at sameIndex <;> omega
    split at sameIndex
    · omega
    exact sameIndex
  · intro entityId tracked
    rw [capacity]
    apply sound.within
    rw [entitiesAre, renumberedLast, isSome_map] at tracked
    exact tracked
  · intro entityId entity isEntity
    rw [entitiesAre, renumberedLast, map_eq_some_iff] at isEntity
    obtain ⟨before, isBefore, isAfter⟩ := isEntity
    obtain ⟨index, cell, numbered, isCell, correct⟩ := sound.indexed _ _ isBefore
    have elsewhere := notHere entityId before isBefore
    have bound := (List.getElem?_eq_some_iff.mp isCell).1
    split at isAfter
    · have lastIndex : index = manager.hotspotCells.length - 1 := by
        omega
      refine ⟨hIdx, cell, ?_, ?_, ?_⟩
      · rw [← isAfter]
        rfl
      · rw [cellsAre, if_pos (by omega), if_pos rfl, ← lastIndex, isCell]
      rw [← isAfter]
      exact ⟨correct.cell, correct.leaf⟩
    refine ⟨index, cell, ?_, ?_, ?_⟩
    · rw [← isAfter, numbered]
    · rw [cellsAre, if_pos (by omega), if_neg (by omega), isCell]
    rw [← isAfter]
    exact correct
  intro index cell isCell
  obtain ⟨before, isOld⟩ := fromOld isCell
  refine (sound.holds _ cell isOld).congr fun entityId => ?_
  rw [entitiesAre, leafIn, leafIn, renumberedLast]
  rcases isEntity : manager.entities entityId with _ | entity
  · rfl
  have elsewhere := notHere entityId entity isEntity
  rw [map_some, bind_some, bind_some]
  by_cases here : index = hIdx
  · rw [if_pos here]
    by_cases lastNumber : entity.hotspotId = manager.hotspotCells.length - 1 + 1
    · rw [if_pos lastNumber, if_pos lastNumber, renumbered, if_pos (by rw [here])]
    rw [if_neg lastNumber, if_neg lastNumber, if_neg]
    rw [here]
    exact elsewhere
  rw [if_neg here]
  by_cases lastNumber : entity.hotspotId = manager.hotspotCells.length - 1 + 1
  · have notIndex : ¬ entity.hotspotId = index + 1 := by
      omega
    have notHereIndex : ¬ hIdx + 1 = index + 1 := by
      omega
    rw [if_pos lastNumber, if_neg notIndex, renumbered, if_neg notHereIndex]
  rw [if_neg lastNumber]

theorem Sound.positionOf_reclaimHotspot (sound : manager.Sound)
    (inside : hIdx < manager.hotspotCells.length) (entityId : UInt32) :
    (manager.reclaimHotspot hIdx).positionOf entityId = manager.positionOf entityId := by
  rw [positionOf, positionOf, (sound.reclaimHotspot_eq inside).2.1, renumberedLast, Option.map_map]
  rcases manager.entities entityId with _ | entity
  · rfl
  rw [map_some, Function.comp]
  split <;> rfl

theorem positionOf_eq_none_iff :
    manager.positionOf entityId = none ↔ manager.entities entityId = none :=
  map_eq_none_iff

theorem Sound.remove (sound : manager.Sound) (entityId : UInt32) :
    Places manager (manager.remove entityId).2 entityId none := by
  rw [HotspotManager.remove]
  rcases isEntity : manager.entities entityId with _ | entity
  · exact ⟨sound, rfl, fun _ _ => rfl, .inl (positionOf_eq_none_iff.mpr isEntity)⟩
  obtain ⟨hIdx, hotspot, numbered, held, _⟩ := sound.indexed entityId entity isEntity
  have fits := sound.within entityId (by rw [isEntity]; rfl)
  have isIndex : entity.hotspotId - 1 = hIdx := by
    omega
  simp only
  rw [if_neg (by omega), isIndex]
  have unlinkedIs : ((manager.modifyCell hIdx fun hotspot =>
      if hotspot.isSplit then hotspot.unlinkLeaf entity.leafIdx entityId
      else { hotspot with flat := hotspot.flat.erase entityId }).modifyCell hIdx
        fun hotspot => { hotspot with entityCount := hotspot.entityCount - 1 }).setEntity
          entityId none = manager.withUnlinked hIdx entityId entity.leafIdx := by
    rw [modifyCell_modifyCell]
    rfl
  have unlinkedSound := sound.withUnlinked held isEntity numbered
  have unlinkedHeld : (manager.withUnlinked hIdx entityId entity.leafIdx).hotspotCells[hIdx]? =
        some (hotspot.withoutEntity entity.leafIdx entityId) :=
    getElem?_modifyCell_self held _
  have places : Places manager (manager.withUnlinked hIdx entityId entity.leafIdx)
      entityId none := by
    refine ⟨unlinkedSound, rfl, ?_, .inl ?_⟩
    · intro other different
      rw [positionOf, positionOf]
      simp only [HotspotManager.withUnlinked, update_of_ne different]
    rw [positionOf]
    simp only [HotspotManager.withUnlinked, update_self, map_none]
  rw [unlinkedIs, cellAt_of_getElem? unlinkedHeld]
  -- Whether or not the cell is merged, an entity or none is left in it.
  have finished : ∀ (after : HotspotManager) (cell : HotspotCell),
      Places manager after entityId none → after.hotspotCells[hIdx]? = some cell →
      Places manager (if (after.cellAt hIdx).entityCount = 0 then
          (Except.ok (), after.reclaimHotspot hIdx)
        else (Except.ok (), after) : Except SpatialError Unit × HotspotManager).2
        entityId none := by
    intro after cell afterPlaces afterHeld
    rw [cellAt_of_getElem? afterHeld]
    have inside := (List.getElem?_eq_some_iff.mp afterHeld).1
    have afterSound := afterPlaces.sound
    split
    · rename_i empty
      refine ⟨afterSound.reclaimHotspot afterHeld empty, ?_, ?_, ?_⟩
      · exact (afterSound.reclaimHotspot_eq inside).1.trans afterPlaces.capacity
      · intro other different
        rw [afterSound.positionOf_reclaimHotspot inside, afterPlaces.others other different]
      rw [afterSound.positionOf_reclaimHotspot inside]
      exact afterPlaces.placed
    exact afterPlaces
  split
  · rename_i small
    rw [Bool.and_eq_true] at small
    apply finished _ (hotspot.withoutEntity entity.leafIdx entityId).merged
    · exact ⟨unlinkedSound.mergeCell unlinkedHeld small.1, rfl, places.others, places.placed⟩
    exact getElem?_modifyCell_self unlinkedHeld _
  exact finished _ _ places unlinkedHeld

theorem Sound.withMoved {manager : HotspotManager} (sound : manager.Sound) {hIdx : Nat}
    {hotspot : HotspotCell} (held : manager.hotspotCells[hIdx]? = some hotspot)
    {entityId : UInt32} {entity moved : TrackedEntity}
    (isEntity : manager.entities entityId = some entity)
    (numbered : entity.hotspotId = hIdx + 1) (sameNumber : moved.hotspotId = hIdx + 1)
    (change : HotspotCell → HotspotCell) (sameCell : (change hotspot).cell = hotspot.cell)
    (sameSplit : (change hotspot).isSplit = hotspot.isSplit)
    (inCell : InCell (change hotspot) moved)
    (holds : (change hotspot).Holds
      (Function.update (leafIn manager.entities hIdx) entityId (some moved.leafIdx))) :
    Places manager ((manager.setEntity entityId (some moved)).modifyCell hIdx change) entityId
      (some moved.position) := by
  have fits := sound.within entityId (by rw [isEntity]; rfl)
  have moveSound : ({ manager.modifyCell hIdx change with
      entities := Function.update manager.entities entityId (some moved) } :
        HotspotManager).Sound := by
    refine sound.rebuildOne held change sameCell sameSplit fits ?_ ?_ ?_ holds
    · intro tracked isTracked
      rw [isEntity] at isTracked
      rw [← some.inj isTracked]
      exact numbered
    · intro tracked isTracked
      rw [← some.inj isTracked]
      exact sameNumber
    intro tracked isTracked
    rw [← some.inj isTracked]
    exact inCell
  refine ⟨moveSound, rfl, ?_, .inl ?_⟩
  · intro other different
    rw [positionOf, positionOf]
    simp only [modifyCell, setEntity, update_of_ne different]
  rw [positionOf]
  simp only [modifyCell, setEntity, update_self, map_some]

theorem Sound.updatePosition (sound : manager.Sound) (entityId : UInt32) (newPos : Vec3Fix) :
    Places manager (manager.updatePosition entityId newPos).2 entityId (some newPos) := by
  rw [HotspotManager.updatePosition]
  rcases isEntity : manager.entities entityId with _ | entity
  · exact ⟨sound, rfl, fun _ _ => rfl, .inr (positionOf_eq_none_iff.mpr isEntity)⟩
  obtain ⟨hIdx, hotspot, numbered, held, correct⟩ :=
    sound.indexed entityId entity isEntity
  have fits := sound.within entityId (by rw [isEntity]; rfl)
  have isIndex : entity.hotspotId - 1 = hIdx := by
    omega
  simp only
  rw [if_neg (by omega)]
  split
  · -- The entity leaves the cell, and is tracked again if there is room for its new one.
    have removed := sound.remove entityId
    rcases done : manager.remove entityId with ⟨result, after⟩
    rw [done] at removed
    cases result with
    | error error =>
      refine ⟨removed.sound, removed.capacity, removed.others, .inr ?_⟩
      exact removed.placed.elim (fun gone => gone) (fun gone => gone)
    | ok =>
      have gone : after.positionOf entityId = none :=
        removed.placed.elim (fun gone => gone) (fun gone => gone)
      exact removed.trans (removed.sound.insert (positionOf_eq_none_iff.mp gone) newPos)
  rename_i sameCell
  have inside : leafIn manager.entities hIdx entityId = some entity.leafIdx := by
    rw [leafIn, isEntity, bind_some, if_pos numbered]
  have cellIs : hotspot.cell = CellCoord.fromPosition newPos :=
    correct.cell.trans (not_not.mp sameCell)
  have holds := sound.holds hIdx hotspot held
  rw [isIndex, cellAt_of_getElem? held]
  split
  · rename_i leaves
    rw [Bool.and_eq_true] at leaves
    have newHolds := holds.moved inside leaves.1 (HotspotCell.computeLeafIndex hotspot.cell newPos)
    exact @Sound.withMoved _ sound _ _ held _ _
      { entity with
        position := newPos
        leafIdx := HotspotCell.computeLeafIndex hotspot.cell newPos }
      isEntity numbered numbered _ rfl rfl ⟨cellIs, fun _ => rfl⟩ newHolds
  rename_i stays
  have unchanged : Function.update (leafIn manager.entities hIdx) entityId
      (some entity.leafIdx) = leafIn manager.entities hIdx := by
    rw [← inside, update_eq_self]
  have sameCells : (manager.setEntity entityId
      (some { entity with position := newPos })).modifyCell hIdx id =
        manager.setEntity entityId (some { entity with position := newPos }) := by
    rw [modifyCell, modify_id]
  rw [← sameCells]
  refine @Sound.withMoved _ sound _ _ held _ _ { entity with position := newPos }
    isEntity numbered numbered id rfl rfl ⟨cellIs, ?_⟩ ?_
  · intro split
    have splitBefore : hotspot.isSplit = true := split
    rw [splitBefore, Bool.true_and, decide_eq_true_iff] at stays
    exact not_not.mp stays
  rw [unchanged]
  exact holds

end HotspotManager

end Eidolon.Spatial
