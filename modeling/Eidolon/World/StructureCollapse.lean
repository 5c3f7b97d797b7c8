import Eidolon.Library.Run
import Eidolon.World.StructureSupport

/-!
# Collapse of structures

What stands on a destroyed piece collapses with it, and what loses too much stability when
it is computed again. A foundation on another piece is placed with full stability, which it
does not keep in that computation.
-/

namespace Eidolon.World

open Eidolon.Core Eidolon.Library Eidolon.Spatial List Option Relation

/-- A call of the manager; a destruction comes with the order of the keys that are left. -/
inductive BuildingCall where
  | createPrefab (ownerAccountId : UInt64) (prefabTypeId : UInt32) (position : Vec3Fix)
      (yaw : QuantizedYaw) (interiorCellId : Option UInt32)
  | placeFoundation (ownerAccountId : UInt64) (position : Vec3Fix) (yaw : QuantizedYaw)
      (material : MaterialType)
  | placePiece (structureId parentPieceId : UInt32) (pieceType : PieceType)
      (material : MaterialType) (socket : SnapSocket) (variantFlags : UInt8)
  | destroyPiece (structureId targetPieceId : UInt32) (order : List UInt32)

structure Site where
  manager : StructureManager
  placed : Nat

namespace Site

def new : Site where
  manager := .new
  placed := 0

def step (site : Site) : BuildingCall → Site
  | .createPrefab ownerAccountId prefabTypeId position yaw interiorCellId =>
    { manager :=
        (site.manager.createPrefab ownerAccountId prefabTypeId position yaw interiorCellId).2
      placed := site.placed + 1 }
  | .placeFoundation ownerAccountId position yaw material =>
    { manager := (site.manager.placeFoundation ownerAccountId position yaw material).2
      placed := site.placed + 1 }
  | .placePiece structureId parentPieceId pieceType material socket variantFlags =>
    match site.manager.placePiece structureId parentPieceId pieceType material socket
        variantFlags with
    | (.ok _, manager) => { manager := manager, placed := site.placed + 1 }
    | (.error _, manager) => { site with manager := manager }
  | .destroyPiece structureId targetPieceId order =>
    match site.manager.destroyPiece order.length structureId targetPieceId order with
    | some (_, manager) => { site with manager := manager }
    | none => site

/-- Identifiers are left for a placed piece, and a destruction walks over the pieces that are
left, each once. -/
def Assumed (site : Site) : BuildingCall → Prop
  | .destroyPiece structureId targetPieceId order =>
    ∀ structure_, site.manager.structures.lookup structureId = some structure_ →
      targetPieceId ∈ structure_.pieces →
        order.Nodup ∧ ∀ id, id ∈ order ↔ id ∈ structure_.pieces.erase targetPieceId
  | _ => site.placed < 2 ^ 32 - 1

/-- No piece stands on a missing one, and the compound has the pieces of the map. -/
structure Sound (site : Site) : Prop where
  supported : ∀ structureId structure_,
    site.manager.structures.lookup structureId = some structure_ →
      ∀ id piece, structure_.pieces.lookup id = some piece →
        piece.parentPieceId = 0 ∨ piece.parentPieceId ∈ structure_.pieces
  compound : ∀ structureId structure_,
    site.manager.structures.lookup structureId = some structure_ →
      (structure_.compound.pieces.map BvhLeafPiece.pieceId).Nodup ∧
        ∀ id, id ∈ structure_.compound.pieces.map BvhLeafPiece.pieceId ↔
          id ∈ structure_.pieces

end Site

/-- The collapsed pieces are those that stand on the destroyed one, directly or not, and it;
all else is kept. -/
structure CollapsesAbove (before after : StructureManager) (structureId targetPieceId : UInt32)
    (collapsed : List UInt32) : Prop where
  distinct : collapsed.Nodup
  exists_pieces : ∃ structure_ left, before.structures.lookup structureId = some structure_ ∧
    after.structures.lookup structureId = some left ∧
    (∀ id, id ∈ collapsed ↔ ReflTransGen (Supports structure_.pieces) targetPieceId id) ∧
    ∀ id, left.pieces.lookup id =
      if id ∈ collapsed then none else structure_.pieces.lookup id
  others : ∀ other ≠ structureId,
    after.structures.lookup other = before.structures.lookup other

namespace Site

/-- What a destruction should do: it ends, and takes the pieces that stand on the target. -/
def Behaves (site : Site) : BuildingCall → Prop
  | .destroyPiece structureId targetPieceId order =>
    ∃ result, (∀ fuel, order.length ≤ fuel →
        site.manager.destroyPiece fuel structureId targetPieceId order =
          some (result, (site.step (.destroyPiece structureId targetPieceId order)).manager)) ∧
      match result with
      | .error _ => site.step (.destroyPiece structureId targetPieceId order) = site
      | .ok collapsed =>
        CollapsesAbove site.manager
          (site.step (.destroyPiece structureId targetPieceId order)).manager structureId
          targetPieceId collapsed
  | _ => True

/-- The pieces that do not stand on the target lose less on the way from the ground than a
foundation has. -/
def Meets (site : Site) : BuildingCall → Prop
  | .destroyPiece structureId targetPieceId _ =>
    ∀ structure_, site.manager.structures.lookup structureId = some structure_ →
      targetPieceId ∈ structure_.pieces → ∀ id total, Load structure_.pieces id total →
          ¬ ReflTransGen (Supports structure_.pieces) targetPieceId id → total < 100
  | _ => True

end Site

structure WellBuilt (structure_ : StructureInstance) (placed : Nat) : Prop where
  founded : Founded structure_.pieces
  numbered : ∀ id piece, structure_.pieces.lookup id = some piece → id.toNat ≤ placed
  grounded : ∀ id piece, structure_.pieces.lookup id = some piece → piece.parentPieceId = 0 →
    piece.pieceData.pieceType = some .foundation
  nodup : (structure_.compound.pieces.map BvhLeafPiece.pieceId).Nodup
  sameIds : ∀ id, id ∈ structure_.compound.pieces.map BvhLeafPiece.pieceId ↔
    id ∈ structure_.pieces

theorem removePiece_ids {compound : CompoundStructure}
    (nodup : (compound.pieces.map BvhLeafPiece.pieceId).Nodup) (removed : UInt32) :
    ((compound.removePiece removed).2.pieces.map BvhLeafPiece.pieceId).Nodup ∧
      ∀ id, id ∈ (compound.removePiece removed).2.pieces.map BvhLeafPiece.pieceId ↔
        id ∈ compound.pieces.map BvhLeafPiece.pieceId ∧ id ≠ removed := by
  have kept : ∀ bounds : CompoundStructure, bounds.recomputeBounds.pieces = bounds.pieces := by
    intro bounds
    rw [CompoundStructure.recomputeBounds]
    split
    · rfl
    rfl
  rw [CompoundStructure.removePiece]
  cases found : compound.pieces.findIdx? fun piece => piece.pieceId == removed with
  | none =>
    refine ⟨nodup, fun id => ⟨fun there => ⟨there, ?_⟩, And.left⟩⟩
    rintro rfl
    obtain ⟨piece, isPiece, isId⟩ := mem_map.mp there
    rw [findIdx?_eq_none_iff] at found
    have different := found piece isPiece
    rw [isId, beq_self_eq_true] at different
    cases different
  | some pos =>
    rw [kept]
    obtain ⟨inside, isRemoved, -⟩ := findIdx?_eq_some_iff_getElem.mp found
    rw [beq_iff_eq] at isRemoved
    have split := (perm_swapRemove (getElem?_eq_getElem inside)).map BvhLeafPiece.pieceId
    rw [map_cons, isRemoved] at split
    have distinct := split.nodup_iff.mp nodup
    rw [nodup_cons] at distinct
    refine ⟨distinct.2, ?_⟩
    intro id
    rw [split.mem_iff, mem_cons]
    constructor
    · intro there
      refine ⟨.inr there, ?_⟩
      rintro rfl
      exact distinct.1 there
    rintro ⟨isIt | there, different⟩
    · exact absurd isIt different
    exact there

theorem collapse_lookup (structure_ : StructureInstance) (cid id : UInt32) :
    (StructureManager.collapse structure_ cid).pieces.lookup id =
      if id = cid then none else structure_.pieces.lookup id := by
  rw [StructureManager.collapse]
  split
  · rename_i same
    rw [same, Finmap.lookup_erase]
  rename_i different
  rw [Finmap.lookup_erase_ne different]

variable {structure_ : StructureInstance}

theorem collapse_sameIds (nodup : (structure_.compound.pieces.map BvhLeafPiece.pieceId).Nodup)
    (sameIds : ∀ id, id ∈ structure_.compound.pieces.map BvhLeafPiece.pieceId ↔
      id ∈ structure_.pieces) (cid : UInt32) :
    ((StructureManager.collapse structure_ cid).compound.pieces.map BvhLeafPiece.pieceId).Nodup ∧
      ∀ id, id ∈ (StructureManager.collapse structure_ cid).compound.pieces.map
          BvhLeafPiece.pieceId ↔ id ∈ (StructureManager.collapse structure_ cid).pieces := by
  obtain ⟨nodupAfter, ids⟩ := removePiece_ids nodup cid
  refine ⟨nodupAfter, ?_⟩
  intro id
  rw [StructureManager.collapse, Finmap.mem_erase, ← sameIds]
  exact (ids id).trans and_comm

theorem foldl_collapse (nodup : (structure_.compound.pieces.map BvhLeafPiece.pieceId).Nodup)
    (sameIds : ∀ id, id ∈ structure_.compound.pieces.map BvhLeafPiece.pieceId ↔
      id ∈ structure_.pieces) (cids : List UInt32) :
    (∀ id, (cids.foldl StructureManager.collapse structure_).pieces.lookup id =
        if id ∈ cids then none else structure_.pieces.lookup id) ∧
      ((cids.foldl StructureManager.collapse structure_).compound.pieces.map
        BvhLeafPiece.pieceId).Nodup ∧
      ∀ id, id ∈ (cids.foldl StructureManager.collapse structure_).compound.pieces.map
          BvhLeafPiece.pieceId ↔
        id ∈ (cids.foldl StructureManager.collapse structure_).pieces := by
  induction cids generalizing structure_ with
  | nil => exact ⟨fun id => (if_neg not_mem_nil).symm, nodup, sameIds⟩
  | cons cid cids ih =>
    obtain ⟨nodupNext, sameIdsNext⟩ := collapse_sameIds nodup sameIds cid
    obtain ⟨lookups, rest⟩ := ih nodupNext sameIdsNext
    refine ⟨?_, rest⟩
    intro id
    rw [foldl_cons, lookups, collapse_lookup]
    by_cases same : id = cid
    · rw [if_pos same, if_pos (List.mem_cons.mpr (.inl same)), ite_self]
    rw [if_neg same]
    by_cases later : id ∈ cids
    · rw [if_pos later, if_pos (mem_cons_of_mem cid later)]
    rw [if_neg later, if_neg]
    intro there
    exact (List.mem_cons.mp there).elim same later

theorem wellBuilt_newInstance {manager : StructureManager} {placed : Nat}
    (next : manager.nextPieceId.toNat = placed + 1) (ownerAccountId : UInt64) (isPrefab : Bool)
    (prefabTypeId : UInt32) (position : Vec3Fix) (yaw : QuantizedYaw) (material : MaterialType)
    (interiorCellId : Option UInt32) (health : UInt32) :
    WellBuilt (manager.newInstance ownerAccountId isPrefab prefabTypeId position yaw material
      interiorCellId health) (placed + 1) := by
  have only : ∀ {root piece : StructurePiece} {id : UInt32},
      (Finmap.singleton manager.nextPieceId root : PieceMap).lookup id = some piece →
        id = manager.nextPieceId ∧ piece = root := by
    intro root piece id held
    have isNext : id = manager.nextPieceId := by
      have there : id ∈ (Finmap.singleton manager.nextPieceId root : PieceMap) :=
        Finmap.mem_iff.mpr ⟨piece, held⟩
      exact (Finmap.mem_singleton _ _ _).mp there
    rw [isNext, Finmap.lookup_singleton_eq, some.injEq] at held
    exact ⟨isNext, held.symm⟩
  refine ⟨⟨?_, ?_, ?_⟩, ?_, ?_, nodup_singleton _, ?_⟩
  · rintro id piece held isZero
    rw [(only held).1] at isZero
    rw [isZero] at next
    exact absurd next (Nat.succ_ne_zero placed).symm
  · intro id piece held
    rw [(only held).1, (only held).2, next]
    exact Nat.succ_pos placed
  · intro id piece held
    rw [(only held).2]
    exact .inl rfl
  · intro id piece held
    rw [(only held).1, next]
  · intro id piece held _
    rw [(only held).2]
    rfl
  intro id
  rw [StructureManager.newInstance, Finmap.mem_singleton]
  exact mem_singleton

theorem WellBuilt.insert {structure_ : StructureInstance} {placed : Nat}
    (built : WellBuilt structure_ placed) {pieceId : UInt32} (next : pieceId.toNat = placed + 1)
    (piece : StructurePiece) {parent : StructurePiece}
    (parentHeld : structure_.pieces.lookup piece.parentPieceId = some parent)
    (pieceType : PieceType) (center : Vec3Fix) :
    WellBuilt { structure_ with
      compound := structure_.compound.addPiece pieceId pieceType center
      pieces := structure_.pieces.insert pieceId piece } (placed + 1) := by
  have fresh : pieceId ∉ structure_.pieces := by
    intro there
    obtain ⟨old, held⟩ := Finmap.mem_iff.mp there
    have numbered := built.numbered pieceId old held
    omega
  have oneOf : ∀ {id : UInt32} {other : StructurePiece},
      (structure_.pieces.insert pieceId piece).lookup id = some other →
        (id = pieceId ∧ other = piece) ∨ structure_.pieces.lookup id = some other := by
    intro id other held
    by_cases same : id = pieceId
    · rw [same, Finmap.lookup_insert, some.injEq] at held
      exact .inl ⟨same, held.symm⟩
    rw [Finmap.lookup_insert_of_ne _ same] at held
    exact .inr held
  have kept : ∀ {id : UInt32} {other : StructurePiece}, structure_.pieces.lookup id = some other →
        (structure_.pieces.insert pieceId piece).lookup id = some other := by
    intro id other held
    have different : id ≠ pieceId := by
      rintro rfl
      exact fresh (Finmap.mem_iff.mpr ⟨other, held⟩)
    rw [Finmap.lookup_insert_of_ne _ different, held]
  have parentNumbered := built.numbered _ _ parentHeld
  refine ⟨⟨?_, ?_, ?_⟩, ?_, ?_, ?_, ?_⟩
  · intro id other held
    rcases oneOf held with ⟨rfl, -⟩ | before
    · rintro rfl
      exact absurd next (Nat.succ_ne_zero placed).symm
    exact built.founded.positive id other before
  · intro id other held
    rcases oneOf held with ⟨rfl, rfl⟩ | before
    · omega
    exact built.founded.earlier id other before
  · intro id other held
    rcases oneOf held with ⟨-, rfl⟩ | before
    · exact .inr ⟨parent, kept parentHeld⟩
    rcases built.founded.supported id other before with isGround | ⟨below, belowHeld⟩
    · exact .inl isGround
    exact .inr ⟨below, kept belowHeld⟩
  · intro id other held
    rcases oneOf held with ⟨rfl, -⟩ | before
    · exact next.le
    exact Nat.le_succ_of_le (built.numbered id other before)
  · intro id other held isGround
    rcases oneOf held with ⟨-, rfl⟩ | before
    · exact absurd isGround (built.founded.positive _ _ parentHeld)
    exact built.grounded id other before isGround
  · rw [CompoundStructure.addPiece, map_append, nodup_append]
    refine ⟨built.nodup, nodup_singleton _, ?_⟩
    rintro id there other isNew rfl
    rw [map_singleton, mem_singleton] at isNew
    rw [isNew, built.sameIds] at there
    exact fresh there
  intro id
  rw [CompoundStructure.addPiece, map_append, mem_append, built.sameIds,
    Finmap.mem_insert, map_singleton, mem_singleton, or_comm]

/-- What is left after a destruction, without what stood on the target or lost too much. -/
structure Destroyed (structure_ left : StructureInstance) (targetPieceId : UInt32)
    (collapsed : List UInt32) : Prop where
  distinct : collapsed.Nodup
  members : ∀ id, id ∈ collapsed ↔ id = targetPieceId ∨
    ((∃ piece, structure_.pieces.lookup id = some piece) ∧
      ¬ ∃ total, Load (structure_.pieces.erase targetPieceId) id total ∧ total < 100)
  lookups : ∀ id, left.pieces.lookup id =
    if id ∈ collapsed then none else structure_.pieces.lookup id
  nodup : (left.compound.pieces.map BvhLeafPiece.pieceId).Nodup
  sameIds : ∀ id, id ∈ left.compound.pieces.map BvhLeafPiece.pieceId ↔ id ∈ left.pieces

theorem lookup_of_erase {pieces : PieceMap} {target id : UInt32} {piece : StructurePiece}
    (held : (pieces.erase target).lookup id = some piece) : pieces.lookup id = some piece := by
  by_cases same : id = target
  · rw [same, Finmap.lookup_erase] at held
    cases held
  rwa [Finmap.lookup_erase_ne same] at held

theorem destroyPiece_eq {manager : StructureManager} {structureId targetPieceId : UInt32}
    {placed : Nat} (held : manager.structures.lookup structureId = some structure_)
    (built : WellBuilt structure_ placed) (present : targetPieceId ∈ structure_.pieces)
    {order : List UInt32} (distinct : order.Nodup)
    (listed : ∀ id, id ∈ order ↔ id ∈ structure_.pieces.erase targetPieceId) :
    ∃ collapsed left, Destroyed structure_ left targetPieceId collapsed ∧
      ∀ fuel, order.length ≤ fuel → manager.destroyPiece fuel structureId targetPieceId order =
          some (.ok collapsed,
            { manager with structures := manager.structures.insert structureId left }) := by
  have listedErase : ∀ id, id ∈ order ↔
      ∃ piece, (structure_.pieces.erase targetPieceId).lookup id = some piece := by
    intro id
    rw [listed, Finmap.mem_iff]
  have ends : ∀ {fuel : Nat}, order.length ≤ fuel → ∃ stability,
      propagate (structure_.pieces.erase targetPieceId) order fuel
          (order.foldl (groundPiece (structure_.pieces.erase targetPieceId)) ([], fun _ => none)).1
          (order.foldl (groundPiece (structure_.pieces.erase targetPieceId))
            ([], fun _ => none)).2 = some stability ∧
        ∀ id, stability id ≠ none ↔
          ∃ total, Load (structure_.pieces.erase targetPieceId) id total ∧ total < 100 := by
    intro fuel enough
    exact exists_propagated
      (fun id piece inErase => built.founded.positive id piece (lookup_of_erase inErase))
      (fun id piece inErase => built.grounded id piece (lookup_of_erase inErase)) distinct
      listedErase enough
  obtain ⟨stability, -, found⟩ := ends (Nat.le_refl order.length)
  obtain ⟨nodupFirst, sameIdsFirst⟩ := collapse_sameIds built.nodup built.sameIds targetPieceId
  obtain ⟨lookups, nodupLast, sameIdsLast⟩ := foldl_collapse nodupFirst sameIdsFirst
    (order.filter fun pid => (stability pid).isNone)
  have memberOf : ∀ id, id ∈ (order.filter fun pid => (stability pid).isNone) ↔
      id ∈ order ∧ ¬ ∃ total,
        Load (structure_.pieces.erase targetPieceId) id total ∧ total < 100 := by
    intro id
    rw [mem_filter, isNone_iff_eq_none, ← found, not_not]
  refine ⟨targetPieceId :: order.filter fun pid => (stability pid).isNone,
    (order.filter fun pid => (stability pid).isNone).foldl StructureManager.collapse
      (StructureManager.collapse structure_ targetPieceId),
    ⟨?_, ?_, ?_, nodupLast, sameIdsLast⟩, ?_⟩
  · rw [nodup_cons]
    refine ⟨?_, distinct.filter _⟩
    intro there
    rw [memberOf, listed, Finmap.mem_erase] at there
    exact there.1.1 rfl
  · intro id
    rw [mem_cons, memberOf, listed, Finmap.mem_erase, Finmap.mem_iff]
    by_cases same : id = targetPieceId
    · exact iff_of_true (.inl same) (.inl same)
    simp only [same, false_or, ne_eq, not_false_eq_true, true_and]
  · intro id
    rw [lookups, collapse_lookup]
    by_cases same : id = targetPieceId
    · rw [if_pos same, if_pos (List.mem_cons.mpr (.inl same)), ite_self]
    rw [if_neg same]
    simp only [mem_cons, same, false_or]
  intro fuel enough
  obtain ⟨other, isOther, foundOther⟩ := ends enough
  have sameFilter : (order.filter fun pid => (other pid).isNone) =
      order.filter fun pid => (stability pid).isNone := by
    apply filter_congr
    intro id _
    rw [Bool.eq_iff_iff, isNone_iff_eq_none, isNone_iff_eq_none]
    exact not_iff_not.mp ((foundOther id).trans (found id).symm)
  obtain ⟨target, targetHeld⟩ := Finmap.mem_iff.mp present
  have remaining : (StructureManager.collapse structure_ targetPieceId).pieces =
      structure_.pieces.erase targetPieceId := rfl
  rw [StructureManager.destroyPiece, held]
  dsimp only
  rw [targetHeld, remaining, isOther]
  dsimp only
  rw [sameFilter]
  rfl

section Destroyed

variable {structure_ left : StructureInstance} {targetPieceId : UInt32} {collapsed : List UInt32}
  {placed : Nat}

section

variable (destroyed : Destroyed structure_ left targetPieceId collapsed)
include destroyed

theorem Destroyed.exists_load {id : UInt32} {piece : StructurePiece}
    (held : left.pieces.lookup id = some piece) :
    structure_.pieces.lookup id = some piece ∧
      ∃ total, Load (structure_.pieces.erase targetPieceId) id total ∧ total < 100 := by
  rw [destroyed.lookups] at held
  split at held
  · cases held
  rename_i notCollapsed
  refine ⟨held, ?_⟩
  by_contra lost
  exact notCollapsed ((destroyed.members id).mpr (.inr ⟨⟨piece, held⟩, lost⟩))

theorem Destroyed.supported {id : UInt32} {piece : StructurePiece}
    (held : left.pieces.lookup id = some piece) :
    piece.parentPieceId = 0 ∨ ∃ parent, left.pieces.lookup piece.parentPieceId = some parent := by
  obtain ⟨heldBefore, total, load, small⟩ := destroyed.exists_load held
  cases load with
  | ground inErase isGround =>
    have same := lookup_of_erase inErase
    rw [heldBefore, some.injEq] at same
    rw [← same] at isGround
    exact .inl isGround
  | stacked inErase raised below =>
    have same := lookup_of_erase inErase
    rw [heldBefore, some.injEq] at same
    rw [← same] at raised below small
    obtain ⟨parent, parentHeld⟩ := below.exists_piece
    have notTarget : piece.parentPieceId ≠ targetPieceId := by
      intro isTarget
      rw [isTarget, Finmap.lookup_erase] at parentHeld
      cases parentHeld
    have notCollapsed : piece.parentPieceId ∉ collapsed := by
      rw [destroyed.members]
      rintro (isTarget | ⟨-, lost⟩)
      · exact notTarget isTarget
      exact lost ⟨_, below, by omega⟩
    refine .inr ⟨parent, ?_⟩
    rw [destroyed.lookups, if_neg notCollapsed]
    exact lookup_of_erase parentHeld

theorem Destroyed.wellBuilt (built : WellBuilt structure_ placed) : WellBuilt left placed := by
  have before : ∀ {id : UInt32} {piece : StructurePiece}, left.pieces.lookup id = some piece →
      structure_.pieces.lookup id = some piece :=
    fun held => (destroyed.exists_load held).1
  exact ⟨⟨fun id piece held => built.founded.positive id piece (before held),
      fun id piece held => built.founded.earlier id piece (before held),
      fun id piece held => destroyed.supported held⟩,
    fun id piece held => built.numbered id piece (before held),
    fun id piece held => built.grounded id piece (before held), destroyed.nodup,
    destroyed.sameIds⟩

/-- What stands on the target collapses, and nothing else exactly when nothing else loses as
much as a foundation has. -/
theorem Destroyed.above_iff (built : WellBuilt structure_ placed)
    (present : targetPieceId ∈ structure_.pieces) :
    (∀ id, id ∈ collapsed ↔ ReflTransGen (Supports structure_.pieces) targetPieceId id) ↔
      ∀ id total, Load structure_.pieces id total →
        ¬ ReflTransGen (Supports structure_.pieces) targetPieceId id → total < 100 := by
  rw [Finmap.mem_iff] at present
  constructor
  · intro exactly id total load apart
    have notCollapsed : id ∉ collapsed := fun there => apart ((exactly id).mp there)
    rw [destroyed.members, not_or, not_and, not_not] at notCollapsed
    obtain ⟨other, loadAfter, small⟩ := notCollapsed.2 load.exists_piece
    have same := load.unique (loadAfter.of_erase built.founded present).1
    omega
  intro light id
  rw [destroyed.members]
  constructor
  · rintro (rfl | ⟨⟨piece, held⟩, lost⟩)
    · exact ReflTransGen.refl
    by_contra apart
    obtain ⟨total, load⟩ := built.founded.exists_load held
    exact lost ⟨total, load.erase apart, light id total load apart⟩
  intro above
  rcases above.cases_tail with rfl | ⟨_, _, piece, held, _⟩
  · exact .inl rfl
  refine .inr ⟨⟨piece, held⟩, ?_⟩
  rintro ⟨total, load, -⟩
  exact (load.of_erase built.founded present).2 above

theorem Destroyed.collapsesAbove_iff {manager : StructureManager} {structureId : UInt32}
    (held : manager.structures.lookup structureId = some structure_) :
    CollapsesAbove manager
        { manager with structures := manager.structures.insert structureId left } structureId
        targetPieceId collapsed ↔
      ∀ id, id ∈ collapsed ↔ ReflTransGen (Supports structure_.pieces) targetPieceId id := by
  constructor
  · intro collapses
    obtain ⟨other, _, otherHeld, -, above, -⟩ := collapses.exists_pieces
    rw [held, some.injEq] at otherHeld
    rw [← otherHeld] at above
    exact above
  intro above
  refine ⟨destroyed.distinct, ⟨structure_, left, held, Finmap.lookup_insert _, above,
    destroyed.lookups⟩, ?_⟩
  intro other different
  exact Finmap.lookup_insert_of_ne _ different

end

end Destroyed

namespace Site

variable {site : Site}

structure Standing (site : Site) : Prop where
  built : ∀ structureId structure_,
    site.manager.structures.lookup structureId = some structure_ →
      WellBuilt structure_ site.placed
  next : site.manager.nextPieceId.toNat = (site.placed + 1) % 2 ^ 32

theorem standing_new : new.Standing := by
  refine ⟨?_, rfl⟩
  intro structureId structure_ held
  cases held

theorem Standing.sound (standing : site.Standing) : site.Sound := by
  refine ⟨?_, ?_⟩
  · intro structureId structure_ held id piece pieceHeld
    rw [Finmap.mem_iff]
    exact (standing.built structureId structure_ held).founded.supported id piece pieceHeld
  intro structureId structure_ held
  have built := standing.built structureId structure_ held
  exact ⟨built.nodup, built.sameIds⟩

theorem WellBuilt.later {structure_ : StructureInstance} {placed : Nat}
    (built : WellBuilt structure_ placed) : WellBuilt structure_ (placed + 1) :=
  ⟨built.founded, fun id piece held => Nat.le_succ_of_le (built.numbered id piece held),
    built.grounded, built.nodup, built.sameIds⟩

variable {structureId : UInt32}

section

variable (standing : site.Standing)
include standing

theorem Standing.place {structure_ : StructureInstance}
    (built : WellBuilt structure_ (site.placed + 1)) (nextStructureId : UInt32) :
    Standing
      { manager :=
          { structures := site.manager.structures.insert structureId structure_
            nextStructureId := nextStructureId
            nextPieceId := site.manager.nextPieceId + 1 }
        placed := site.placed + 1 } := by
  refine ⟨?_, ?_⟩
  · intro other otherStructure held
    by_cases same : other = structureId
    · rw [same, Finmap.lookup_insert, some.injEq] at held
      rw [← held]
      exact built
    rw [Finmap.lookup_insert_of_ne _ same] at held
    exact WellBuilt.later (standing.built other otherStructure held)
  rw [UInt32.toNat_add, standing.next]
  exact Nat.mod_add_mod _ _ _

theorem Standing.next_eq (room : site.placed < 2 ^ 32 - 1) :
    site.manager.nextPieceId.toNat = site.placed + 1 := by
  rw [standing.next]
  omega

theorem Standing.destroyPiece_error {targetPieceId : UInt32} {order : List UInt32}
    (error : WorldError)
    (result : ∀ fuel, site.manager.destroyPiece fuel structureId targetPieceId order =
      some (.error error, site.manager))
    (absent : ∀ structure_, site.manager.structures.lookup structureId = some structure_ →
      targetPieceId ∉ structure_.pieces) :
    (site.step (.destroyPiece structureId targetPieceId order)).Standing ∧
      (site.Behaves (.destroyPiece structureId targetPieceId order) ↔
        site.Meets (.destroyPiece structureId targetPieceId order)) := by
  have stays : site.step (.destroyPiece structureId targetPieceId order) = site := by
    rw [step, result]
  rw [Behaves, stays]
  refine ⟨standing, iff_of_true ⟨_, fun fuel _ => result fuel, rfl⟩ ?_⟩
  intro structure_ held there
  exact absurd there (absent structure_ held)

theorem Standing.replace {targetPieceId : UInt32} {structure_ left : StructureInstance}
    {collapsed : List UInt32}
    (held : site.manager.structures.lookup structureId = some structure_)
    (destroyed : Destroyed structure_ left targetPieceId collapsed) :
    Standing
      { site with
        manager :=
          { site.manager with
            structures := site.manager.structures.insert structureId left } } := by
  refine ⟨?_, standing.next⟩
  intro other otherStructure otherHeld
  by_cases same : other = structureId
  · rw [same, Finmap.lookup_insert, some.injEq] at otherHeld
    rw [← otherHeld]
    exact destroyed.wellBuilt (standing.built structureId structure_ held)
  rw [Finmap.lookup_insert_of_ne _ same] at otherHeld
  exact standing.built other otherStructure otherHeld

theorem Standing.destroyPiece {targetPieceId : UInt32} {order : List UInt32}
    (assumed : site.Assumed (.destroyPiece structureId targetPieceId order)) :
    (site.step (.destroyPiece structureId targetPieceId order)).Standing ∧
      (site.Behaves (.destroyPiece structureId targetPieceId order) ↔
        site.Meets (.destroyPiece structureId targetPieceId order)) := by
  cases held : site.manager.structures.lookup structureId with
  | none =>
    apply standing.destroyPiece_error (.structureNotFound structureId)
    · intro fuel
      rw [StructureManager.destroyPiece, held]
    intro structure_ isHeld
    rw [held] at isHeld
    cases isHeld
  | some structure_ =>
    by_cases present : targetPieceId ∈ structure_.pieces
    · have built := standing.built structureId structure_ held
      obtain ⟨distinct, listed⟩ := assumed structure_ held present
      obtain ⟨collapsed, left, destroyed, result⟩ :=
        destroyPiece_eq held built present distinct listed
      have after : site.step (.destroyPiece structureId targetPieceId order) =
          { site with
            manager :=
              { site.manager with
                structures := site.manager.structures.insert structureId left } } := by
        rw [step, result order.length (Nat.le_refl _)]
      rw [Behaves, after]
      refine ⟨standing.replace held destroyed, ?_⟩
      constructor
      · rintro ⟨outcome, ends, does⟩ other otherHeld _
        have same := (ends order.length (Nat.le_refl _)).symm.trans
          (result order.length (Nat.le_refl _))
        rw [some.injEq, Prod.mk.injEq] at same
        rw [same.1] at does
        rw [held, some.injEq] at otherHeld
        rw [← otherHeld]
        exact (destroyed.above_iff built present).mp ((destroyed.collapsesAbove_iff held).mp does)
      intro meets
      exact ⟨.ok collapsed, result, (destroyed.collapsesAbove_iff held).mpr
        ((destroyed.above_iff built present).mpr (meets structure_ held present))⟩
    apply standing.destroyPiece_error (.pieceNotFound targetPieceId)
    · intro fuel
      have isNone : (structure_.pieces.lookup targetPieceId).isNone = true := by
        rw [isNone_iff_eq_none, Finmap.lookup_eq_none]
        exact present
      rw [StructureManager.destroyPiece, held]
      exact if_pos isNone
    intro other otherHeld
    rw [held, some.injEq] at otherHeld
    rw [← otherHeld]
    exact present

theorem Standing.placePiece (room : site.placed < 2 ^ 32 - 1) (structureId parentPieceId : UInt32)
    (pieceType : PieceType) (material : MaterialType) (socket : SnapSocket) (variantFlags : UInt8) :
    (site.step (.placePiece structureId parentPieceId pieceType material socket
      variantFlags)).Standing := by
  rw [step, StructureManager.placePiece]
  cases held : site.manager.structures.lookup structureId with
  | none => exact standing
  | some structure_ =>
    dsimp only
    cases parentHeld : structure_.pieces.lookup parentPieceId with
    | none => exact standing
    | some parent =>
      dsimp only
      by_cases unsound : calculateStability pieceType.isFoundation parent.stability material = 0
      · rw [if_pos unsound]
        exact standing
      rw [if_neg unsound]
      have built := standing.built structureId structure_ held
      exact standing.place (built.insert (standing.next_eq room)
          { pieceId := site.manager.nextPieceId
            parentPieceId := parentPieceId
            pieceData := .new pieceType material socket variantFlags
            worldPosition := parent.worldPosition.add socket.localOffset
            worldYaw := parent.worldYaw
            stability := calculateStability pieceType.isFoundation parent.stability material
            health := material.maxHealth
            maxHealth := material.maxHealth } parentHeld pieceType
          (parent.worldPosition.add socket.localOffset)) _

theorem Standing.step {call : BuildingCall} (assumed : site.Assumed call) :
    (site.step call).Standing ∧ (site.Behaves call ↔ site.Meets call) := by
  cases call with
  | createPrefab ownerAccountId prefabTypeId position yaw interiorCellId =>
    exact ⟨standing.place
      (wellBuilt_newInstance (standing.next_eq assumed) _ _ _ _ _ _ _ _) _, Iff.rfl⟩
  | placeFoundation ownerAccountId position yaw material =>
    exact ⟨standing.place
      (wellBuilt_newInstance (standing.next_eq assumed) _ _ _ _ _ _ _ _) _, Iff.rfl⟩
  | placePiece structureId parentPieceId pieceType material socket variantFlags =>
    exact ⟨standing.placePiece assumed structureId parentPieceId pieceType material socket
      variantFlags, Iff.rfl⟩
  | destroyPiece structureId targetPieceId order => exact standing.destroyPiece assumed

end

/-- In every run the structures are sound and destructions end; they take exactly what stands
on the target where all else loses less than a foundation has. -/
theorem collapses_iff {calls : List BuildingCall} (assumed : EachStep step Assumed new calls) :
    Throughout step Sound new calls ∧
      (EachStep step Behaves new calls ↔ EachStep step Meets new calls) := by
  have preserved : ∀ (site : Site) (call : BuildingCall),
      site.Standing → site.Assumed call → (site.step call).Standing :=
    fun _ _ standing assumed => (standing.step assumed).1
  have standing : Throughout step Standing new calls :=
    throughout_of_eachStep preserved standing_new assumed
  refine ⟨standing.imp fun _ now => now.sound, ?_⟩
  exact eachStep_iff_of_invariant (fun site call now assumed _ => preserved site call now assumed)
    (fun _ _ now assumed => (now.step assumed).2) standing_new assumed

def IsPlacing : BuildingCall → Prop
  | .destroyPiece _ _ _ => False
  | _ => True

theorem placed_step_le (site : Site) (call : BuildingCall) :
    (site.step call).placed ≤ site.placed + 1 := by
  cases call with
  | createPrefab ownerAccountId prefabTypeId position yaw interiorCellId => exact Nat.le_refl _
  | placeFoundation ownerAccountId position yaw material => exact Nat.le_refl _
  | placePiece structureId parentPieceId pieceType material socket variantFlags =>
    rw [step]
    split
    · exact Nat.le_refl _
    exact Nat.le_succ _
  | destroyPiece structureId targetPieceId order =>
    rw [step]
    split
    · exact Nat.le_succ _
    exact Nat.le_succ _

theorem eachStep_of_assumed_placings {calls : List BuildingCall}
    (placings : ∀ call ∈ calls, IsPlacing call)
    (few : site.placed + calls.length ≤ 2 ^ 32 - 1) : EachStep step Assumed site calls := by
  induction calls generalizing site with
  | nil => trivial
  | cons call calls ih =>
    rw [length_cons] at few
    have places := placings call mem_cons_self
    have next := placed_step_le site call
    have room : site.placed < 2 ^ 32 - 1 := by omega
    refine ⟨?_, ih (fun later there => placings later (mem_cons_of_mem call there)) (by omega)⟩
    cases call with
    | destroyPiece structureId targetPieceId order => exact places.elim
    | createPrefab ownerAccountId prefabTypeId position yaw interiorCellId => exact room
    | placeFoundation ownerAccountId position yaw material => exact room
    | placePiece structureId parentPieceId pieceType material socket variantFlags => exact room

/-- Foundations and walls of wood, one on another; a wall on the foundation at the top, and
one beside the tower. -/
def tower : List BuildingCall :=
  [ .placeFoundation 7 (vecFromRaw 0 0 0) ⟨0⟩ .wood, .placePiece 1 1 .wall .wood .top 0,
    .placePiece 1 2 .wall .wood .top 0,
    .placePiece 1 3 .wall .wood .top 0,
    .placePiece 1 4 .wall .wood .top 0,
    .placePiece 1 5 .wall .wood .top 0,
    .placePiece 1 6 .foundation .wood .top 0,
    .placePiece 1 7 .wall .wood .top 0,
    .placePiece 1 1 .wall .wood .north 0 ]

theorem assumed_tower : EachStep step Assumed new tower := by
  apply eachStep_of_assumed_placings
  · intro call there
    simp only [tower, mem_cons, not_mem_nil, or_false] at there
    rcases there with rfl | rfl | rfl | rfl | rfl | rfl | rfl | rfl | rfl <;> trivial
  decide

theorem assumed_destroy_tower :
    (run step new tower).Assumed (.destroyPiece 1 9 [1, 2, 3, 4, 5, 6, 7, 8]) := by
  intro structure_ held _
  have keys : ((run step new tower).manager.structures.lookup 1).map
      (fun structure_ => (structure_.pieces.erase 9).keys) = some {1, 2, 3, 4, 5, 6, 7, 8} := by
    decide +kernel
  rw [held, map_some, some.injEq] at keys
  refine ⟨by decide, ?_⟩
  intro id
  rw [← Finmap.mem_keys, keys]
  simp only [mem_cons, not_mem_nil, or_false, Finset.mem_insert, Finset.mem_singleton]

/-- Every destruction in a run over the tower does what it should if it meets the condition. -/
theorem collapses_iff_tower : Throughout step Sound new
        (tower ++ [.destroyPiece 1 9 [1, 2, 3, 4, 5, 6, 7, 8]]) ∧
      (EachStep step Behaves new (tower ++ [.destroyPiece 1 9 [1, 2, 3, 4, 5, 6, 7, 8]]) ↔
        EachStep step Meets new (tower ++ [.destroyPiece 1 9 [1, 2, 3, 4, 5, 6, 7, 8]])) :=
  collapses_iff ((eachStep_append _ _ _).mpr ⟨assumed_tower, assumed_destroy_tower, trivial⟩)

/-- The wall at the top collapses when the one beside the tower is destroyed. -/
theorem not_collapses_tower : ¬ ∀ calls, EachStep step Assumed new calls →
    EachStep step Behaves new calls := by
  intro always
  have behaves := always (tower ++ [.destroyPiece 1 9 [1, 2, 3, 4, 5, 6, 7, 8]])
    ((eachStep_append _ _ _).mpr ⟨assumed_tower, assumed_destroy_tower, trivial⟩)
  obtain ⟨-, ⟨result, ends, does⟩, -⟩ := (eachStep_append _ _ _).mp behaves
  have preserved : ∀ (site : Site) (call : BuildingCall),
      site.Standing → site.Assumed call → (site.step call).Standing :=
    fun _ _ standing assumed => (standing.step assumed).1
  have standing : (run step new tower).Standing :=
    (throughout_of_eachStep preserved standing_new assumed_tower).run
  have outcome : ((run step new tower).manager.destroyPiece 8 1 9
      [1, 2, 3, 4, 5, 6, 7, 8]).bind (fun done => done.1.toOption) = some [9, 8] := by
    decide +kernel
  have placed : (run step new tower).placed = 9 := by
    decide +kernel
  rw [ends 8 (Nat.le_refl _), bind_some] at outcome
  cases result with
  | error error => cases outcome
  | ok collapsed =>
    rw [Except.toOption, some.injEq] at outcome
    obtain ⟨structure_, _, held, -, above, -⟩ := does.exists_pieces
    have built := standing.built 1 structure_ held
    have reaches := (above 8).mp (by rw [outcome]; decide)
    -- nothing was placed after the piece that is destroyed
    rcases reaches.cases_head with same | ⟨child, ⟨piece, childHeld, isParent⟩, -⟩
    · exact absurd same (by decide)
    have earlier := built.founded.earlier child piece childHeld
    have numbered := built.numbered child piece childHeld
    rw [isParent] at earlier
    change 9 < child.toNat at earlier
    omega

end Site

end Eidolon.World
