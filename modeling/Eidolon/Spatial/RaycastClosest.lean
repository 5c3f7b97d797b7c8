import Eidolon.Library.Run
import Eidolon.Library.ShrinkingSearch
import Eidolon.Spatial.CompoundStructure

/-!
# Rays against compound structures

The outer box contains the boxes of all pieces, and a ray is in a box that contains another
one for at least as long, also after rounding.  So no ray that hits a piece is rejected, and
the loop over the pieces finds the closest hit.
-/

namespace Eidolon.Spatial

open Core Library List

namespace Axis

theorem t1_eq (axis : Axis) :
    axis.t1 = min (axis.timeAt axis.minBound) (axis.timeAt axis.maxBound) := by
  rw [t1]
  by_cases swapped : axis.Swapped
  · rw [if_pos swapped, min_eq_right (le_of_lt swapped)]
  rw [if_neg swapped, min_eq_left (le_of_not_gt swapped)]

theorem t2_eq (axis : Axis) :
    axis.t2 = max (axis.timeAt axis.minBound) (axis.timeAt axis.maxBound) := by
  rw [t2]
  by_cases swapped : axis.Swapped
  · rw [if_pos swapped, max_eq_left (le_of_lt swapped)]
  rw [if_neg swapped, max_eq_right (le_of_not_gt swapped)]

/-- A bound between two others is met at a time between theirs, whatever the sign of the
direction. -/
theorem timeAt_between (axis : Axis) {low bound high : Fixed64} (above : low ≤ bound)
    (below : bound ≤ high) :
    min (axis.timeAt low) (axis.timeAt high) ≤ axis.timeAt bound ∧
      axis.timeAt bound ≤ max (axis.timeAt low) (axis.timeAt high) := by
  have fromLow := Fixed64.saturatingSub_mono above axis.origin
  have toHigh := Fixed64.saturatingSub_mono below axis.origin
  rcases le_total Fixed64.zero axis.invD with forward | backward
  · exact ⟨le_trans (min_le_left _ _) (Fixed64.saturatingMul_mono fromLow forward),
      le_trans (Fixed64.saturatingMul_mono toHigh forward) (le_max_right _ _)⟩
  exact ⟨le_trans (min_le_right _ _) (Fixed64.saturatingMul_anti toHigh backward),
    le_trans (Fixed64.saturatingMul_anti fromLow backward) (le_max_left _ _)⟩

structure Encloses (outer inner : Axis) : Prop where
  origin : outer.origin = inner.origin
  dir : outer.dir = inner.dir
  minBound : outer.minBound ≤ inner.minBound
  maxBound : inner.maxBound ≤ outer.maxBound
  ordered : inner.minBound ≤ inner.maxBound

variable {outer inner : Axis}

section

variable (encloses : Encloses outer inner)
include encloses

theorem Encloses.timeAt (bound : Fixed64) : inner.timeAt bound = outer.timeAt bound := by
  rw [Axis.timeAt, Axis.timeAt, invD, invD, encloses.origin, encloses.dir]

theorem Encloses.moving_iff : outer.Moving ↔ inner.Moving := by
  rw [Moving, Moving, encloses.dir]

theorem Encloses.t1_le : outer.t1 ≤ inner.t1 := by
  rw [t1_eq, t1_eq, encloses.timeAt, encloses.timeAt]
  exact le_min
    (outer.timeAt_between encloses.minBound (le_trans encloses.ordered encloses.maxBound)).1
    (outer.timeAt_between (le_trans encloses.minBound encloses.ordered) encloses.maxBound).1

theorem Encloses.le_t2 : inner.t2 ≤ outer.t2 := by
  rw [t2_eq, encloses.timeAt, encloses.timeAt]
  exact max_le
    (outer.timeAt_between encloses.minBound (le_trans encloses.ordered encloses.maxBound)).2
    (outer.timeAt_between (le_trans encloses.minBound encloses.ordered) encloses.maxBound).2

theorem Encloses.outside (outside : outer.Outside) :
    inner.Outside := by
  rcases outside with under | beyond
  · rw [encloses.origin] at under
    exact Or.inl (lt_of_lt_of_le under encloses.minBound)
  rw [encloses.origin] at beyond
  exact Or.inr (lt_of_le_of_lt encloses.maxBound beyond)

end

end Axis

namespace LeafWindow

def entryNormal (window : LeafWindow) (axis : Axis) : Vec3Fix :=
  if axis.t1 > window.tmin then
    if axis.Swapped then axis.upperNormal else axis.lowerNormal
  else
    window.hitNormal

variable {axis : Axis}

theorem leafSlab_of_moving (moving : axis.Moving) (window : LeafWindow) : leafSlab window axis =
      if max window.tmin axis.t1 > min window.tmax axis.t2 then
        none
      else
        some
          { tmin := max window.tmin axis.t1
            tmax := min window.tmax axis.t2
            hitNormal := window.entryNormal axis } := by
  have entry : (if axis.t1 > window.tmin then axis.t1 else window.tmin) =
      max window.tmin axis.t1 := by
    by_cases later : axis.t1 > window.tmin
    · rw [if_pos later, max_eq_right (le_of_lt later)]
    rw [if_neg later, max_eq_left (le_of_not_gt later)]
  rw [leafSlab, if_pos moving]
  simp only [entry, Fixed64.min_eq, entryNormal]

theorem leafSlab_of_not_moving (parallel : ¬ axis.Moving) (window : LeafWindow) :
    leafSlab window axis = if axis.Outside then none else some window := by
  rw [leafSlab, if_neg parallel]

variable {window : LeafWindow}

theorem tmin_le_leafSlab {next : LeafWindow} (passes : leafSlab window axis = some next) :
    window.tmin ≤ next.tmin := by
  by_cases moving : axis.Moving
  · rw [leafSlab_of_moving moving] at passes
    split at passes
    · cases passes
    cases passes
    exact le_max_left _ _
  rw [leafSlab_of_not_moving moving] at passes
  split at passes
  · cases passes
  cases passes
  exact le_refl _

theorem tmin_le_foldlM {axesLeft : List Axis} {last : LeafWindow}
    (passes : axesLeft.foldlM leafSlab window = some last) : window.tmin ≤ last.tmin := by
  induction axesLeft generalizing window with
  | nil =>
    cases passes
    exact le_refl _
  | cons axis axesLeft ih =>
    obtain ⟨next, first, rest⟩ := Option.bind_eq_some_iff.mp passes
    exact le_trans (tmin_le_leafSlab first) (ih rest)

/-- The window with the bound on the distance lowered. -/
def cut (window : LeafWindow) (bound : Fixed64) : LeafWindow :=
  { window with tmax := min bound window.tmax }

theorem tmin_cut (window : LeafWindow) (bound : Fixed64) : (window.cut bound).tmin = window.tmin :=
  rfl

theorem entryNormal_cut (window : LeafWindow) (bound : Fixed64) (axis : Axis) :
    (window.cut bound).entryNormal axis = window.entryNormal axis := by
  rw [entryNormal, entryNormal, cut]

/-- The window with the bound lowered, if it does not begin behind the bound. -/
def cutOff (window : LeafWindow) (bound : Fixed64) : Option LeafWindow :=
  if window.tmin ≤ bound then some (window.cut bound) else none

theorem leafSlab_cut {bound : Fixed64} (before : window.tmin ≤ bound) (axis : Axis) :
    leafSlab (window.cut bound) axis = (leafSlab window axis).bind (·.cutOff bound) := by
  by_cases moving : axis.Moving
  · have shorter : min (window.cut bound).tmax axis.t2 = min bound (min window.tmax axis.t2) :=
      min_assoc bound window.tmax axis.t2
    rw [leafSlab_of_moving moving, leafSlab_of_moving moving, shorter, entryNormal_cut, tmin_cut]
    by_cases empty : max window.tmin axis.t1 > min window.tmax axis.t2
    · have emptier : max window.tmin axis.t1 > min bound (min window.tmax axis.t2) :=
        lt_of_le_of_lt (min_le_right _ _) empty
      rw [if_pos empty, if_pos emptier, Option.bind_none]
    rw [if_neg empty, Option.bind_some, cutOff]
    by_cases early : max window.tmin axis.t1 ≤ bound
    · have inside : ¬ max window.tmin axis.t1 > min bound (min window.tmax axis.t2) :=
        not_lt_of_ge (le_min early (le_of_not_gt empty))
      rw [if_neg inside, if_pos early, cut]
    have behind : max window.tmin axis.t1 > min bound (min window.tmax axis.t2) :=
      lt_of_le_of_lt (min_le_left _ _) (lt_of_not_ge early)
    rw [if_pos behind, if_neg early]
  rw [leafSlab_of_not_moving moving, leafSlab_of_not_moving moving]
  by_cases outside : axis.Outside
  · rw [if_pos outside, if_pos outside]
    rfl
  rw [if_neg outside, if_neg outside, Option.bind_some, cutOff, if_pos before]

theorem foldlM_cut {axesLeft : List Axis} {bound : Fixed64} (before : window.tmin ≤ bound) :
    axesLeft.foldlM leafSlab (window.cut bound) =
      (axesLeft.foldlM leafSlab window).bind (·.cutOff bound) := by
  induction axesLeft generalizing window with
  | nil => exact (if_pos before).symm
  | cons axis axesLeft ih =>
    rw [foldlM_cons, foldlM_cons, leafSlab_cut before]
    cases first : leafSlab window axis with
    | none => rfl
    | some next =>
      rw [Option.bind_some, cutOff]
      by_cases early : next.tmin ≤ bound
      · rw [if_pos early]
        exact ih early
      -- the window begins behind the bound from here on
      rw [if_neg early]
      change none = (axesLeft.foldlM leafSlab next).bind (·.cutOff bound)
      cases rest : axesLeft.foldlM leafSlab next with
      | none => rfl
      | some last =>
        have late : ¬ last.tmin ≤ bound := fun atMost =>
          early (le_trans (tmin_le_foldlM rest) atMost)
        rw [Option.bind_some, cutOff, if_neg late]

end LeafWindow

def startWindow (maxDist : Fixed64) : LeafWindow where
  tmin := Fixed64.zero
  tmax := maxDist
  hitNormal := vecFromRaw 0 0 0

def leafWindow (origin dir : Vec3Fix) (piece : BvhLeafPiece) (maxDist : Fixed64) :
    Option LeafWindow :=
  (axes origin dir piece.minBounds piece.maxBounds).foldlM leafSlab (startWindow maxDist)

def hitAt (origin dir : Vec3Fix) (piece : BvhLeafPiece) (window : LeafWindow) : RayHit where
  pieceId := piece.pieceId
  distance := window.tmin
  hitPoint := origin.add (dir.scale window.tmin)
  normal := window.hitNormal

section Leaf

variable {origin dir : Vec3Fix} {piece : BvhLeafPiece} {maxDist bound : Fixed64} {hit : RayHit}

theorem zero_le_tmin {window : LeafWindow}
    (found : leafWindow origin dir piece maxDist = some window) : Fixed64.zero ≤ window.tmin := by
  have grows := LeafWindow.tmin_le_foldlM found
  rwa [startWindow] at grows

theorem raycastLeafAabb_eq_some_iff : raycastLeafAabb origin dir piece maxDist = some hit ↔
      ∃ window, leafWindow origin dir piece maxDist = some window ∧ window.tmin ≤ maxDist ∧
        hitAt origin dir piece window = hit := by
  have left : (axes origin dir piece.minBounds piece.maxBounds).foldlM leafSlab
      { tmin := Fixed64.zero, tmax := maxDist, hitNormal := vecFromRaw 0 0 0 } =
        leafWindow origin dir piece maxDist := rfl
  rw [raycastLeafAabb, left]
  cases found : leafWindow origin dir piece maxDist with
  | none => simp
  | some window =>
    have nonneg : window.tmin ≥ Fixed64.zero := zero_le_tmin found
    simp [nonneg, hitAt]

theorem distance_nonneg (isHit : raycastLeafAabb origin dir piece maxDist = some hit) :
    Fixed64.zero ≤ hit.distance := by
  obtain ⟨window, found, _, rfl⟩ := raycastLeafAabb_eq_some_iff.mp isHit
  exact zero_le_tmin found

theorem leafWindow_cut (nonneg : Fixed64.zero ≤ bound) (lower : bound ≤ maxDist) :
    leafWindow origin dir piece bound =
      (leafWindow origin dir piece maxDist).bind (·.cutOff bound) := by
  have start : startWindow bound = (startWindow maxDist).cut bound := by
    rw [LeafWindow.cut, startWindow, startWindow, min_eq_left lower]
  rw [leafWindow, start]
  exact LeafWindow.foldlM_cut nonneg

theorem cuts_raycastLeafAabb (origin dir : Vec3Fix) :
    ShrinkingSearch.Cuts (raycastLeafAabb origin dir) RayHit.distance := by
  intro piece bound wider hit lower closer
  have decided : Fixed64.zero ≤ hit.distance → (raycastLeafAabb origin dir piece bound = some hit ↔
        raycastLeafAabb origin dir piece wider = some hit) := by
    intro nonneg
    have positive : Fixed64.zero ≤ bound := le_trans nonneg (le_of_lt closer)
    rw [raycastLeafAabb_eq_some_iff, raycastLeafAabb_eq_some_iff, leafWindow_cut positive lower]
    constructor
    · rintro ⟨window, found, within, same⟩
      obtain ⟨before, whole, kept⟩ := Option.bind_eq_some_iff.mp found
      rw [LeafWindow.cutOff] at kept
      split at kept
      · cases kept
        exact ⟨before, whole, le_trans within lower, same⟩
      cases kept
    rintro ⟨window, found, _, same⟩
    have early : window.tmin ≤ bound := by
      rw [← same] at closer
      exact le_of_lt closer
    refine ⟨window.cut bound, ?_, early, same⟩
    rw [found, Option.bind_some, LeafWindow.cutOff, if_pos early]
  constructor
  · intro isHit
    exact (decided (distance_nonneg isHit)).mp isHit
  intro isHit
  exact (decided (distance_nonneg isHit)).mpr isHit

end Leaf

theorem intersectSlab_of_leafSlab {outer inner : Axis} (encloses : outer.Encloses inner)
    {window next : LeafWindow} {wide : Fixed64 × Fixed64}
    (wider : wide.1 ≤ window.tmin ∧ window.tmax ≤ wide.2)
    (passes : leafSlab window inner = some next) :
    ∃ wideNext, intersectSlab wide outer = some wideNext ∧
      wideNext.1 ≤ next.tmin ∧ next.tmax ≤ wideNext.2 := by
  by_cases moving : inner.Moving
  · rw [LeafWindow.leafSlab_of_moving moving] at passes
    split at passes
    · cases passes
    rename_i remains
    cases passes
    have enters := max_le_max wider.1 encloses.t1_le
    have leaves := min_le_min wider.2 encloses.le_t2
    have remainsWide : ¬ max wide.1 outer.t1 > min wide.2 outer.t2 :=
      not_lt_of_ge (le_trans enters (le_trans (le_of_not_gt remains) leaves))
    refine ⟨(max wide.1 outer.t1, min wide.2 outer.t2), ?_, enters, leaves⟩
    rw [intersectSlab, if_pos (encloses.moving_iff.mpr moving)]
    exact if_neg remainsWide
  rw [LeafWindow.leafSlab_of_not_moving moving] at passes
  split at passes
  · cases passes
  rename_i inside
  cases passes
  refine ⟨wide, ?_, wider⟩
  rw [intersectSlab, if_neg fun outerMoving => moving (encloses.moving_iff.mp outerMoving),
    if_neg fun outside => inside (encloses.outside outside)]

theorem foldlM_intersectSlab {outerAxes innerAxes : List Axis}
    (enclose : List.Forall₂ Axis.Encloses outerAxes innerAxes) {window last : LeafWindow}
    {wide : Fixed64 × Fixed64} (wider : wide.1 ≤ window.tmin ∧ window.tmax ≤ wide.2)
    (passes : innerAxes.foldlM leafSlab window = some last) :
    (outerAxes.foldlM intersectSlab wide).isSome = true := by
  induction enclose generalizing window wide with
  | nil => rfl
  | cons encloses _ ih =>
    obtain ⟨next, first, rest⟩ := Option.bind_eq_some_iff.mp passes
    obtain ⟨wideNext, wideFirst, wideRest⟩ :=
      intersectSlab_of_leafSlab encloses wider first
    rw [foldlM_cons, wideFirst]
    exact ih wideRest rest

structure Below (first second : Vec3Fix) : Prop where
  x : first.x ≤ second.x
  y : first.y ≤ second.y
  z : first.z ≤ second.z

theorem Below.trans {first second third : Vec3Fix} (below : Below first second)
    (further : Below second third) : Below first third :=
  ⟨le_trans below.x further.x, le_trans below.y further.y, le_trans below.z further.z⟩

theorem Below.refl (corner : Vec3Fix) : Below corner corner :=
  ⟨le_refl _, le_refl _, le_refl _⟩

theorem axes_enclose (origin dir : Vec3Fix) {minB maxB innerMin innerMax : Vec3Fix}
    (lower : Below minB innerMin) (upper : Below innerMax maxB) (ordered : Below innerMin innerMax) :
    List.Forall₂ Axis.Encloses (axes origin dir minB maxB) (axes origin dir innerMin innerMax) :=
  .cons ⟨rfl, rfl, lower.x, upper.x, ordered.x⟩ (.cons ⟨rfl, rfl, lower.y, upper.y, ordered.y⟩
      (.cons ⟨rfl, rfl, lower.z, upper.z, ordered.z⟩ .nil))

namespace CompoundStructure

def Encloses (self : CompoundStructure) : Prop :=
  ∀ piece ∈ self.pieces, Below self.minBounds piece.minBounds ∧
    Below piece.maxBounds self.maxBounds ∧ Below piece.minBounds piece.maxBounds

variable {self : CompoundStructure}

theorem Encloses.intersectAabb (encloses : self.Encloses) {piece : BvhLeafPiece}
    (member : piece ∈ self.pieces) {origin dir : Vec3Fix} {maxDist : Fixed64} {hit : RayHit}
    (isHit : raycastLeafAabb origin dir piece maxDist = some hit) :
    Spatial.intersectAabb origin dir self.minBounds self.maxBounds maxDist = true := by
  obtain ⟨window, found, _⟩ := raycastLeafAabb_eq_some_iff.mp isHit
  obtain ⟨lower, upper, ordered⟩ := encloses piece member
  exact foldlM_intersectSlab (axes_enclose origin dir lower upper ordered)
    ⟨le_refl _, le_refl _⟩ found

theorem tryPiece_eq_step (origin dir : Vec3Fix) :
    tryPiece origin dir = ShrinkingSearch.step (raycastLeafAabb origin dir) RayHit.distance := by
  funext closest piece
  rw [tryPiece, ShrinkingSearch.step]
  cases raycastLeafAabb origin dir piece closest.1 with
  | none => rfl
  | some hit => rfl

theorem Encloses.raycast_eq (encloses : self.Encloses) (origin dir : Vec3Fix) (maxDist : Fixed64) :
    self.raycast origin dir maxDist =
      (ShrinkingSearch.search (raycastLeafAabb origin dir) RayHit.distance maxDist
        self.pieces).2 := by
  have cuts := cuts_raycastLeafAabb origin dir
  rw [raycast]
  split
  · rename_i empty
    rw [isEmpty_iff.mp empty]
    rfl
  split
  · rename_i rejected
    symm
    rw [ShrinkingSearch.search_eq_none_iff cuts]
    intro piece member hit isHit
    rw [encloses.intersectAabb member isHit] at rejected
    exact absurd rejected (by decide)
  rw [tryPiece_eq_step, ShrinkingSearch.search]

theorem lowerCorner_below (first second : Vec3Fix) :
    Below (lowerCorner first second) first ∧ Below (lowerCorner first second) second :=
  ⟨⟨min_le_left _ _, min_le_left _ _, min_le_left _ _⟩,
    ⟨min_le_right _ _, min_le_right _ _, min_le_right _ _⟩⟩

theorem below_upperCorner (first second : Vec3Fix) :
    Below first (upperCorner first second) ∧ Below second (upperCorner first second) :=
  ⟨⟨le_max_left _ _, le_max_left _ _, le_max_left _ _⟩,
    ⟨le_max_right _ _, le_max_right _ _, le_max_right _ _⟩⟩

theorem lowerCorners_below (pieces : List BvhLeafPiece) (start : Vec3Fix) :
    Below (pieces.foldl (fun bounds piece => lowerCorner bounds piece.minBounds) start) start ∧
      ∀ piece ∈ pieces,
        Below (pieces.foldl (fun bounds piece => lowerCorner bounds piece.minBounds) start)
          piece.minBounds := by
  induction pieces generalizing start with
  | nil => exact ⟨Below.refl start, fun piece member => absurd member not_mem_nil⟩
  | cons piece pieces ih =>
    obtain ⟨fromStart, fromRest⟩ := ih (lowerCorner start piece.minBounds)
    obtain ⟨first, second⟩ := lowerCorner_below start piece.minBounds
    refine ⟨fromStart.trans first, ?_⟩
    intro other member
    rcases mem_cons.mp member with here | later
    · rw [here]
      exact fromStart.trans second
    exact fromRest other later

theorem below_upperCorners (pieces : List BvhLeafPiece) (start : Vec3Fix) :
    Below start (pieces.foldl (fun bounds piece => upperCorner bounds piece.maxBounds) start) ∧
      ∀ piece ∈ pieces, Below piece.maxBounds
        (pieces.foldl (fun bounds piece => upperCorner bounds piece.maxBounds) start) := by
  induction pieces generalizing start with
  | nil => exact ⟨Below.refl start, fun piece member => absurd member not_mem_nil⟩
  | cons piece pieces ih =>
    obtain ⟨toStart, toRest⟩ := ih (upperCorner start piece.maxBounds)
    obtain ⟨first, second⟩ := below_upperCorner start piece.maxBounds
    refine ⟨first.trans toStart, ?_⟩
    intro other member
    rcases mem_cons.mp member with here | later
    · rw [here]
      exact second.trans toStart
    exact toRest other later

theorem encloses_recomputeBounds
    (ordered : ∀ piece ∈ self.pieces, Below piece.minBounds piece.maxBounds) :
    self.recomputeBounds.Encloses := by
  rcases self with ⟨structureId, minBounds, maxBounds, pieces⟩
  cases pieces with
  | nil => exact fun piece member => absurd member not_mem_nil
  | cons first rest =>
    obtain ⟨lowFirst, lowRest⟩ := lowerCorners_below rest first.minBounds
    obtain ⟨highFirst, highRest⟩ := below_upperCorners rest first.maxBounds
    intro piece member
    have upright := ordered piece member
    rcases mem_cons.mp member with here | later
    · rw [here] at upright ⊢
      exact ⟨lowFirst, highFirst, upright⟩
    exact ⟨lowRest piece later, highRest piece later, upright⟩

theorem halfExtents_nonneg (pieceType : PieceType) :
    Below (vecFromRaw 0 0 0) pieceType.halfExtents := by
  cases pieceType <;> exact ⟨by decide, by decide, by decide⟩

theorem sub_below_add (center : Vec3Fix) (pieceType : PieceType) :
    Below (center.sub pieceType.halfExtents) (center.add pieceType.halfExtents) := by
  have nonneg := halfExtents_nonneg pieceType
  exact ⟨Fixed64.saturatingSub_le_saturatingAdd center.x nonneg.x,
    Fixed64.saturatingSub_le_saturatingAdd center.y nonneg.y,
    Fixed64.saturatingSub_le_saturatingAdd center.z nonneg.z⟩

theorem Encloses.addPiece (encloses : self.Encloses) (pieceId : UInt32) (pieceType : PieceType)
    (center : Vec3Fix) : (self.addPiece pieceId pieceType center).Encloses := by
  have upright := sub_below_add center pieceType
  intro piece member
  rw [CompoundStructure.addPiece] at member ⊢
  by_cases empty : self.pieces.isEmpty = true
  · simp only [isEmpty_iff.mp empty, nil_append, mem_singleton] at member
    rw [member]
    simp only [empty, if_true]
    exact ⟨Below.refl _, Below.refl _, upright⟩
  simp only [empty, Bool.false_eq_true, if_false]
  obtain ⟨lowOld, lowNew⟩ :=
    lowerCorner_below self.minBounds (center.sub pieceType.halfExtents)
  obtain ⟨highOld, highNew⟩ :=
    below_upperCorner self.maxBounds (center.add pieceType.halfExtents)
  rcases mem_append.mp member with old | new
  · obtain ⟨lower, upper, ordered⟩ := encloses piece old
    exact ⟨lowOld.trans lower, upper.trans highOld, ordered⟩
  rw [List.mem_singleton.mp new]
  exact ⟨lowNew, highNew, upright⟩

theorem Encloses.removePiece (encloses : self.Encloses) (pieceId : UInt32) :
    (self.removePiece pieceId).2.Encloses := by
  rw [CompoundStructure.removePiece]
  cases found : self.pieces.findIdx? fun piece => piece.pieceId == pieceId with
  | none => exact encloses
  | some pos =>
    obtain ⟨inside, _⟩ := findIdx?_eq_some_iff_getElem.mp found
    have remain := World.perm_swapRemove (getElem?_eq_getElem inside)
    apply encloses_recomputeBounds
    intro piece member
    exact (encloses piece (remain.mem_iff.mpr (mem_cons_of_mem _ member))).2.2

/-- The calls that change the pieces. -/
inductive Call where
  | addPiece (pieceId : UInt32) (pieceType : PieceType) (center : Vec3Fix)
  | removePiece (pieceId : UInt32)
  deriving DecidableEq

def perform (self : CompoundStructure) : Call → CompoundStructure
  | .addPiece pieceId pieceType center => self.addPiece pieceId pieceType center
  | .removePiece pieceId => (self.removePiece pieceId).2

theorem Encloses.perform (encloses : self.Encloses) (call : Call) :
    (self.perform call).Encloses := by
  cases call with
  | addPiece pieceId pieceType center => exact encloses.addPiece pieceId pieceType center
  | removePiece pieceId => exact encloses.removePiece pieceId

def build (structureId : UInt32) (calls : List Call) : CompoundStructure :=
  run perform (new structureId) calls

theorem encloses_build (structureId : UInt32) (calls : List Call) :
    (build structureId calls).Encloses := by
  have empty : (new structureId).Encloses := fun piece member => absurd member not_mem_nil
  rw [build]
  generalize new structureId = start at empty
  induction calls generalizing start with
  | nil => exact empty
  | cons call calls ih => exact ih (start.perform call) (empty.perform call)

/-- The hit of a ray on a structure is the closest hit on its pieces: there is none exactly if
no piece is hit below the distance, and the outer box rejects no ray that hits a piece. -/
theorem raycast_closest (structureId : UInt32) (calls : List Call) (origin dir : Vec3Fix)
    (maxDistance : Fixed64) :
    ((build structureId calls).raycast origin dir maxDistance = none ↔
      ∀ piece ∈ (build structureId calls).pieces, ∀ hit,
        raycastLeafAabb origin dir piece maxDistance = some hit → ¬ hit.distance < maxDistance) ∧
    (∀ best, (build structureId calls).raycast origin dir maxDistance = some best →
      best.distance < maxDistance ∧
      (∃ piece ∈ (build structureId calls).pieces,
        raycastLeafAabb origin dir piece maxDistance = some best) ∧
      ∀ piece ∈ (build structureId calls).pieces, ∀ hit,
        raycastLeafAabb origin dir piece maxDistance = some hit → best.distance ≤ hit.distance) ∧
    ∀ piece ∈ (build structureId calls).pieces, ∀ hit,
      raycastLeafAabb origin dir piece maxDistance = some hit →
        intersectAabb origin dir (build structureId calls).minBounds
          (build structureId calls).maxBounds maxDistance = true := by
  have encloses := encloses_build structureId calls
  have cuts := cuts_raycastLeafAabb origin dir
  rw [encloses.raycast_eq]
  refine ⟨ShrinkingSearch.search_eq_none_iff cuts, ?_, ?_⟩
  · intro best ends
    have closest := ShrinkingSearch.closest_of_search cuts ends
    exact ⟨closest.below, closest.hit, closest.least⟩
  intro piece member hit isHit
  exact encloses.intersectAabb member isHit

end CompoundStructure

end Eidolon.Spatial
