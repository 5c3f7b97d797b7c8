import Mathlib.Logic.Relation
import Eidolon.World.Building

/-!
# Supports of pieces

Each piece loses stability on the way from the ground. The propagation finds exactly the
pieces that lose less than a foundation has, and visits each of them once.
-/

namespace Eidolon.World

open Eidolon.Library List Relation

def Supports (pieces : PieceMap) (parent child : UInt32) : Prop :=
  ∃ piece, pieces.lookup child = some piece ∧ piece.parentPieceId = parent

def StructurePiece.decay (piece : StructurePiece) : Nat :=
  (piece.pieceData.material.getD .wood).stabilityDecay.toNat

inductive Load (pieces : PieceMap) : UInt32 → Nat → Prop where
  | ground {id : UInt32} {piece : StructurePiece} (held : pieces.lookup id = some piece)
      (grounded : piece.parentPieceId = 0) : Load pieces id 0
  | stacked {id : UInt32} {piece : StructurePiece} {total : Nat}
      (held : pieces.lookup id = some piece) (raised : piece.parentPieceId ≠ 0)
      (below : Load pieces piece.parentPieceId total) : Load pieces id (total + piece.decay)

variable {pieces : PieceMap} {id : UInt32}

theorem Load.exists_piece {total : Nat} (load : Load pieces id total) :
    ∃ piece, pieces.lookup id = some piece := by
  cases load with
  | ground held grounded => exact ⟨_, held⟩
  | stacked held raised below => exact ⟨_, held⟩

theorem Load.unique {total other : Nat} (load : Load pieces id total)
    (again : Load pieces id other) : total = other := by
  induction load generalizing other with
  | ground held grounded =>
    cases again with
    | ground heldAgain _ => rfl
    | stacked heldAgain raised _ =>
      rw [held, Option.some.injEq] at heldAgain
      rw [← heldAgain] at raised
      exact absurd grounded raised
  | stacked held raised below ih =>
    cases again with
    | ground heldAgain grounded =>
      rw [held, Option.some.injEq] at heldAgain
      rw [← heldAgain] at grounded
      exact absurd grounded raised
    | stacked heldAgain _ belowAgain =>
      rw [held, Option.some.injEq] at heldAgain
      rw [← heldAgain] at belowAgain ⊢
      rw [ih belowAgain]

structure Founded (pieces : PieceMap) : Prop where
  positive : ∀ id piece, pieces.lookup id = some piece → id ≠ 0
  earlier : ∀ id piece, pieces.lookup id = some piece → piece.parentPieceId.toNat < id.toNat
  supported : ∀ id piece, pieces.lookup id = some piece →
    piece.parentPieceId = 0 ∨ ∃ parent, pieces.lookup piece.parentPieceId = some parent

theorem Founded.exists_load (founded : Founded pieces) {piece : StructurePiece}
    (held : pieces.lookup id = some piece) : ∃ total, Load pieces id total := by
  generalize age : id.toNat = number
  induction number using Nat.strongRecOn generalizing id piece with
  | ind number ih =>
    by_cases grounded : piece.parentPieceId = 0
    · exact ⟨0, Load.ground held grounded⟩
    obtain isGround | ⟨parent, parentHeld⟩ := founded.supported id piece held
    · exact absurd isGround grounded
    have earlier := founded.earlier id piece held
    rw [age] at earlier
    obtain ⟨total, below⟩ := ih _ earlier parentHeld rfl
    exact ⟨_, Load.stacked held grounded below⟩

section Removal

variable {target id : UInt32} {total : Nat}

theorem Load.erase (load : Load pieces id total)
    (apart : ¬ ReflTransGen (Supports pieces) target id) : Load (pieces.erase target) id total := by
  induction load with
  | @ground id piece held grounded =>
    have different : id ≠ target := by
      rintro rfl
      exact apart ReflTransGen.refl
    exact Load.ground ((Finmap.lookup_erase_ne different).trans held) grounded
  | @stacked id piece total held raised below ih =>
    have different : id ≠ target := by
      rintro rfl
      exact apart ReflTransGen.refl
    have parentApart : ¬ ReflTransGen (Supports pieces) target piece.parentPieceId :=
      fun reaches => apart (reaches.tail ⟨piece, held, rfl⟩)
    exact Load.stacked ((Finmap.lookup_erase_ne different).trans held) raised (ih parentApart)

/-- What has a way from the ground after the removal has it before, and does not stand on the
removed piece. -/
theorem Load.of_erase (founded : Founded pieces)
    (present : ∃ piece, pieces.lookup target = some piece)
    (load : Load (pieces.erase target) id total) :
    Load pieces id total ∧ ¬ ReflTransGen (Supports pieces) target id := by
  induction load with
  | @ground id piece held grounded =>
    have different : id ≠ target := by
      rintro rfl
      rw [Finmap.lookup_erase] at held
      cases held
    rw [Finmap.lookup_erase_ne different] at held
    refine ⟨Load.ground held grounded, ?_⟩
    intro reaches
    rcases reaches.cases_tail with same | ⟨parent, path, other, otherHeld, isParent⟩
    · exact different same
    rw [held, Option.some.injEq] at otherHeld
    rw [← otherHeld, grounded] at isParent
    rw [← isParent] at path
    rcases path.cases_tail with isTarget | ⟨_, _, zero, zeroHeld, _⟩
    · obtain ⟨piece, targetHeld⟩ := present
      exact founded.positive target piece targetHeld isTarget.symm
    exact founded.positive 0 zero zeroHeld rfl
  | @stacked id piece total held raised below ih =>
    have different : id ≠ target := by
      rintro rfl
      rw [Finmap.lookup_erase] at held
      cases held
    rw [Finmap.lookup_erase_ne different] at held
    refine ⟨Load.stacked held raised ih.1, ?_⟩
    intro reaches
    rcases reaches.cases_tail with same | ⟨parent, path, other, otherHeld, isParent⟩
    · exact different same
    rw [held, Option.some.injEq] at otherHeld
    rw [← otherHeld] at isParent
    rw [← isParent] at path
    exact ih.2 path

end Removal

structure Reached (pieces : PieceMap) (order popped queue : List UInt32)
    (stability : StabilityMap) : Prop where
  nodup : (popped ++ queue).Nodup
  domain : ∀ id, id ∈ popped ++ queue ↔ stability id ≠ none
  inside : ∀ id ∈ popped ++ queue, id ∈ order
  loads : ∀ id value, stability id = some value →
    ∃ total, Load pieces id total ∧ value.toNat + total = 100 ∧ 0 < value.toNat

def Rooted (pieces : PieceMap) (stability : StabilityMap) : Prop :=
  ∀ id piece, pieces.lookup id = some piece → piece.parentPieceId = 0 → stability id ≠ none

/-- A child has been found, unless too much is lost on the way to it. -/
def Covered (pieces : PieceMap) (parent : UInt32) (stability : StabilityMap) (child : UInt32) :
    Prop :=
  ∀ piece, pieces.lookup child = some piece → piece.parentPieceId = parent →
    ∀ total, Load pieces child total → total < 100 → stability child ≠ none

section Found

variable {order popped queue : List UInt32} {stability : StabilityMap}

theorem Reached.add (reached : Reached pieces order popped queue stability) {id : UInt32}
    (unfound : stability id = none) (inOrder : id ∈ order) {value : UInt8} {total : Nat}
    (load : Load pieces id total) (left : value.toNat + total = 100) (some : 0 < value.toNat) :
    Reached pieces order popped (queue ++ [id])
      (Function.update stability id (Option.some value)) := by
  have absent : id ∉ popped ++ queue := by
    rw [reached.domain, unfound]
    exact fun wrong => wrong rfl
  refine ⟨?_, ?_, ?_, ?_⟩
  · rw [← append_assoc, nodup_append]
    refine ⟨reached.nodup, nodup_singleton id, ?_⟩
    rintro other there another isId rfl
    rw [mem_singleton] at isId
    rw [isId] at there
    exact absent there
  · intro other
    rw [← append_assoc, mem_append, mem_singleton, reached.domain]
    by_cases same : other = id
    · rw [same, Function.update_self]
      exact iff_of_true (Or.inr rfl) (Option.some_ne_none _)
    rw [Function.update_of_ne same]
    exact ⟨fun there => there.resolve_right same, Or.inl⟩
  · intro other there
    rw [← append_assoc, mem_append, mem_singleton] at there
    rcases there with before | rfl
    · exact reached.inside other before
    exact inOrder
  intro other held isHeld
  by_cases same : other = id
  · rw [same, Function.update_self, Option.some.injEq] at isHeld
    rw [same, ← isHeld]
    exact ⟨total, load, left, some⟩
  rw [Function.update_of_ne same] at isHeld
  exact reached.loads other held isHeld

theorem update_ne_none {id other : UInt32} {value : UInt8} (found : stability other ≠ none) :
    Function.update stability id (some value) other ≠ none := by
  by_cases same : other = id
  · rw [same, Function.update_self]
    exact Option.some_ne_none _
  rw [Function.update_of_ne same]
  exact found

theorem Reached.visitChild (reached : Reached pieces order popped queue stability)
    {parent child : UInt32} (raised : parent ≠ 0) {parentStab : UInt8}
    (held : stability parent = some parentStab) (inOrder : child ∈ order) :
    Reached pieces order popped
        (World.visitChild pieces parent parentStab (queue, stability) child).1
        (World.visitChild pieces parent parentStab (queue, stability) child).2 ∧
      (∀ id value, stability id = some value →
        (World.visitChild pieces parent parentStab (queue, stability) child).2 id = some value) ∧
      Covered pieces parent
        (World.visitChild pieces parent parentStab (queue, stability) child).2 child := by
  obtain ⟨below, parentLoad, left, -⟩ := reached.loads parent parentStab held
  rw [World.visitChild]
  rcases childHeld : pieces.lookup child with _ | piece
  · refine ⟨reached, fun _ _ same => same, ?_⟩
    intro piece isPiece
    rw [childHeld] at isPiece
    cases isPiece
  dsimp only
  by_cases isParent : piece.parentPieceId = parent
  · have load : Load pieces child (below + piece.decay) :=
      Load.stacked childHeld (isParent ▸ raised) (isParent ▸ parentLoad)
    have childStab : (calculateStability false parentStab
        (piece.pieceData.material.getD .wood)).toNat = parentStab.toNat - piece.decay := by
      rw [calculateStability, if_neg Bool.false_ne_true, toNat_saturatingSub8]
      rfl
    rw [if_pos isParent]
    generalize calculateStability false parentStab
      (piece.pieceData.material.getD .wood) = stab at childStab
    cases found : stability child with
    | some value =>
      obtain ⟨total, again, isLeft, -⟩ := reached.loads child value found
      have same := load.unique again
      have unchanged : ¬ (0 < stab ∧ (some value).getD 0 < stab) := by
        rw [Option.getD_some, UInt8.lt_iff_toNat_lt, UInt8.lt_iff_toNat_lt]
        omega
      rw [if_neg unchanged]
      refine ⟨reached, fun _ _ same => same, ?_⟩
      intro _ _ _ _ _ _
      dsimp only
      rw [found]
      exact Option.some_ne_none _
    | none =>
      by_cases positive : 0 < stab
      · have changed : 0 < stab ∧ (none : Option UInt8).getD 0 < stab :=
          ⟨positive, positive⟩
        rw [UInt8.lt_iff_toNat_lt] at positive
        rw [if_pos changed]
        refine ⟨reached.add found inOrder load (by omega) positive, ?_, ?_⟩
        · intro id value isValue
          have different : id ≠ child := by
            rintro rfl
            rw [found] at isValue
            cases isValue
          exact (Function.update_of_ne different _ _).trans isValue
        intro _ _ _ _ _ _
        dsimp only
        rw [Function.update_self]
        exact Option.some_ne_none _
      have unchanged : ¬ (0 < stab ∧ (none : Option UInt8).getD 0 < stab) :=
        fun both => positive both.1
      change ¬ 0 < stab.toNat at positive
      rw [if_neg unchanged]
      refine ⟨reached, fun _ _ same => same, ?_⟩
      intro _ _ _ total again small
      have same := load.unique again
      omega
  rw [if_neg isParent]
  refine ⟨reached, fun _ _ same => same, ?_⟩
  intro other isPiece isOther
  rw [childHeld, Option.some.injEq] at isPiece
  rw [← isPiece] at isOther
  exact absurd isOther isParent

theorem Reached.visitChildren (reached : Reached pieces order popped queue stability)
    {parent : UInt32} (raised : parent ≠ 0) {parentStab : UInt8}
    (held : stability parent = some parentStab) (children : List UInt32)
    (inOrder : ∀ child ∈ children, child ∈ order) :
    Reached pieces order popped
        (children.foldl (World.visitChild pieces parent parentStab) (queue, stability)).1
        (children.foldl (World.visitChild pieces parent parentStab) (queue, stability)).2 ∧
      (∀ id value, stability id = some value →
        (children.foldl (World.visitChild pieces parent parentStab) (queue, stability)).2 id =
          some value) ∧
      ∀ child ∈ children, Covered pieces parent
        (children.foldl (World.visitChild pieces parent parentStab) (queue, stability)).2
        child := by
  induction children generalizing queue stability with
  | nil =>
    refine ⟨reached, fun _ _ same => same, ?_⟩
    intro child there
    cases there
  | cons first children ih =>
    obtain ⟨next, grows, covered⟩ := reached.visitChild raised held
      (inOrder first mem_cons_self)
    obtain ⟨last, growsLater, coveredLater⟩ := ih next (grows parent parentStab held)
      fun child there => inOrder child (mem_cons_of_mem first there)
    refine ⟨last, fun id value same => growsLater id value (grows id value same), ?_⟩
    intro child there
    rcases mem_cons.mp there with rfl | later
    · intro piece isPiece isParent total load small
      obtain ⟨value, isValue⟩ := Option.ne_none_iff_exists'.mp
        (covered piece isPiece isParent total load small)
      have kept := growsLater child value isValue
      exact Option.ne_none_iff_exists'.mpr ⟨value, kept⟩
    exact coveredLater child later

theorem reached_ground (grounded : ∀ id piece, pieces.lookup id = some piece →
      piece.parentPieceId = 0 → piece.pieceData.pieceType = some .foundation)
    {walked : List UInt32} (distinct : walked.Nodup) (inOrder : ∀ id ∈ walked, id ∈ order)
    (reached : Reached pieces order [] queue stability)
    (unfound : ∀ id ∈ walked, stability id = none) :
    Reached pieces order [] (walked.foldl (groundPiece pieces) (queue, stability)).1
        (walked.foldl (groundPiece pieces) (queue, stability)).2 ∧
      (∀ id, stability id ≠ none →
        (walked.foldl (groundPiece pieces) (queue, stability)).2 id ≠ none) ∧
      ∀ id ∈ walked, ∀ piece, pieces.lookup id = some piece → piece.parentPieceId = 0 →
        (walked.foldl (groundPiece pieces) (queue, stability)).2 id ≠ none := by
  induction walked generalizing queue stability with
  | nil =>
    refine ⟨reached, fun _ found => found, ?_⟩
    intro id there
    cases there
  | cons first walked ih =>
    obtain ⟨notLater, distinctLater⟩ := nodup_cons.mp distinct
    have inOrderLater : ∀ id ∈ walked, id ∈ order :=
      fun id there => inOrder id (mem_cons_of_mem first there)
    rw [foldl_cons]
    by_cases isRoot : ∃ piece, pieces.lookup first = some piece ∧ piece.parentPieceId = 0
    · obtain ⟨piece, held, isGround⟩ := isRoot
      have next : groundPiece pieces (queue, stability) first =
          (queue ++ [first], Function.update stability first (some maxStability)) := by
        rw [groundPiece, held]
        exact if_pos ⟨isGround, grounded first piece held isGround⟩
      have added := reached.add (unfound first mem_cons_self)
        (inOrder first mem_cons_self) (Load.ground held isGround)
        (rfl : maxStability.toNat + 0 = 100) (by decide)
      have unfoundLater : ∀ id ∈ walked,
          Function.update stability first (some maxStability) id = none := by
        intro id there
        have different : id ≠ first := by
          rintro rfl
          exact notLater there
        rw [Function.update_of_ne different]
        exact unfound id (mem_cons_of_mem first there)
      obtain ⟨last, grows, roots⟩ :=
        ih distinctLater inOrderLater added unfoundLater
      rw [next]
      refine ⟨last, fun id found => grows id (update_ne_none found), ?_⟩
      intro id there
      rcases mem_cons.mp there with rfl | later
      · intro _ _ _
        apply grows
        rw [Function.update_self]
        exact Option.some_ne_none _
      exact roots id later
    have next : groundPiece pieces (queue, stability) first = (queue, stability) := by
      rw [groundPiece]
      cases held : pieces.lookup first with
      | none => rfl
      | some piece => exact if_neg fun both => isRoot ⟨piece, held, both.1⟩
    obtain ⟨last, grows, roots⟩ := ih distinctLater inOrderLater reached
      fun id there => unfound id (mem_cons_of_mem first there)
    rw [next]
    refine ⟨last, grows, ?_⟩
    intro id there
    rcases mem_cons.mp there with rfl | later
    · intro piece held isGround
      exact absurd ⟨piece, held, isGround⟩ isRoot
    exact roots id later

def Closed (pieces : PieceMap) (popped : List UInt32) (stability : StabilityMap) : Prop :=
  ∀ parent ∈ popped, ∀ child, Covered pieces parent stability child

/-- The loop ends when it may take as many pieces as there are, and has found all there is to
find. -/
theorem Reached.propagate {fuel : Nat}
    (positive : ∀ id piece, pieces.lookup id = some piece → id ≠ 0)
    (all : ∀ id piece, pieces.lookup id = some piece → id ∈ order)
    (reached : Reached pieces order popped queue stability)
    (closed : Closed pieces popped stability) (rooted : Rooted pieces stability)
    (enough : order.length ≤ fuel + popped.length) :
    ∃ last lastPopped, World.propagate pieces order fuel queue stability = some last ∧
      Reached pieces order lastPopped [] last ∧ Closed pieces lastPopped last ∧
      Rooted pieces last := by
  induction fuel generalizing popped queue stability with
  | zero =>
    rcases queue with _ | ⟨parent, queue⟩
    · exact ⟨stability, popped, rfl, reached, closed, rooted⟩
    -- all pieces have been popped, so that none can be left
    have inside : (popped ++ parent :: queue) ⊆ order := reached.inside
    have bound := (reached.nodup.subperm inside).length_le
    rw [length_append, length_cons] at bound
    omega
  | succ fuel ih =>
    rcases queue with _ | ⟨parent, queue⟩
    · exact ⟨stability, popped, rfl, reached, closed, rooted⟩
    have moved : (popped ++ [parent]) ++ queue = popped ++ parent :: queue := by
      rw [append_assoc, singleton_append]
    have taken : Reached pieces order (popped ++ [parent]) queue stability := by
      refine ⟨?_, ?_, ?_, reached.loads⟩
      · rw [moved]
        exact reached.nodup
      · rw [moved]
        exact reached.domain
      rw [moved]
      exact reached.inside
    have there : parent ∈ popped ++ parent :: queue :=
      mem_append_right popped mem_cons_self
    obtain ⟨parentStab, held⟩ := Option.ne_none_iff_exists'.mp ((reached.domain parent).mp there)
    obtain ⟨total, load, -⟩ := reached.loads parent parentStab held
    obtain ⟨piece, isPiece⟩ := load.exists_piece
    obtain ⟨next, grows, covered⟩ := taken.visitChildren (positive parent piece isPiece)
      held order fun _ inOrder => inOrder
    have growsSome : ∀ id, stability id ≠ none →
        (order.foldl (World.visitChild pieces parent parentStab)
          (queue, stability)).2 id ≠ none := by
      intro id found
      obtain ⟨value, isValue⟩ := Option.ne_none_iff_exists'.mp found
      exact Option.ne_none_iff_exists'.mpr ⟨value, grows id value isValue⟩
    have closedNext : Closed pieces (popped ++ [parent])
        (order.foldl (World.visitChild pieces parent parentStab) (queue, stability)).2 := by
      intro other isPopped child childPiece childHeld isOther total load small
      rcases mem_append.mp isPopped with before | now
      · exact growsSome child
          (closed other before child childPiece childHeld isOther total load small)
      rw [mem_singleton] at now
      rw [now] at isOther
      exact covered child (all child childPiece childHeld) childPiece childHeld isOther
        total load small
    have rootedNext : Rooted pieces (order.foldl
        (World.visitChild pieces parent parentStab) (queue, stability)).2 :=
      fun id piece isPiece isGround => growsSome id (rooted id piece isPiece isGround)
    have enoughNext : order.length ≤ fuel + (popped ++ [parent]).length := by
      rw [length_append, length_singleton]
      omega
    obtain ⟨last, lastPopped, isLast, reachedLast, closedLast, rootedLast⟩ :=
      ih next closedNext rootedNext enoughNext
    refine ⟨last, lastPopped, ?_, reachedLast, closedLast, rootedLast⟩
    rw [World.propagate, held]
    exact isLast

theorem Reached.found_iff (reached : Reached pieces order popped [] stability)
    (closed : Closed pieces popped stability) (rooted : Rooted pieces stability) (id : UInt32) :
    stability id ≠ none ↔ ∃ total, Load pieces id total ∧ total < 100 := by
  constructor
  · intro found
    obtain ⟨value, isValue⟩ := Option.ne_none_iff_exists'.mp found
    obtain ⟨total, load, left, positive⟩ := reached.loads id value isValue
    exact ⟨total, load, by omega⟩
  rintro ⟨total, load, small⟩
  induction load with
  | ground held grounded => exact rooted _ _ held grounded
  | @stacked id piece total held raised below ih =>
    have found := ih (by omega)
    rw [← reached.domain, append_nil] at found
    exact closed _ found id piece held rfl _ (Load.stacked held raised below) small

end Found

theorem exists_propagated {order : List UInt32}
    (positive : ∀ id piece, pieces.lookup id = some piece → id ≠ 0)
    (grounded : ∀ id piece, pieces.lookup id = some piece → piece.parentPieceId = 0 →
      piece.pieceData.pieceType = some .foundation)
    (distinct : order.Nodup) (listed : ∀ id, id ∈ order ↔ ∃ piece, pieces.lookup id = some piece)
    {fuel : Nat} (enough : order.length ≤ fuel) :
    ∃ stability, propagate pieces order fuel
        (order.foldl (groundPiece pieces) ([], fun _ => none)).1
        (order.foldl (groundPiece pieces) ([], fun _ => none)).2 = some stability ∧
      ∀ id, stability id ≠ none ↔ ∃ total, Load pieces id total ∧ total < 100 := by
  have nothing : Reached pieces order [] [] fun _ => none := by
    refine ⟨nodup_nil, ?_, ?_, ?_⟩
    · intro id
      exact iff_of_false not_mem_nil fun wrong => wrong rfl
    · intro id there
      cases there
    intro id value isValue
    cases isValue
  obtain ⟨reached, -, roots⟩ := reached_ground grounded distinct (fun _ there => there) nothing
    fun _ _ => rfl
  have rooted : Rooted pieces (order.foldl (groundPiece pieces) ([], fun _ => none)).2 :=
    fun id piece held isGround => roots id ((listed id).mpr ⟨piece, held⟩) piece held isGround
  have closed : Closed pieces [] (order.foldl (groundPiece pieces) ([], fun _ => none)).2 := by
    intro parent there
    cases there
  obtain ⟨last, lastPopped, isLast, reachedLast, closedLast, rootedLast⟩ :=
    reached.propagate positive
      (fun id piece held => (listed id).mpr ⟨piece, held⟩) closed rooted (by
        exact enough)
  exact ⟨last, isLast, reachedLast.found_iff closedLast rootedLast⟩

end Eidolon.World
