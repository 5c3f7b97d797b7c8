import Eidolon.Spatial.QueryMatches

/-!
# Queries in batches

A batch is tested as a whole when it is full.  Whatever its width, in the end the same
matches have been written as when every candidate is tested by itself.
-/

namespace Eidolon.Spatial

open Core List Option

def LaneTest.Correct {width : Nat} (test : LaneTest width) (center : Vec3Fix)
    (radiusSq : Fixed64) : Prop :=
  ∀ lanes lane, test lanes lane = decide ((lanes lane).distanceSquared center ≤ radiusSq)

namespace QueryBatch

def pending (center : Vec3Fix) (radiusSq : Fixed64) (candidates : List (UInt32 × Vec3Fix)) :
    List UInt32 :=
  (candidates.filter fun candidate =>
    decide (candidate.2.distanceSquared center ≤ radiusSq)).map Prod.fst

variable {width : Nat} {test : LaneTest width} {center : Vec3Fix} {radiusSq : Fixed64}

theorem filterMap_finRange {α : Type} (values : List α) (size : Nat) :
    (List.finRange size).filterMap (fun index => values[index.val]?) = values.take size := by
  have naturals : ∀ size : Nat,
      (List.range size).filterMap (fun index => values[index]?) = values.take size := by
    intro size
    induction size with
    | zero => rfl
    | succ size ih =>
      rw [range_succ, filterMap_append, ih, take_add_one]
      rfl
  rw [← naturals, ← map_coe_finRange_eq_range, filterMap_map]
  rfl

theorem flush_output (correct : LaneTest.Correct test center radiusSq) (batch : QueryBatch)
    (fits : batch.candidates.length ≤ width) :
    (batch.flush test center).output =
      batch.output.emitAll (pending center radiusSq batch.candidates) := by
  have lanes : batch.emitLane test center = fun output lane =>
      batch.candidates[lane.val]?.elim output fun candidate =>
        if decide (candidate.2.distanceSquared center ≤ radiusSq) then
          output.emit candidate.1
        else output := by
    funext output lane
    rw [emitLane]
    rcases isCandidate : batch.candidates[lane.val]? with _ | candidate
    · rfl
    have position : batch.lanes width center lane = candidate.2 := by
      rw [QueryBatch.lanes, isCandidate]
    rw [correct, position, elim_some]
  have candidates := filterMap_finRange batch.candidates width
  rw [take_of_length_le fits] at candidates
  rw [flush]
  simp only
  rw [lanes, pending, QueryOutput.emitAll, foldl_map, foldl_filter]
  refine Eq.trans ?_ (congrArg (List.foldl _ _) candidates)
  rw [foldl_filterMap]
  congr 1
  funext output lane
  cases batch.candidates[lane.val]? with
  | _ => rfl

/-- The batch has taken in these matches: some are written, and the rest is waiting. -/
structure Advances (width : Nat) (center : Vec3Fix) (radiusSq : Fixed64)
    (before after : QueryBatch) (entityIds : List UInt32) : Prop where
  short : after.candidates.length < width
  written : ∃ found, after.output = before.output.emitAll found ∧
    (found ++ pending center radiusSq after.candidates).Perm
      (pending center radiusSq before.candidates ++ entityIds)

theorem pending_append (center : Vec3Fix) (radiusSq : Fixed64)
    (first second : List (UInt32 × Vec3Fix)) :
    pending center radiusSq (first ++ second) =
      pending center radiusSq first ++ pending center radiusSq second := by
  rw [pending, pending, pending, filter_append, map_append]

theorem Advances.refl {batch : QueryBatch} (short : batch.candidates.length < width) :
    Advances width center radiusSq batch batch [] where
  short := short
  written := ⟨[], rfl, by rw [nil_append, append_nil]⟩

theorem Advances.trans {before between after : QueryBatch} {first second : List UInt32}
    (earlier : Advances width center radiusSq before between first)
    (later : Advances width center radiusSq between after second) :
    Advances width center radiusSq before after (first ++ second) where
  short := later.short
  written := by
    obtain ⟨found, output, same⟩ := earlier.written
    obtain ⟨more, laterOutput, laterSame⟩ := later.written
    refine ⟨found ++ more, ?_, ?_⟩
    · rw [laterOutput, output, QueryOutput.emitAll_append]
    rw [append_assoc, ← append_assoc (pending center radiusSq before.candidates)]
    refine (laterSame.append_left found).trans ?_
    rw [← append_assoc]
    exact same.append_right second

theorem Advances.foldl {Step : Type} {take : QueryBatch → Step → QueryBatch}
    {matchesOf : Step → List UInt32} {steps : List Step}
    (advances : ∀ batch step, step ∈ steps → batch.candidates.length < width →
      Advances width center radiusSq batch (take batch step) (matchesOf step))
    {batch : QueryBatch} (short : batch.candidates.length < width) :
    Advances width center radiusSq batch (steps.foldl take batch) (steps.flatMap matchesOf) := by
  induction steps generalizing batch with
  | nil => exact Advances.refl short
  | cons step steps ih =>
    have first := advances batch step mem_cons_self short
    refine first.trans (ih ?_ first.short)
    intro batch other member
    exact advances batch other (mem_cons_of_mem step member)

theorem advances_push (correct : LaneTest.Correct test center radiusSq) {batch : QueryBatch}
    (short : batch.candidates.length < width) (candidate : UInt32 × Vec3Fix) :
    Advances width center radiusSq batch (batch.push test center candidate)
      (pending center radiusSq [candidate]) := by
  have longer := pending_append center radiusSq batch.candidates [candidate]
  rw [push]
  split
  · rename_i full
    refine ⟨Nat.lt_of_le_of_lt (Nat.zero_le _) short, _, flush_output correct _
      (Nat.le_of_eq full), ?_⟩
    rw [longer]
    exact List.Perm.of_eq (append_nil _)
  rename_i notFull
  refine ⟨?_, [], rfl, ?_⟩
  · rw [length_append, length_singleton] at notFull ⊢
    omega
  rw [nil_append, longer]

end QueryBatch

namespace SpatialHashGrid

variable {width : Nat} {test : LaneTest width} {center : Vec3Fix} {radiusSq : Fixed64}

variable {batch : QueryBatch}

variable (grid : SpatialHashGrid)

section

variable (correct : test.Correct center radiusSq)
include correct

theorem advances_scan (accepts : GridEntity → Bool) (entityIds : List UInt32)
    (short : batch.candidates.length < width) :
    QueryBatch.Advances width center radiusSq batch
      (entityIds.foldl (fun batch entityId => (grid.entities entityId).elim batch fun entity =>
        if accepts entity then batch.push test center (entityId, entity.position) else batch)
        batch)
      (entityIds.filter fun entityId => (grid.entities entityId).any fun entity =>
        accepts entity && decide (entity.position.distanceSquared center ≤ radiusSq)) := by
  have matches_eq : ∀ isMatch : UInt32 → Bool, entityIds.filter isMatch =
      entityIds.flatMap fun entityId => if isMatch entityId then [entityId] else [] := by
    intro isMatch
    induction entityIds with
    | nil => rfl
    | cons entityId entityIds ih =>
      rw [filter_cons, flatMap_cons, ← ih]
      split <;> rfl
  rw [matches_eq]
  refine QueryBatch.Advances.foldl ?_ short
  intro batch entityId _ short
  rcases grid.entities entityId with _ | entity
  · exact QueryBatch.Advances.refl short
  rw [elim_some, any_some]
  by_cases accepted : accepts entity = true
  · have pushed := QueryBatch.advances_push correct short (entityId, entity.position)
    rw [QueryBatch.pending] at pushed
    rw [accepted]
    by_cases within : entity.position.distanceSquared center ≤ radiusSq
    · simpa [within] using pushed
    simpa [within] using pushed
  rw [Bool.eq_false_iff.mpr accepted]
  exact QueryBatch.Advances.refl short

theorem advances_scanBucketBatched (cell : CellCoord) (short : batch.candidates.length < width) :
    QueryBatch.Advances width center radiusSq batch (grid.scanBucketBatched test center cell batch)
      (grid.bucketMatches center radiusSq cell) := by
  have collects : grid.collect test cell.spatialKey center = fun batch entityId =>
      (grid.entities entityId).elim batch fun entity =>
        if decide (entity.key = cell.spatialKey) = true then
          batch.push test center (entityId, entity.position)
        else
          batch := by
    funext batch entityId
    rw [collect]
    cases grid.entities entityId with
    | none => rfl
    | some entity => simp only [elim_some, decide_eq_true_eq]
  rw [scanBucketBatched, collects]
  exact grid.advances_scan correct (fun entity => decide (entity.key = cell.spatialKey)) _ short

theorem advances_visitCellBatched (splitCells : CellCoord → Option Nat) (cell : CellCoord)
    (short : batch.candidates.length < width) :
    QueryBatch.Advances width center radiusSq batch
      (grid.visitCellBatched test splitCells center radiusSq batch cell)
      (grid.cellMatches splitCells center radiusSq cell) := by
  rw [visitCellBatched, cellMatches]
  rcases splitCells cell with _ | hIdx
  · exact grid.advances_scanBucketBatched correct cell short
  refine ⟨short, _, grid.hotspots.queryCellHierarchical_eq hIdx center radiusSq _, ?_⟩
  exact perm_append_comm

theorem finds_of_advances {query : List UInt32 → SpatialQueryResult × List UInt32}
    {batchOf : List UInt32 → QueryBatch} {entityIds : List UInt32}
    (advances : ∀ outputBuffer, QueryBatch.Advances width center radiusSq
      (QueryBatch.mk [] (QueryOutput.start outputBuffer)) (batchOf outputBuffer) entityIds)
    (ends : ∀ outputBuffer, query outputBuffer =
      ((if 0 < (batchOf outputBuffer).candidates.length then
          (batchOf outputBuffer).flush test center else batchOf outputBuffer).output.result,
        (if 0 < (batchOf outputBuffer).candidates.length then
          (batchOf outputBuffer).flush test center else batchOf outputBuffer).output.buffer)) :
    Finds query entityIds := by
  intro outputBuffer
  rw [ends]
  have taken := advances outputBuffer
  generalize batchOf outputBuffer = batch at taken ⊢
  obtain ⟨short, found, output, same⟩ := taken
  refine ⟨found ++ QueryBatch.pending center radiusSq batch.candidates, same, ?_⟩
  rw [QueryOutput.emitAll_append, ← output]
  split
  · rw [QueryBatch.flush_output correct batch (Nat.le_of_lt short)]
  have noCandidates : batch.candidates = [] := by
    apply eq_nil_of_length_eq_zero
    omega
  rw [noCandidates]
  rfl

end

theorem finds_queryBatched (positive : 0 < width) (correct : test.Correct center radiusSq)
    (splitCells : CellCoord → Option Nat) :
    Finds (grid.queryBatched test splitCells center radiusSq)
      (grid.matchesOf splitCells center radiusSq) := by
  apply finds_of_advances correct _ fun _ => rfl
  intro outputBuffer
  exact @QueryBatch.Advances.foldl width center radiusSq _
    (grid.visitCellBatched test splitCells center radiusSq)
    (grid.cellMatches splitCells center radiusSq) (neighborCells center radiusSq)
    (fun _ cell _ short => grid.advances_visitCellBatched correct splitCells cell short)
    (QueryBatch.mk [] (QueryOutput.start outputBuffer)) positive

theorem finds_queryRadiusSquaredBatched (center : Vec3Fix) (radiusSq : Fixed64) :
    Finds (grid.queryRadiusSquaredBatched center radiusSq)
      (grid.matchesOf grid.splitHotspot center radiusSq) := by
  let scalarTest : LaneTest 4 := fun lanes lane =>
    decide (Vec3Fix.batchDistanceSquared4x lanes center lane ≤ radiusSq)
  have correct : scalarTest.Correct center radiusSq := by
    intro lanes lane
    rw [← Vec3Fix.batchDistanceSquared4x_eq]
  exact grid.finds_queryBatched (by decide) correct grid.splitHotspot

theorem maskTest_correct (width : Nat) (center : Vec3Fix) (radiusSq : Fixed64) :
    (maskTest width center radiusSq).Correct center radiusSq := by
  intro lanes lane
  rw [maskTest, decide_eq_decide]
  exact Vec3FixLanes.filterWithinRadius_test lanes center radiusSq lane

theorem finds_queryRadiusSquaredBatched8x (center : Vec3Fix) (radiusSq : Fixed64) :
    Finds (grid.queryRadiusSquaredBatched8x center radiusSq)
      (grid.matchesOf (fun _ => none) center radiusSq) :=
  grid.finds_queryBatched (by decide) (maskTest_correct 8 center radiusSq) fun _ => none

theorem finds_queryRadiusSquaredBatched16x (center : Vec3Fix) (radiusSq : Fixed64) :
    Finds (grid.queryRadiusSquaredBatched16x center radiusSq)
      (grid.matchesOf (fun _ => none) center radiusSq) :=
  grid.finds_queryBatched (by decide) (maskTest_correct 16 center radiusSq) fun _ => none

end SpatialHashGrid

end Eidolon.Spatial
