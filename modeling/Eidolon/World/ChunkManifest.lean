import Mathlib.Data.Finset.Sort
import Eidolon.Library.FiniteMap
import Eidolon.Library.Run
import Eidolon.World.SoaStorage
import Eidolon.World.WalIntegrity

/-!
# Manifests of chunks

The structures of the world by chunks of 256 metres, each with a checksum of its revision and
the identifiers in it.  A client that knows the checksum has the chunk in its cache.  Since the
identifiers are sorted before they are summed, the checksum is one of the set of structures.
-/

namespace Eidolon.World

open Core List UInt32
open Library

structure ChunkCoord where
  x : Int16
  z : Int16
  deriving DecidableEq

/-- A whole number rounded to the 53 binary digits of an `f64`, ties to even. -/
def nearestF64 (value : Int) : Int :=
  let magnitude := value.natAbs
  let shift := Nat.log2 magnitude + 1 - 53
  let quotient := magnitude / 2 ^ shift
  let remainder := magnitude % 2 ^ shift
  let up := 2 ^ shift < 2 * remainder ∨ 2 * remainder = 2 ^ shift ∧ quotient % 2 = 1
  value.sign * ((if up then quotient + 1 else quotient) * 2 ^ shift : Nat)

/-- The chunk of a fixed-point number: the divisions by the scale and by 256 are exact. -/
def chunkIndex (value : Fixed64) : Int16 :=
  Int16.ofIntClamp (nearestF64 value.raw.toInt / 2 ^ 40)

namespace ChunkCoord

def fromPosition (pos : Vec3Fix) : ChunkCoord where
  x := chunkIndex pos.x
  z := chunkIndex pos.z

end ChunkCoord

structure StructureChunk where
  coord : ChunkCoord
  structureIds : List UInt32
  manifestHash : UInt32
  revision : UInt32
  deriving DecidableEq

namespace StructureChunk

def new (coord : ChunkCoord) : StructureChunk where
  coord := coord
  structureIds := []
  manifestHash := 0
  revision := 0

def hashPayload (revision : UInt32) (ids : List UInt32) : List UInt8 :=
  bigEndian 4 revision.toNat ++ ids.flatMap fun sid => bigEndian 4 sid.toNat

def recomputeHash (chunk : StructureChunk) : StructureChunk :=
  if chunk.structureIds = [] then
    { chunk with manifestHash := 0 }
  else
    let sorted := chunk.structureIds.insertionSort (· ≤ ·)
    { chunk with
      structureIds := sorted
      manifestHash := computeAdler32 (hashPayload chunk.revision sorted) }

def revise (chunk : StructureChunk) (structureIds : List UInt32) : StructureChunk :=
  recomputeHash { chunk with structureIds := structureIds, revision := chunk.revision + 1 }

end StructureChunk

structure ChunkManifestManager where
  chunks : Finmap fun _ : ChunkCoord => StructureChunk

namespace ChunkManifestManager

def new : ChunkManifestManager where
  chunks := ∅

variable (manager : ChunkManifestManager)

def registerStructure (structureId : UInt32) (position : Vec3Fix) :
    ChunkCoord × ChunkManifestManager :=
  let coord := ChunkCoord.fromPosition position
  let chunk := (manager.chunks.lookup coord).getD (StructureChunk.new coord)
  if structureId ∈ chunk.structureIds then
    (coord, { chunks := manager.chunks.insert coord chunk })
  else
    (coord,
      { chunks :=
          manager.chunks.insert coord (chunk.revise (chunk.structureIds ++ [structureId])) })

def unregisterStructure (structureId : UInt32) (position : Vec3Fix) :
    Except WorldError Unit × ChunkManifestManager :=
  let coord := ChunkCoord.fromPosition position
  match manager.chunks.lookup coord with
  | none => (.error (.structureNotFound structureId), manager)
  | some chunk =>
    match chunk.structureIds.idxOf? structureId with
    | none => (.error (.structureNotFound structureId), manager)
    | some pos =>
      (.ok (),
        { chunks :=
            manager.chunks.insert coord (chunk.revise (swapRemove chunk.structureIds pos)) })

def markChunkModified (position : Vec3Fix) :
    ChunkManifestManager :=
  let coord := ChunkCoord.fromPosition position
  match manager.chunks.lookup coord with
  | none => manager
  | some chunk => { chunks := manager.chunks.insert coord (chunk.revise chunk.structureIds) }

variable (coord : ChunkCoord)

def validateClientCache (clientHash : UInt32) : Bool :=
  match manager.chunks.lookup coord with
  | some chunk => chunk.manifestHash == clientHash
  | none => clientHash == 0

def getManifestHash : UInt32 :=
  ((manager.chunks.lookup coord).map StructureChunk.manifestHash).getD 0

def getStructuresInChunk : List UInt32 :=
  ((manager.chunks.lookup coord).map StructureChunk.structureIds).getD []

end ChunkManifestManager

def manifestChecksum (structures : Finset UInt32) (revision : UInt32) : UInt32 :=
  if structures = ∅ then 0
  else computeAdler32 (StructureChunk.hashPayload revision structures.sort)

theorem bigEndian_word (word : UInt32) : ∃ first second third fourth : UInt8,
      bigEndian 4 word.toNat = [first, second, third, fourth] ∧
        word.toNat = first.toNat * 2 ^ 24 + second.toNat * 2 ^ 16 + third.toNat * 2 ^ 8 +
          fourth.toNat := by
  refine ⟨UInt8.ofNat (word.toNat / 256 / 256 / 256), UInt8.ofNat (word.toNat / 256 / 256),
    UInt8.ofNat (word.toNat / 256), UInt8.ofNat word.toNat, rfl, ?_⟩
  have small := word.toNat_lt
  simp only [UInt8.toNat_ofNat']
  omega

theorem dvd_of_manifestChecksum_eq {structures : Finset UInt32} (some : structures ≠ ∅)
    {revision other : UInt32}
    (same : manifestChecksum structures revision = manifestChecksum structures other) :
    (65025 : Int) ∣ revision.toNat - other.toNat := by
  rw [manifestChecksum, manifestChecksum, if_neg some, if_neg some] at same
  have low := congrArg (fun checksum => UInt32.toNat checksum % 65536) same
  have high := congrArg (fun checksum => UInt32.toNat checksum / 65536) same
  obtain ⟨a, b, c, d, bytes, value⟩ := bigEndian_word revision
  obtain ⟨a', b', c', d', otherBytes, otherValue⟩ := bigEndian_word other
  simp only [computeAdler32_low, computeAdler32_high, StructureChunk.hashPayload, bytes,
    otherBytes, map_append, sum_append, length_append,
    weightedSum_append, map_cons, map_nil, sum_cons, sum_nil, weightedSum,
    length_cons, length_nil] at low high
  have bounds := And.intro a.toNat_lt (And.intro b.toNat_lt (And.intro c.toNat_lt d.toNat_lt))
  have otherBounds :=
    And.intro a'.toNat_lt (And.intro b'.toNat_lt (And.intro c'.toNat_lt d'.toNat_lt))
  -- The digits to the base 256 have the same sum, and the same sum by their places.
  have digits : a.toNat + (b.toNat + (c.toNat + (d.toNat + 0))) =
      a'.toNat + (b'.toNat + (c'.toNat + (d'.toNat + 0))) := by
    omega
  rw [digits] at high
  have places : 3 * a.toNat + 2 * b.toNat + c.toNat = 3 * a'.toNat + 2 * b'.toNat + c'.toNat := by
    omega
  omega

namespace StructureChunk

structure Hashed (chunk : StructureChunk) : Prop where
  distinct : chunk.structureIds.Nodup
  hash : chunk.manifestHash = manifestChecksum chunk.structureIds.toFinset chunk.revision

theorem hashed_new (coord : ChunkCoord) : (new coord).Hashed :=
  ⟨nodup_nil, rfl⟩

theorem revision_revise (chunk : StructureChunk) (ids : List UInt32) :
    (chunk.revise ids).revision = chunk.revision + 1 := by
  unfold revise recomputeHash
  split <;> rfl

theorem hashed_revise (chunk : StructureChunk) {ids : List UInt32} (distinct : ids.Nodup) :
    (chunk.revise ids).Hashed := by
  unfold revise recomputeHash
  by_cases isEmpty : ids = []
  · subst isEmpty
    exact ⟨nodup_nil, rfl⟩
  have perm := perm_insertionSort (· ≤ ·) ids
  have sorted := pairwise_insertionSort (· ≤ ·) ids
  have stillDistinct := perm.nodup_iff.mpr distinct
  have members : (ids.insertionSort (· ≤ ·)).toFinset.sort = ids.insertionSort (· ≤ ·) :=
    (toFinset_sort _ stillDistinct).mpr sorted
  rw [if_neg isEmpty]
  refine ⟨stillDistinct, ?_⟩
  have notEmpty : (ids.insertionSort (· ≤ ·)).toFinset ≠ ∅ := by
    intro none
    rw [toFinset_eq_empty_iff] at none
    rw [none] at perm
    exact isEmpty perm.nil_eq.symm
  rw [manifestChecksum, if_neg notEmpty, members]

end StructureChunk

inductive ManifestCall where
  | registerStructure (structureId : UInt32) (position : Vec3Fix)
  | unregisterStructure (structureId : UInt32) (position : Vec3Fix)
  | markChunkModified (position : Vec3Fix)

namespace ChunkManifestManager

def step (manager : ChunkManifestManager) : ManifestCall → ChunkManifestManager
  | .registerStructure structureId position => (manager.registerStructure structureId position).2
  | .unregisterStructure structureId position =>
    (manager.unregisterStructure structureId position).2
  | .markChunkModified position => manager.markChunkModified position

def AllHashed (manager : ChunkManifestManager) : Prop :=
  ∀ coord chunk, manager.chunks.lookup coord = some chunk → chunk.Hashed

variable {manager : ChunkManifestManager}

theorem AllHashed.insert (hashed : manager.AllHashed) {chunk : StructureChunk}
    (isHashed : chunk.Hashed) (coord : ChunkCoord) :
    AllHashed { chunks := manager.chunks.insert coord chunk } := by
  intro other found held
  by_cases same : other = coord
  · subst same
    rw [Finmap.lookup_insert] at held
    cases held
    exact isHashed
  rw [Finmap.lookup_insert_of_ne _ same] at held
  exact hashed other found held

theorem AllHashed.step (hashed : manager.AllHashed) (call : ManifestCall) :
    (manager.step call).AllHashed := by
  cases call with
  | registerStructure structureId position =>
    have chunkHashed : ((manager.chunks.lookup (ChunkCoord.fromPosition position)).getD
        (StructureChunk.new (ChunkCoord.fromPosition position))).Hashed := by
      rcases held : manager.chunks.lookup (ChunkCoord.fromPosition position) with _ | chunk
      · exact StructureChunk.hashed_new _
      exact hashed _ chunk held
    change (manager.registerStructure structureId position).2.AllHashed
    unfold registerStructure
    simp only
    split
    · exact hashed.insert chunkHashed _
    rename_i notListed
    refine hashed.insert (StructureChunk.hashed_revise _ ?_) _
    refine List.Nodup.append chunkHashed.distinct (nodup_singleton _) ?_
    intro id listed isNew
    rw [List.mem_singleton.mp isNew] at listed
    exact notListed listed
  | unregisterStructure structureId position =>
    change (manager.unregisterStructure structureId position).2.AllHashed
    unfold unregisterStructure
    simp only
    rcases held : manager.chunks.lookup (ChunkCoord.fromPosition position) with _ | chunk
    · exact hashed
    rcases found : chunk.structureIds.idxOf? structureId with _ | pos
    · simp only [found]
      exact hashed
    simp only [found]
    obtain ⟨inside, _, _⟩ := List.idxOf?_eq_some_iff.mp found
    have perm := perm_swapRemove (List.getElem?_eq_getElem inside)
    have distinct := perm.nodup_iff.mp (hashed _ chunk held).distinct
    exact hashed.insert (StructureChunk.hashed_revise _ (List.nodup_cons.mp distinct).2) _
  | markChunkModified position =>
    change (manager.markChunkModified position).AllHashed
    unfold markChunkModified
    simp only
    rcases held : manager.chunks.lookup (ChunkCoord.fromPosition position) with _ | chunk
    · exact hashed
    exact hashed.insert (StructureChunk.hashed_revise _ (hashed _ chunk held).distinct) _

theorem allHashed_run (calls : List ManifestCall) (hashed : manager.AllHashed) :
    (run step manager calls).AllHashed := by
  have preserved : ∀ (manager : ChunkManifestManager) (call : ManifestCall),
      manager.AllHashed → (manager.step call).AllHashed :=
    fun _ call hashed => hashed.step call
  exact (throughout_of_preserved preserved hashed calls).run

theorem allHashed_new : new.AllHashed := by
  intro coord chunk held
  cases held

def structures (manager : ChunkManifestManager) (coord : ChunkCoord) : Finset UInt32 :=
  (manager.getStructuresInChunk coord).toFinset

/-- The number of changes of a chunk. -/
def revision (manager : ChunkManifestManager) (coord : ChunkCoord) : UInt32 :=
  ((manager.chunks.lookup coord).map StructureChunk.revision).getD 0

theorem revision_insert (manager : ChunkManifestManager) (chunk : StructureChunk)
    (place coord : ChunkCoord) :
    revision { chunks := manager.chunks.insert place chunk } coord =
      if coord = place then chunk.revision else manager.revision coord := by
  unfold revision
  by_cases here : coord = place
  · subst here
    rw [Finmap.lookup_insert, if_pos rfl]
    rfl
  rw [Finmap.lookup_insert_of_ne _ here, if_neg here]

theorem revision_step (manager : ChunkManifestManager) (call : ManifestCall) (coord : ChunkCoord) :
    (manager.step call).revision coord = manager.revision coord ∨
      (manager.step call).revision coord = manager.revision coord + 1 := by
  have revised : ∀ (place : ChunkCoord) (chunk : StructureChunk) (ids : List UInt32),
      chunk.revision = manager.revision place →
        let after : ChunkManifestManager :=
          { chunks := manager.chunks.insert place (chunk.revise ids) }
        after.revision coord = manager.revision coord ∨
          after.revision coord = manager.revision coord + 1 := by
    intro place chunk ids same after
    rw [revision_insert, StructureChunk.revision_revise, same]
    by_cases here : coord = place
    · rw [if_pos here, here]
      exact .inr rfl
    rw [if_neg here]
    exact .inl rfl
  cases call with
  | registerStructure structureId position =>
    change (manager.registerStructure structureId position).2.revision coord = _ ∨
      (manager.registerStructure structureId position).2.revision coord = _
    have chunkRevision : ((manager.chunks.lookup (ChunkCoord.fromPosition position)).getD
        (StructureChunk.new (ChunkCoord.fromPosition position))).revision =
          manager.revision (ChunkCoord.fromPosition position) := by
      unfold revision
      rcases manager.chunks.lookup (ChunkCoord.fromPosition position) with _ | chunk <;> rfl
    unfold registerStructure
    simp only
    split
    · rw [revision_insert, chunkRevision]
      by_cases here : coord = ChunkCoord.fromPosition position
      · rw [if_pos here, here]
        exact .inl rfl
      rw [if_neg here]
      exact .inl rfl
    exact revised _ _ _ chunkRevision
  | unregisterStructure structureId position =>
    change (manager.unregisterStructure structureId position).2.revision coord = _ ∨
      (manager.unregisterStructure structureId position).2.revision coord = _
    unfold unregisterStructure
    simp only
    rcases held : manager.chunks.lookup (ChunkCoord.fromPosition position) with _ | chunk
    · exact .inl rfl
    rcases found : chunk.structureIds.idxOf? structureId with _ | pos
    · simp only [found, true_or]
    simp only [found]
    exact revised _ chunk _ (by rw [revision, held]; rfl)
  | markChunkModified position =>
    change (manager.markChunkModified position).revision coord = _ ∨
      (manager.markChunkModified position).revision coord = _
    unfold markChunkModified
    simp only
    rcases held : manager.chunks.lookup (ChunkCoord.fromPosition position) with _ | chunk
    · exact .inl rfl
    exact revised _ chunk _ (by rw [revision, held]; rfl)

theorem revision_new (coord : ChunkCoord) : new.revision coord = 0 := by
  rfl

def changes (coord : ChunkCoord) : ChunkManifestManager → List ManifestCall → Nat
  | _, [] => 0
  | manager, call :: calls =>
    (if (manager.step call).revision coord = manager.revision coord then 0 else 1) +
      changes coord (manager.step call) calls

theorem revision_run (manager : ChunkManifestManager) (calls : List ManifestCall)
    (coord : ChunkCoord) :
    (run step manager calls).revision coord =
      manager.revision coord + UInt32.ofNat (changes coord manager calls) := by
  induction calls generalizing manager with
  | nil => exact (add_zero _).symm
  | cons call calls ih =>
    rw [run_cons, ih, changes, ofNat_add, ← add_assoc]
    congr 1
    by_cases same : (manager.step call).revision coord = manager.revision coord
    · rw [if_pos same, same]
      exact (add_zero _).symm
    rw [if_neg same]
    exact (manager.revision_step call coord).resolve_left same

theorem getManifestHash_eq (hashed : manager.AllHashed) (coord : ChunkCoord) :
    manager.getManifestHash coord =
      manifestChecksum (manager.structures coord) (manager.revision coord) := by
  unfold getManifestHash structures getStructuresInChunk revision
  rcases held : manager.chunks.lookup coord with _ | chunk
  · rfl
  exact (hashed coord chunk held).hash

theorem validateClientCache_iff (manager : ChunkManifestManager) (coord : ChunkCoord)
    (clientHash : UInt32) :
    manager.validateClientCache coord clientHash = true ↔
      manager.getManifestHash coord = clientHash := by
  unfold validateClientCache getManifestHash
  rcases manager.chunks.lookup coord with _ | chunk
  · rw [beq_iff_eq, eq_comm]
    rfl
  exact beq_iff_eq

theorem manifestChecksum_empty (revision : UInt32) : manifestChecksum ∅ revision = 0 := by
  rw [manifestChecksum, if_pos rfl]

def Passes (after before : ChunkManifestManager) (coord : ChunkCoord) : Prop :=
  after.validateClientCache coord (before.getManifestHash coord) = true

variable {before after : ChunkManifestManager} {coord : ChunkCoord}

theorem passes_iff (hashedBefore : before.AllHashed) (hashedAfter : after.AllHashed) :
    Passes after before coord ↔ manifestChecksum (after.structures coord) (after.revision coord) =
        manifestChecksum (before.structures coord) (before.revision coord) := by
  rw [← getManifestHash_eq hashedBefore, ← getManifestHash_eq hashedAfter]
  exact after.validateClientCache_iff coord _

theorem passes_of_unchanged (hashedBefore : before.AllHashed) (hashedAfter : after.AllHashed)
    (sameStructures : after.structures coord = before.structures coord)
    (sameRevision : before.structures coord ≠ ∅ → after.revision coord = before.revision coord) :
    Passes after before coord := by
  rw [passes_iff hashedBefore hashedAfter, sameStructures]
  by_cases isEmpty : before.structures coord = ∅
  · rw [isEmpty, manifestChecksum_empty, manifestChecksum_empty]
  rw [sameRevision isEmpty]

/-- The hash of a chunk passes later exactly when the checksum of its structures and its
revision is the same, which it is when nothing has changed.  With the same structures the
revision is the same, or a multiple of 255² revisions away; it is the same if the chunk has
not been changed that often, unless the revisions overflow. -/
theorem validates_iff (history later : List ManifestCall) (coord : ChunkCoord) :
    let before := run step new history
    let after := run step before later
    (Passes after before coord ↔ manifestChecksum (after.structures coord) (after.revision coord) =
          manifestChecksum (before.structures coord) (before.revision coord)) ∧
      (after.structures coord = before.structures coord →
        (before.structures coord ≠ ∅ → after.revision coord = before.revision coord) →
        Passes after before coord) ∧
      (Passes after before coord → after.structures coord = before.structures coord →
        before.structures coord ≠ ∅ →
        (65025 : Int) ∣ (after.revision coord).toNat - (before.revision coord).toNat ∧
          (changes coord new history + changes coord before later < 2 ^ 32 →
            changes coord before later < 65025 →
            after.revision coord = before.revision coord)) := by
  intro before after
  have hashedBefore : before.AllHashed := allHashed_run history allHashed_new
  have hashedAfter : after.AllHashed := allHashed_run later hashedBefore
  refine ⟨passes_iff hashedBefore hashedAfter, passes_of_unchanged hashedBefore hashedAfter, ?_⟩
  intro passes sameStructures notEmpty
  rw [passes_iff hashedBefore hashedAfter, sameStructures] at passes
  have divides := dvd_of_manifestChecksum_eq notEmpty passes
  refine ⟨divides, ?_⟩
  intro few recent
  have revisionBefore : (before.revision coord).toNat = changes coord new history := by
    have counted : before.revision coord = new.revision coord + _ :=
      revision_run new history coord
    rw [counted, revision_new, zero_add]
    exact Nat.mod_eq_of_lt (by omega)
  have revisionAfter : (after.revision coord).toNat =
      changes coord new history + changes coord before later := by
    have counted : after.revision coord = before.revision coord + _ :=
      revision_run before later coord
    rw [counted, UInt32.toNat_add, UInt32.toNat_ofNat']
    omega
  apply UInt32.toNat_inj.mp
  omega

def originChunk : ChunkCoord :=
  ChunkCoord.fromPosition (Vec3Fix.fromI32 0 0 0)

def registered : ChunkManifestManager :=
  run step new [.registerStructure 0x02010000 (Vec3Fix.fromI32 0 0 0)]

def replaced : ChunkManifestManager :=
  run step registered [.unregisterStructure 0x02010000 (Vec3Fix.fromI32 0 0 0),
      .registerStructure 1 (Vec3Fix.fromI32 0 0 0)]

/-- The hash from before passes. -/
theorem not_sound_replaced : ¬ (Passes replaced registered originChunk →
      replaced.structures originChunk = registered.structures originChunk ∧
        (registered.structures originChunk ≠ ∅ →
          replaced.revision originChunk = registered.revision originChunk)) := by
  intro sound
  have passes : replaced.validateClientCache originChunk
      (registered.getManifestHash originChunk) = true := by
    decide +kernel
  have same := (sound passes).1
  have different : replaced.structures originChunk ≠ registered.structures originChunk := by
    decide +kernel
  exact different same

end ChunkManifestManager

end Eidolon.World
