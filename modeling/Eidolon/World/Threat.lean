import Eidolon.Library.KeyedList
import Eidolon.Library.MachineInt
import Eidolon.Library.Priority
import Eidolon.Library.Run
import Eidolon.Library.SlotArray

/-!
# Threat tables

The combatants of an NPC with their threat, in sixteen slots, and the choice of its target.
The entity that taunts is remembered by its identifier, next to the slots.
-/

namespace Eidolon.World

open Library List Option

def maxThreatEntries : Nat := 16

structure ThreatEntry where
  entityId : UInt64
  threatPoints : UInt32
  damageDealt : UInt32
  healingDone : UInt32
  lastThreatTick : UInt64
  deriving DecidableEq

namespace ThreatEntry

def new (entityId : UInt64) (initialThreat : UInt32) (currentTick : UInt64) : ThreatEntry where
  entityId := entityId
  threatPoints := initialThreat
  damageDealt := 0
  healingDone := 0
  lastThreatTick := currentTick

/-- A new entry with its threat entered as damage or as healing. -/
def first (entityId : UInt64) (threatAmount : UInt32) (isDamage : Bool)
    (currentTick : UInt64) : ThreatEntry :=
  let entry := new entityId threatAmount currentTick
  if isDamage then { entry with damageDealt := threatAmount }
  else { entry with healingDone := threatAmount }

def gain (entry : ThreatEntry) (threatAmount : UInt32) (isDamage : Bool)
    (currentTick : UInt64) : ThreatEntry :=
  let gained :=
    if isDamage then
      { entry with damageDealt := saturatingAdd32 entry.damageDealt threatAmount }
    else
      { entry with healingDone := saturatingAdd32 entry.healingDone threatAmount }
  { gained with
    threatPoints := saturatingAdd32 entry.threatPoints threatAmount
    lastThreatTick := currentTick }

def isStale (entry : ThreatEntry) (timeoutTicks currentTick : UInt64) : Bool :=
  timeoutTicks < saturatingSub64 currentTick entry.lastThreatTick

end ThreatEntry

structure ThreatTable where
  entries : SlotArray maxThreatEntries ThreatEntry
  count : Nat
  tauntTarget : Option UInt64
  tauntExpireTick : UInt64
  deriving DecidableEq

namespace ThreatTable

def new : ThreatTable where
  entries := SlotArray.empty _ _
  count := 0
  tauntTarget := none
  tauntExpireTick := 0

variable (table : ThreatTable)

def isEmpty : Bool :=
  table.count == 0

def keepLowest (lowest : Option Nat × UInt32) (slot : Nat × ThreatEntry) : Option Nat × UInt32 :=
  if slot.2.threatPoints < lowest.2 then (some slot.1, slot.2.threatPoints) else lowest

def lowestThreat : Option Nat × UInt32 :=
  table.entries.indexed.foldl keepLowest (none, UInt32.ofNat (2 ^ 32 - 1))

def evictedSlot (threatAmount : UInt32) : Option Nat :=
  match table.lowestThreat with
  | (some index, lowest) => if lowest < threatAmount then some index else none
  | (none, _) => none

variable (entityId : UInt64)

def addThreat (threatAmount : UInt32) (isDamage : Bool) (currentTick : UInt64) : ThreatTable :=
  match table.entries.findFirst? fun entry => entry.entityId == entityId with
  | some (index, entry) =>
    { table with
      entries := table.entries.set index (some (entry.gain threatAmount isDamage currentTick)) }
  | none =>
    let entry := ThreatEntry.first entityId threatAmount isDamage currentTick
    match table.entries.fillFirst? entry with
    | some filled => { table with entries := filled, count := table.count + 1 }
    | none =>
      match table.evictedSlot threatAmount with
      | some index => { table with entries := table.entries.set index (some entry) }
      | none => table

def applyTaunt (durationTicks currentTick : UInt64) : ThreatTable :=
  let present :=
    if table.entries.entries.any fun entry => entry.entityId == entityId then table
    else table.addThreat entityId 1 false currentTick
  { present with
    tauntTarget := some entityId
    tauntExpireTick := saturatingAdd64 currentTick durationTicks }

def topEntry : Option ThreatEntry :=
  firstBest (fun entry top => decide (top.threatPoints < entry.threatPoints)) table.entries.entries

def getTopThreat : Option (UInt64 × UInt32) :=
  table.topEntry.map fun entry => (entry.entityId, entry.threatPoints)

def hysteresisThreshold (isMelee : Bool) (currentThreat : UInt32) : UInt32 :=
  if isMelee then saturatingAdd32 currentThreat (currentThreat / 10)
  else saturatingAdd32 currentThreat (saturatingMul32 currentThreat 3 / 10)

def activeTaunt (currentTick : UInt64) : Option UInt64 :=
  table.tauntTarget.filter fun _ => currentTick < table.tauntExpireTick

def threatOf : Option UInt32 :=
  (KeyedList.find ThreatEntry.entityId table.entries.entries entityId).map (·.threatPoints)

def selectTarget (currentTarget : Option UInt64) (isMelee : Bool) (currentTick : UInt64) :
    Option UInt64 :=
  match table.activeTaunt currentTick with
  | some tauntId => some tauntId
  | none =>
    match table.getTopThreat, currentTarget with
    | none, _ => none
    | some (topId, _), none => some topId
    | some (topId, topThreat), some currId =>
      if currId = topId then some currId
      else
        match table.threatOf currId with
        | some currThreat =>
          if hysteresisThreshold isMelee currThreat ≤ topThreat then some topId
          else some currId
        | none => some topId

def removeEntity : ThreatTable :=
  let removed :=
    match table.entries.findFirst? fun entry => entry.entityId == entityId with
    | some (index, _) =>
      { table with
        entries := table.entries.set index none
        count := table.count - 1 }
    | none => table
  if removed.tauntTarget = some entityId then { removed with tauntTarget := none } else removed

def decayThreat (decayPercent : UInt32) : ThreatTable :=
  let factor := 100 - min decayPercent 100
  { table with
    entries := table.entries.mapSlots fun entry =>
      some { entry with
        threatPoints :=
          (entry.threatPoints.toUInt64 * factor.toUInt64 / 100).toUInt32 } }

def decayStaleThreat (timeoutTicks currentTick : UInt64) : ThreatTable :=
  { table with
    entries := table.entries.mapSlots fun entry =>
      if entry.isStale timeoutTicks currentTick then none else some entry
    count := table.count -
      table.entries.entries.countP fun entry => entry.isStale timeoutTicks currentTick }

def clear : ThreatTable where
  entries := SlotArray.empty _ _
  count := 0
  tauntTarget := none
  tauntExpireTick := 0

/-- The entities of the table, in slot order. -/
def ids : List UInt64 :=
  table.entries.entries.map ThreatEntry.entityId

variable {table}

theorem first_entityId (threatAmount : UInt32) (isDamage : Bool) (currentTick : UInt64) :
    (ThreatEntry.first entityId threatAmount isDamage currentTick).entityId = entityId := by
  cases isDamage <;> rfl

theorem gain_entityId (entry : ThreatEntry) (threatAmount : UInt32) (isDamage : Bool)
    (currentTick : UInt64) :
    (entry.gain threatAmount isDamage currentTick).entityId = entry.entityId := by
  cases isDamage <;> rfl

variable {entityId : UInt64}

theorem find_none_iff : (table.entries.findFirst? fun entry => entry.entityId == entityId) = none ↔
      entityId ∉ table.ids := by
  rw [SlotArray.findFirst?_eq_none_iff, ids, List.mem_map]
  simp only [beq_eq_false_iff_ne]
  constructor
  · rintro others ⟨entry, listed, same⟩
    exact others entry listed same
  intro absent entry listed same
  exact absent ⟨entry, listed, same⟩

variable {index : Nat}

theorem find_some {entry : ThreatEntry}
    (found : (table.entries.findFirst? fun entry => entry.entityId == entityId) =
      some (index, entry)) :
    table.entries.get? index = some entry ∧ entry.entityId = entityId := by
  obtain ⟨held, named, _⟩ := SlotArray.findFirst?_eq_some found
  exact ⟨held, eq_of_beq named⟩

theorem ids_set {entry : ThreatEntry} (held : table.entries.get? index = some entry)
    (value : Option ThreatEntry) :
    ∃ rest : List UInt64, table.ids.Perm (entry.entityId :: rest) ∧
      ((table.entries.set index value).entries.map ThreatEntry.entityId).Perm
        ((value.map ThreatEntry.entityId).toList ++ rest) := by
  obtain ⟨rest, whole, written⟩ := table.entries.exists_rest (SlotArray.lt_of_get? held)
  rw [held] at whole
  refine ⟨rest.map ThreatEntry.entityId, whole.map _, ?_⟩
  have changed := (written value).map ThreatEntry.entityId
  cases value <;> exact changed

theorem foldl_keepLowest (slots : List (Nat × ThreatEntry)) (lowest : Option Nat × UInt32) :
    slots.foldl keepLowest lowest = lowest ∨
      ∃ slot ∈ slots, slots.foldl keepLowest lowest = (some slot.1, slot.2.threatPoints) := by
  induction slots generalizing lowest with
  | nil => exact .inl rfl
  | cons slot rest ih =>
    rw [foldl_cons]
    rcases ih (keepLowest lowest slot) with same | ⟨other, listed, kept⟩
    · rw [same, keepLowest]
      by_cases lower : slot.2.threatPoints < lowest.2
      · rw [if_pos lower]
        exact .inr ⟨slot, mem_cons_self, rfl⟩
      rw [if_neg lower]
      exact .inl rfl
    exact .inr ⟨other, mem_cons_of_mem slot listed, kept⟩

variable {threatAmount : UInt32}

theorem get?_of_evictedSlot (evicted : table.evictedSlot threatAmount = some index) :
    ∃ entry, table.entries.get? index = some entry := by
  unfold evictedSlot at evicted
  have scanned := foldl_keepLowest table.entries.indexed (none, UInt32.ofNat (2 ^ 32 - 1))
  change table.lowestThreat = _ ∨ ∃ slot ∈ _, table.lowestThreat = _ at scanned
  rcases scanned with start | ⟨slot, listed, kept⟩
  · rw [start] at evicted
    cases evicted
  rw [kept] at evicted
  by_cases higher : slot.2.threatPoints < threatAmount
  · simp only [if_pos higher, some.injEq] at evicted
    rw [← evicted]
    exact ⟨slot.2, SlotArray.mem_indexed.mp listed⟩
  simp only [if_neg higher] at evicted
  cases evicted

inductive Added (table after : ThreatTable) (entityId : UInt64) (threatAmount : UInt32) : Prop
  | known (present : entityId ∈ table.ids) (same : after.ids.Perm table.ids)
      (counted : after.count = table.count)
  | entered (absent : entityId ∉ table.ids) (room : table.ids.length < maxThreatEntries)
      (listed : after.ids.Perm (entityId :: table.ids)) (counted : after.count = table.count + 1)
  | exchanged (absent : entityId ∉ table.ids) (full : table.ids.length = maxThreatEntries)
      (index : Nat) (entry : ThreatEntry) (evicted : table.evictedSlot threatAmount = some index)
      (held : table.entries.get? index = some entry) (rest : List UInt64)
      (before : table.ids.Perm (entry.entityId :: rest))
      (listed : after.ids.Perm (entityId :: rest)) (counted : after.count = table.count)
  | refused (absent : entityId ∉ table.ids) (full : table.ids.length = maxThreatEntries)
      (higher : table.evictedSlot threatAmount = none) (same : after = table)

theorem addThreat_added (table : ThreatTable) (entityId : UInt64) (threatAmount : UInt32)
    (isDamage : Bool) (currentTick : UInt64) :
    table.Added (table.addThreat entityId threatAmount isDamage currentTick) entityId
      threatAmount := by
  unfold addThreat
  rcases found : table.entries.findFirst? (fun entry => entry.entityId == entityId) with
    _ | ⟨index, entry⟩
  · have absent := find_none_iff.mp found
    rcases room : table.entries.fillFirst?
        (ThreatEntry.first entityId threatAmount isDamage currentTick) with _ | filled
    · have full : table.ids.length = maxThreatEntries := by
        rw [ids, length_map]
        exact SlotArray.firstEmpty?_eq_none_iff.mp (Option.map_eq_none_iff.mp room)
      rcases evicted : table.evictedSlot threatAmount with _ | index
      · simp only [room]
        exact .refused absent full evicted rfl
      obtain ⟨entry, held⟩ := get?_of_evictedSlot evicted
      obtain ⟨rest, before, listed⟩ := ids_set held
        (some (ThreatEntry.first entityId threatAmount isDamage currentTick))
      rw [map_some, first_entityId] at listed
      simp only [room]
      exact .exchanged absent full index entry evicted held rest before listed rfl
    have free : (table.entries.fillFirst?
        (ThreatEntry.first entityId threatAmount isDamage currentTick)).isSome := by
      rw [room]
      rfl
    have listed := (SlotArray.fillFirst?_entries room).map ThreatEntry.entityId
    rw [map_cons, first_entityId] at listed
    simp only [room]
    refine .entered absent ?_ listed rfl
    rw [ids, length_map]
    exact SlotArray.fillFirst?_isSome_iff.mp free
  obtain ⟨held, named⟩ := find_some found
  obtain ⟨rest, before, listed⟩ := ids_set held
    (some (entry.gain threatAmount isDamage currentTick))
  rw [map_some, gain_entityId] at listed
  refine .known ?_ (listed.trans before.symm) rfl
  rw [before.mem_iff, named]
  exact mem_cons_self

theorem tauntTarget_addThreat (table : ThreatTable) (entityId : UInt64) (threatAmount : UInt32)
    (isDamage : Bool) (currentTick : UInt64) :
    (table.addThreat entityId threatAmount isDamage currentTick).tauntTarget =
      table.tauntTarget := by
  unfold addThreat
  split
  · rfl
  simp only
  split
  · rfl
  split <;> rfl

/-- Every entity has one entry, and the count is right. -/
structure WellFormed (table : ThreatTable) : Prop where
  distinct : table.ids.Nodup
  counted : table.count = table.ids.length

theorem WellFormed.added {after : ThreatTable} (wellFormed : table.WellFormed)
    (added : table.Added after entityId threatAmount) : after.WellFormed := by
  cases added with
  | known present same counted =>
    exact ⟨same.nodup_iff.mpr wellFormed.distinct,
      by rw [counted, wellFormed.counted, same.length_eq]⟩
  | entered absent room listed counted =>
    exact ⟨listed.nodup_iff.mpr (nodup_cons.mpr ⟨absent, wellFormed.distinct⟩),
      by rw [counted, wellFormed.counted, listed.length_eq, length_cons]⟩
  | exchanged absent full index entry evicted held rest before listed counted =>
    have others := nodup_cons.mp (before.nodup_iff.mp wellFormed.distinct)
    have notAmong : entityId ∉ rest :=
      fun among => absent (before.mem_iff.mpr (mem_cons_of_mem _ among))
    exact ⟨listed.nodup_iff.mpr (nodup_cons.mpr ⟨notAmong, others.2⟩),
      by rw [counted, wellFormed.counted, listed.length_eq, before.length_eq,
        length_cons, length_cons]⟩
  | refused absent full higher same =>
    rw [same]
    exact wellFormed

theorem Added.mem_iff {after : ThreatTable} {entityId : UInt64} {threatAmount : UInt32}
    (added : table.Added after entityId threatAmount) :
    entityId ∈ after.ids ↔ entityId ∈ table.ids ∨ table.ids.length < maxThreatEntries ∨
        (table.evictedSlot threatAmount).isSome := by
  cases added with
  | known present same counted => exact iff_of_true (same.mem_iff.mpr present) (.inl present)
  | entered absent room listed counted =>
    exact iff_of_true (listed.mem_iff.mpr mem_cons_self) (.inr (.inl room))
  | exchanged absent full index entry evicted held rest before listed counted =>
    refine iff_of_true (listed.mem_iff.mpr mem_cons_self) (.inr (.inr ?_))
    rw [evicted]
    rfl
  | refused absent full higher same =>
    refine iff_of_false (by rwa [same]) ?_
    rintro (present | room | evicts)
    · exact absent present
    · exact Nat.ne_of_lt room full
    rw [higher] at evicts
    cases evicts

theorem Added.other_mem_iff {after : ThreatTable} (wellFormed : table.WellFormed)
    (added : table.Added after entityId threatAmount) {other : UInt64}
    (present : other ∈ table.ids) :
    other ∈ after.ids ↔ entityId ∈ table.ids ∨ table.ids.length < maxThreatEntries ∨
        ∀ index ∈ table.evictedSlot threatAmount, ∀ entry ∈ table.entries.get? index,
          entry.entityId ≠ other := by
  cases added with
  | known isThere same counted => exact iff_of_true (same.mem_iff.mpr present) (.inl isThere)
  | entered absent room listed counted =>
    exact iff_of_true (listed.mem_iff.mpr (mem_cons_of_mem _ present)) (.inr (.inl room))
  | exchanged absent full index entry evicted held rest before listed counted =>
    have others := nodup_cons.mp (before.nodup_iff.mp wellFormed.distinct)
    have different : other ≠ entityId := by
      rintro rfl
      exact absent present
    rw [listed.mem_iff, mem_cons, or_iff_right different]
    have among := before.mem_iff.mp present
    rw [mem_cons] at among
    constructor
    · intro inRest
      refine .inr (.inr ?_)
      intro place isEvicted found isHeld named
      rw [evicted] at isEvicted
      cases isEvicted
      rw [held] at isHeld
      cases isHeld
      exact others.1 (named ▸ inRest)
    rintro (isThere | room | keeps)
    · exact absurd isThere absent
    · exact absurd full (Nat.ne_of_lt room)
    exact among.resolve_left (Ne.symm (keeps index evicted entry held))
  | refused absent full higher same =>
    rw [same]
    refine iff_of_true present (.inr (.inr ?_))
    intro index isEvicted
    rw [higher] at isEvicted
    cases isEvicted

theorem any_iff : (table.entries.entries.any fun entry => entry.entityId == entityId) = true ↔
      entityId ∈ table.ids := by
  rw [List.any_eq_true, ids, List.mem_map]
  simp only [beq_iff_eq]

theorem WellFormed.applyTaunt (wellFormed : table.WellFormed) (entityId : UInt64)
    (durationTicks currentTick : UInt64) :
    (table.applyTaunt entityId durationTicks currentTick).WellFormed := by
  have present : (if table.entries.entries.any fun entry => entry.entityId == entityId then table
      else table.addThreat entityId 1 false currentTick).WellFormed := by
    split
    · exact wellFormed
    exact wellFormed.added (addThreat_added _ _ _ _ _)
  exact ⟨present.distinct, present.counted⟩

theorem mem_applyTaunt_iff (table : ThreatTable) (entityId durationTicks currentTick : UInt64) :
    entityId ∈ (table.applyTaunt entityId durationTicks currentTick).ids ↔
      entityId ∈ table.ids ∨ table.ids.length < maxThreatEntries ∨
        (table.evictedSlot 1).isSome := by
  change entityId ∈ ids (if table.entries.entries.any fun entry => entry.entityId == entityId
    then table else table.addThreat entityId 1 false currentTick) ↔ _
  by_cases present : entityId ∈ table.ids
  · rw [if_pos (any_iff.mpr present)]
    exact iff_of_true present (.inl present)
  rw [if_neg (fun found => present (any_iff.mp found))]
  exact (addThreat_added table entityId 1 false currentTick).mem_iff

theorem removeEntity_spec (wellFormed : table.WellFormed) (entityId : UInt64) :
    (table.removeEntity entityId).WellFormed ∧ (table.removeEntity entityId).tauntTarget =
        (if table.tauntTarget = some entityId then none else table.tauntTarget) ∧
      ∀ other, other ≠ entityId → other ∈ table.ids →
        other ∈ (table.removeEntity entityId).ids := by
  unfold removeEntity
  rcases found : table.entries.findFirst? (fun entry => entry.entityId == entityId) with
    _ | ⟨index, entry⟩
  · simp only
    split
    · exact ⟨⟨wellFormed.distinct, wellFormed.counted⟩, rfl, fun _ _ listed => listed⟩
    exact ⟨wellFormed, rfl, fun _ _ listed => listed⟩
  obtain ⟨held, named⟩ := find_some found
  obtain ⟨rest, before, listed⟩ := ids_set held none
  rw [map_none, toList_none, nil_append] at listed
  have others := nodup_cons.mp (before.nodup_iff.mp wellFormed.distinct)
  have removed : WellFormed
      { table with
        entries := table.entries.set index none
        count := table.count - 1 } := by
    refine ⟨listed.nodup_iff.mpr others.2, ?_⟩
    change table.count - 1 = List.length (List.map _ _)
    rw [wellFormed.counted, before.length_eq, listed.length_eq, length_cons, Nat.add_sub_cancel]
  have stays : ∀ other, other ≠ entityId → other ∈ table.ids →
      other ∈ (table.entries.set index none).entries.map ThreatEntry.entityId := by
    intro other different isThere
    rw [listed.mem_iff]
    rw [before.mem_iff, named] at isThere
    exact (List.mem_cons.mp isThere).resolve_left different
  simp only
  split
  · exact ⟨⟨removed.distinct, removed.counted⟩, rfl, stays⟩
  exact ⟨removed, rfl, stays⟩

theorem ids_decayThreat (table : ThreatTable) (decayPercent : UInt32) :
    (table.decayThreat decayPercent).ids = table.ids := by
  rw [ids, decayThreat, SlotArray.entries_mapSlots, filterMap_eq_map', List.map_map]
  rfl

theorem entries_decayStaleThreat (table : ThreatTable) (timeoutTicks currentTick : UInt64) :
    (table.decayStaleThreat timeoutTicks currentTick).entries.entries =
      table.entries.entries.filter fun entry => !entry.isStale timeoutTicks currentTick := by
  rw [decayStaleThreat, SlotArray.entries_mapSlots, ← filterMap_eq_filter]
  apply filterMap_congr
  intro entry _
  cases stale : entry.isStale timeoutTicks currentTick <;> simp [Option.guard, stale]

theorem WellFormed.decayStaleThreat (wellFormed : table.WellFormed)
    (timeoutTicks currentTick : UInt64) :
    (table.decayStaleThreat timeoutTicks currentTick).WellFormed := by
  constructor
  · rw [ids, entries_decayStaleThreat]
    exact wellFormed.distinct.sublist (filter_sublist.map _)
  rw [ids, entries_decayStaleThreat, length_map, ← countP_eq_length_filter]
  change table.count - _ = _
  have split := length_eq_countP_add_countP
    (fun entry : ThreatEntry => entry.isStale timeoutTicks currentTick)
    (l := table.entries.entries)
  rw [wellFormed.counted, ids, length_map, split]
  simp only [Bool.not_eq_true, Nat.add_sub_cancel_left]
  congr 1
  funext entry
  cases entry.isStale timeoutTicks currentTick <;> rfl

end ThreatTable

inductive ThreatCall where
  | addThreat (entityId : UInt64) (threatAmount : UInt32) (isDamage : Bool)
      (currentTick : UInt64)
  | applyTaunt (entityId durationTicks currentTick : UInt64)
  | removeEntity (entityId : UInt64)
  | decayThreat (decayPercent : UInt32)
  | decayStaleThreat (timeoutTicks currentTick : UInt64)
  | clear

namespace ThreatTable

def step (table : ThreatTable) : ThreatCall → ThreatTable
  | .addThreat entityId threatAmount isDamage currentTick =>
    table.addThreat entityId threatAmount isDamage currentTick
  | .applyTaunt entityId durationTicks currentTick =>
    table.applyTaunt entityId durationTicks currentTick
  | .removeEntity entityId => table.removeEntity entityId
  | .decayThreat decayPercent => table.decayThreat decayPercent
  | .decayStaleThreat timeoutTicks currentTick => table.decayStaleThreat timeoutTicks currentTick
  | .clear => clear

def TaunterHeld (table : ThreatTable) : Prop :=
  ∀ taunter ∈ table.tauntTarget, taunter ∈ table.ids

/-- The call takes no entry from the entity that taunts: a full table does not give it up or
refuse it one, and it is not stale. -/
def KeepsTaunter (table : ThreatTable) : ThreatCall → Prop
  | .addThreat entityId threatAmount _ _ =>
    ∀ taunter ∈ table.tauntTarget, entityId ∈ table.ids ∨ table.ids.length < maxThreatEntries ∨
        ∀ index ∈ table.evictedSlot threatAmount, ∀ entry ∈ table.entries.get? index,
          entry.entityId ≠ taunter
  | .applyTaunt entityId _ _ =>
    entityId ∈ table.ids ∨ table.ids.length < maxThreatEntries ∨ (table.evictedSlot 1).isSome
  | .decayStaleThreat timeoutTicks currentTick =>
    ∀ taunter ∈ table.tauntTarget, ∀ entry ∈ table.entries.entries,
      entry.entityId = taunter → entry.isStale timeoutTicks currentTick = false
  | _ => True

variable {table : ThreatTable}

theorem wellFormed_new : new.WellFormed := by
  constructor
  · exact nodup_nil
  rfl

theorem WellFormed.step (wellFormed : table.WellFormed) (call : ThreatCall) :
    (table.step call).WellFormed := by
  cases call with
  | addThreat entityId threatAmount isDamage currentTick =>
    exact wellFormed.added (addThreat_added _ _ _ _ _)
  | applyTaunt entityId durationTicks currentTick =>
    exact wellFormed.applyTaunt entityId durationTicks currentTick
  | removeEntity entityId => exact (removeEntity_spec wellFormed entityId).1
  | decayThreat decayPercent =>
    constructor
    · change (table.decayThreat decayPercent).ids.Nodup
      rw [ids_decayThreat]
      exact wellFormed.distinct
    change table.count = (table.decayThreat decayPercent).ids.length
    rw [ids_decayThreat]
    exact wellFormed.counted
  | decayStaleThreat timeoutTicks currentTick =>
    exact wellFormed.decayStaleThreat timeoutTicks currentTick
  | clear => exact wellFormed_new

theorem taunterHeld_step_iff (wellFormed : table.WellFormed) (held : table.TaunterHeld)
    (call : ThreatCall) : (table.step call).TaunterHeld ↔ table.KeepsTaunter call := by
  cases call with
  | addThreat entityId threatAmount isDamage currentTick =>
    have added := addThreat_added table entityId threatAmount isDamage currentTick
    rw [step, TaunterHeld, tauntTarget_addThreat]
    constructor
    · intro stays taunter taunts
      exact (added.other_mem_iff wellFormed (held taunter taunts)).mp (stays taunter taunts)
    intro keeps taunter taunts
    exact (added.other_mem_iff wellFormed (held taunter taunts)).mpr (keeps taunter taunts)
  | applyTaunt entityId durationTicks currentTick =>
    have entered := mem_applyTaunt_iff table entityId durationTicks currentTick
    rw [KeepsTaunter, ← entered]
    constructor
    · intro stays
      exact stays entityId rfl
    intro isThere taunter taunts
    cases taunts
    exact isThere
  | removeEntity entityId =>
    rcases removeEntity_spec wellFormed entityId with ⟨_, taunt, stays⟩
    refine iff_of_true ?_ trivial
    intro taunter taunts
    rw [step, taunt] at taunts
    split at taunts
    · cases taunts
    rename_i different
    refine stays taunter ?_ (held taunter taunts)
    rintro rfl
    exact different taunts
  | decayThreat decayPercent =>
    refine iff_of_true ?_ trivial
    intro taunter taunts
    rw [step, ids_decayThreat]
    exact held taunter taunts
  | decayStaleThreat timeoutTicks currentTick =>
    rw [step, TaunterHeld, ids, entries_decayStaleThreat]
    refine forall₂_congr fun taunter taunts => ?_
    obtain ⟨entry, listed, named⟩ := mem_map.mp (held taunter taunts)
    rw [List.mem_map]
    constructor
    · rintro ⟨fresh, isFresh, sameName⟩ other otherListed otherNamed
      rcases mem_filter.mp isFresh with ⟨freshListed, notStale⟩
      have same := inj_on_of_nodup_map wellFormed.distinct otherListed freshListed
        (otherNamed.trans sameName.symm)
      rw [same]
      simpa using notStale
    intro notStale
    refine ⟨entry, mem_filter.mpr ⟨listed, ?_⟩, named⟩
    rw [notStale entry listed named]
    rfl
  | clear =>
    refine iff_of_true ?_ trivial
    intro taunter taunts
    cases taunts

/-- The threshold as a share of the threat: 110 or 130 percent, rounded down. -/
def requiredThreat (isMelee : Bool) (currentThreat : UInt32) : Nat :=
  currentThreat.toNat * (if isMelee then 11 else 13) / 10

/-- What the selection of a target should do. -/
structure SelectsSoundly (table : ThreatTable) (currentTarget : Option UInt64) (isMelee : Bool)
    (currentTick : UInt64) : Prop where
  none_iff : table.selectTarget currentTarget isMelee currentTick = none ↔ table.ids = []
  held : ∀ target ∈ table.selectTarget currentTarget isMelee currentTick, target ∈ table.ids
  moves : ∀ entry ∈ table.entries.entries, currentTarget = some entry.entityId →
    table.selectTarget currentTarget isMelee currentTick ≠ some entry.entityId →
    (∃ taunter, table.activeTaunt currentTick = some taunter ∧ taunter ≠ entry.entityId) ∨
      ∃ top ∈ table.entries.entries,
        requiredThreat isMelee entry.threatPoints ≤ top.threatPoints.toNat

/-- An active taunt is that of an entity in the table, and where there is none, the highest
threat is not between the threshold cut off at 32 bits and the threshold. -/
structure Undisturbed (table : ThreatTable) (currentTarget : Option UInt64) (isMelee : Bool)
    (currentTick : UInt64) : Prop where
  taunter : ∀ taunter ∈ table.activeTaunt currentTick, taunter ∈ table.ids
  threshold : table.activeTaunt currentTick = none →
    ∀ entry ∈ table.entries.entries, currentTarget = some entry.entityId →
      ∀ top ∈ table.topEntry, top.entityId ≠ entry.entityId →
        hysteresisThreshold isMelee entry.threatPoints ≤ top.threatPoints →
        requiredThreat isMelee entry.threatPoints ≤ top.threatPoints.toNat

theorem exists_topEntry (nonempty : table.entries.entries ≠ []) :
    ∃ top, table.topEntry = some top ∧ top ∈ table.entries.entries ∧
      ∀ entry ∈ table.entries.entries, entry.threatPoints ≤ top.threatPoints := by
  have decided : table.entries.entries.Pairwise
      (Decides (fun entry top => decide (top.threatPoints < entry.threatPoints))
        fun first second => second.threatPoints ≤ first.threatPoints) := by
    refine pairwise_of_forall fun earlier later => ?_
    unfold Decides
    by_cases lower : earlier.threatPoints < later.threatPoints
    · rw [if_pos (decide_eq_true lower)]
      exact UInt32.le_of_lt lower
    rw [if_neg (by simpa using lower)]
    exact UInt32.not_lt.mp lower
  exact @firstBest_spec _ _ (fun first second => second.threatPoints ≤ first.threatPoints)
    (fun _ => UInt32.le_refl _) (fun _ _ _ first second => UInt32.le_trans second first) _
    decided nonempty

theorem topEntry_eq_none_iff : table.topEntry = none ↔ table.entries.entries = [] := by
  constructor
  · intro missing
    apply Decidable.of_not_not
    intro nonempty
    obtain ⟨top, isTop, _⟩ := exists_topEntry nonempty
    rw [missing] at isTop
    cases isTop
  intro isEmpty
  rw [topEntry, isEmpty]
  rfl

variable {top : ThreatEntry}

theorem topEntry_spec (isTop : table.topEntry = some top) : top ∈ table.entries.entries ∧
      ∀ entry ∈ table.entries.entries, entry.threatPoints ≤ top.threatPoints := by
  have nonempty : table.entries.entries ≠ [] := by
    intro isEmpty
    rw [topEntry_eq_none_iff.mpr isEmpty] at isTop
    cases isTop
  obtain ⟨other, isOther, spec⟩ := exists_topEntry nonempty
  rw [isTop] at isOther
  cases isOther
  exact spec

theorem ids_eq_nil_iff : table.ids = [] ↔ table.entries.entries = [] :=
  map_eq_nil_iff

theorem mem_ids_of_entry {entry : ThreatEntry} (listed : entry ∈ table.entries.entries) :
    entry.entityId ∈ table.ids :=
  mem_map_of_mem listed

variable {currentTick : UInt64}

/-- The target of an NPC that no one taunts: the top of the table, or the current target when
the top does not reach its threshold. -/
theorem selectTarget_of_noTaunt (wellFormed : table.WellFormed) (currentTarget : Option UInt64)
    (isMelee : Bool) (noTaunt : table.activeTaunt currentTick = none)
    (isTop : table.topEntry = some top) :
    (table.selectTarget currentTarget isMelee currentTick = some top.entityId ∧
        ∀ entry ∈ table.entries.entries, currentTarget = some entry.entityId →
          top.entityId ≠ entry.entityId →
          hysteresisThreshold isMelee entry.threatPoints ≤ top.threatPoints) ∨
      ∃ entry ∈ table.entries.entries, currentTarget = some entry.entityId ∧
        top.entityId ≠ entry.entityId ∧
        ¬ hysteresisThreshold isMelee entry.threatPoints ≤ top.threatPoints ∧
        table.selectTarget currentTarget isMelee currentTick = some entry.entityId := by
  have chosen : table.getTopThreat = some (top.entityId, top.threatPoints) := by
    rw [getTopThreat, isTop]
    rfl
  rcases currentTarget with _ | currId
  · left
    refine ⟨?_, fun entry _ isCurrent => absurd isCurrent.symm (some_ne_none _)⟩
    simp only [selectTarget, noTaunt, chosen]
  by_cases same : currId = top.entityId
  · left
    refine ⟨?_, ?_⟩
    · simp only [selectTarget, noTaunt, chosen, if_pos same]
      rw [same]
    intro entry _ isCurrent different
    cases isCurrent
    exact absurd same.symm different
  rcases found : KeyedList.find ThreatEntry.entityId table.entries.entries currId with
    _ | current
  · left
    refine ⟨?_, ?_⟩
    · simp only [selectTarget, noTaunt, chosen, if_neg same, threatOf, found, map_none]
    intro entry listed isCurrent _
    cases isCurrent
    exact absurd rfl (KeyedList.find_eq_none_iff.mp found entry listed)
  have named := KeyedList.key_of_find found
  have listed := KeyedList.mem_of_find found
  by_cases reached : hysteresisThreshold isMelee current.threatPoints ≤ top.threatPoints
  · left
    refine ⟨?_, ?_⟩
    · simp only [selectTarget, noTaunt, chosen, if_neg same, threatOf, found,
        map_some, if_pos reached]
    intro entry entryListed isCurrent _
    cases isCurrent
    have isEntry := (KeyedList.find_eq_some_iff wellFormed.distinct).mpr ⟨entryListed, rfl⟩
    rw [found] at isEntry
    cases isEntry
    exact reached
  right
  refine ⟨current, listed, by rw [named], ?_, reached, ?_⟩
  · rw [named]
    exact Ne.symm same
  simp only [selectTarget, noTaunt, chosen, if_neg same, threatOf, found,
    map_some, if_neg reached, named]

variable {currentTarget : Option UInt64} {isMelee : Bool}

theorem selectTarget_of_taunt {taunter : UInt64}
    (taunts : table.activeTaunt currentTick = some taunter) :
    table.selectTarget currentTarget isMelee currentTick = some taunter := by
  simp only [selectTarget, taunts]

theorem selectTarget_of_empty (noTaunt : table.activeTaunt currentTick = none)
    (isEmpty : table.topEntry = none) :
    table.selectTarget currentTarget isMelee currentTick = none := by
  simp only [selectTarget, noTaunt, getTopThreat, isEmpty, map_none]

theorem selectsSoundly_of_taunt {taunter : UInt64}
    (taunts : table.activeTaunt currentTick = some taunter) :
    table.SelectsSoundly currentTarget isMelee currentTick ↔ taunter ∈ table.ids := by
  have selected : table.selectTarget currentTarget isMelee currentTick = some taunter :=
    selectTarget_of_taunt taunts
  constructor
  · intro sound
    exact sound.held taunter selected
  intro isThere
  refine ⟨?_, ?_, ?_⟩
  · rw [selected]
    refine iff_of_false (some_ne_none _) ?_
    intro isEmpty
    rw [isEmpty] at isThere
    cases isThere
  · intro target isTarget
    rw [selected] at isTarget
    cases isTarget
    exact isThere
  intro entry _ _ moves
  refine .inl ⟨taunter, taunts, ?_⟩
  rintro rfl
  exact moves selected

theorem selectsSoundly_of_noTaunt (wellFormed : table.WellFormed)
    (noTaunt : table.activeTaunt currentTick = none) (isTop : table.topEntry = some top) :
    table.SelectsSoundly currentTarget isMelee currentTick ↔
      ∀ entry ∈ table.entries.entries, currentTarget = some entry.entityId →
        top.entityId ≠ entry.entityId →
        hysteresisThreshold isMelee entry.threatPoints ≤ top.threatPoints →
        requiredThreat isMelee entry.threatPoints ≤ top.threatPoints.toNat := by
  rcases topEntry_spec isTop with ⟨topListed, highest⟩
  have nonempty : table.ids ≠ [] := ne_nil_of_mem (mem_ids_of_entry topListed)
  rcases selectTarget_of_noTaunt wellFormed currentTarget isMelee noTaunt isTop with
    ⟨selected, reaches⟩ | ⟨current, listed, isCurrent, different, below, selected⟩
  · constructor
    · intro sound entry listed isCurrent different _
      have moves : table.selectTarget currentTarget isMelee currentTick ≠ some entry.entityId := by
        rw [selected]
        exact fun same => different (some.inj same)
      rcases sound.moves entry listed isCurrent moves with ⟨taunter, taunts, _⟩ |
        ⟨other, otherListed, required⟩
      · rw [noTaunt] at taunts
        cases taunts
      exact Nat.le_trans required (UInt32.le_iff_toNat_le.mp (highest other otherListed))
    intro threshold
    refine ⟨?_, ?_, ?_⟩
    · rw [selected]
      exact iff_of_false (some_ne_none _) nonempty
    · intro target isTarget
      rw [selected] at isTarget
      cases isTarget
      exact mem_ids_of_entry topListed
    intro entry entryListed isCurrent moves
    have different : top.entityId ≠ entry.entityId := by
      intro same
      rw [selected, same] at moves
      exact moves rfl
    exact .inr ⟨top, topListed, threshold entry entryListed isCurrent different
      (reaches entry entryListed isCurrent different)⟩
  -- The current target stays, so that nothing is asked of the threshold.
  refine iff_of_true ⟨?_, ?_, ?_⟩ ?_
  · rw [selected]
    exact iff_of_false (some_ne_none _) nonempty
  · intro target isTarget
    rw [selected] at isTarget
    cases isTarget
    exact mem_ids_of_entry listed
  · intro entry _ isEntry moves
    rw [selected] at moves
    exact absurd (isCurrent.symm.trans isEntry) moves
  intro entry entryListed isEntry _ reached
  have same : entry = current := inj_on_of_nodup_map wellFormed.distinct entryListed
    listed (some.inj (isEntry.symm.trans isCurrent))
  rw [same] at reached
  exact absurd reached below

theorem selectsSoundly_iff (wellFormed : table.WellFormed) (currentTarget : Option UInt64)
    (isMelee : Bool) (currentTick : UInt64) :
    table.SelectsSoundly currentTarget isMelee currentTick ↔
      table.Undisturbed currentTarget isMelee currentTick := by
  rcases taunts : table.activeTaunt currentTick with _ | taunter
  · have noTaunter : ∀ taunter ∈ table.activeTaunt currentTick, taunter ∈ table.ids := by
      intro taunter isTaunter
      rw [taunts] at isTaunter
      cases isTaunter
    rcases isTop : table.topEntry with _ | top
    · have selected : table.selectTarget currentTarget isMelee currentTick = none :=
        selectTarget_of_empty taunts isTop
      have isEmpty := topEntry_eq_none_iff.mp isTop
      refine iff_of_true ⟨?_, ?_, ?_⟩ ⟨noTaunter, ?_⟩
      · rw [selected, ids_eq_nil_iff]
        exact iff_of_true rfl isEmpty
      · intro target isTarget
        rw [selected] at isTarget
        cases isTarget
      · intro entry listed
        rw [isEmpty] at listed
        cases listed
      intro _ entry listed
      rw [isEmpty] at listed
      cases listed
    rw [selectsSoundly_of_noTaunt wellFormed taunts isTop]
    constructor
    · intro threshold
      refine ⟨noTaunter, ?_⟩
      intro _ entry listed isCurrent other isOther
      rw [isTop] at isOther
      cases isOther
      exact threshold entry listed isCurrent
    intro undisturbed entry listed isCurrent
    exact undisturbed.threshold taunts entry listed isCurrent top isTop
  rw [selectsSoundly_of_taunt taunts]
  constructor
  · intro isThere
    refine ⟨?_, ?_⟩
    · intro other isOther
      rw [taunts] at isOther
      cases isOther
      exact isThere
    intro noTaunt
    rw [taunts] at noTaunt
    cases noTaunt
  intro undisturbed
  exact undisturbed.taunter taunter taunts

theorem wellFormed_run (calls : List ThreatCall) : (run step new calls).WellFormed :=
  (throughout_of_preserved (fun _ call wellFormed => wellFormed.step call) wellFormed_new calls).run

theorem taunterHeld_throughout_iff (calls : List ThreatCall) :
    Throughout step TaunterHeld new calls ↔ EachStep step KeepsTaunter new calls := by
  have preserved : ∀ (table : ThreatTable) call, table.WellFormed → table.TaunterHeld →
      (table.step call).WellFormed := fun _ call wellFormed _ => wellFormed.step call
  have exactly : ∀ (table : ThreatTable) call, table.WellFormed → table.TaunterHeld →
      ((table.step call).TaunterHeld ↔ table.KeepsTaunter call) :=
    fun _ call wellFormed held => taunterHeld_step_iff wellFormed held call
  refine throughout_iff_eachStep preserved exactly wellFormed_new ?_ calls
  intro taunter taunts
  cases taunts

/-- In every table reached the entities are distinct and counted, and a target is selected
soundly exactly when no taunt is left behind and the threshold is not cut off.  No taunt is
left behind in a run exactly when no call takes the entry of the entity that taunts. -/
theorem selects_iff (calls : List ThreatCall) : (run step new calls).WellFormed ∧
      (∀ currentTarget isMelee currentTick,
        (run step new calls).SelectsSoundly currentTarget isMelee currentTick ↔
          (run step new calls).Undisturbed currentTarget isMelee currentTick) ∧
      (Throughout step TaunterHeld new calls ↔ EachStep step KeepsTaunter new calls) :=
  ⟨wellFormed_run calls, selectsSoundly_iff (wellFormed_run calls),
    taunterHeld_throughout_iff calls⟩

/-- Sixteen combatants fill the table, and another one taunts. -/
def seventeenth : List ThreatCall :=
  ((List.range 16).map fun index => .addThreat (UInt64.ofNat index) 10 true 1) ++
    [.applyTaunt 99 5 1]

/-- The target is an entity that has no entry. -/
theorem not_selectsSoundly_seventeenth :
    ¬ (run step new seventeenth).SelectsSoundly (some 0) true 3 :=
  fun sound => absurd (sound.held 99 (by decide)) (by decide)

end ThreatTable

end Eidolon.World
