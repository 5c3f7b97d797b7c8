import Eidolon.Core.Fixed
import Eidolon.Library.KeyedList
import Eidolon.Library.MachineInt
import Eidolon.Library.SlotArray

/-!
# Abilities

The built-in abilities, the progress of a cast, and the cooldowns of an entity in sixteen
slots.
-/

namespace Eidolon.World

open Core Library List

/-- Where an ability takes effect; the angle of a cone is in degrees. -/
inductive AbilityShape where
  | singleTarget (maxRange : Fixed64)
  | radiusSphere (radius : Fixed64)
  | forwardCone (halfAngleDeg : Nat) (maxDistance maxHeight : Fixed64)
  | forwardBox (length width height : Fixed64)
  deriving DecidableEq

structure AbilityDefinition where
  abilityId : UInt32
  castDurationTicks : UInt32
  cooldownTicks : UInt32
  resourceCost : UInt32
  baseDamage : UInt32
  baseHeal : UInt32
  shape : AbilityShape
  allowMovement : Bool
  deriving DecidableEq

def getAbilityDefinition (abilityId : UInt32) : Option AbilityDefinition :=
  match abilityId.toNat with
  -- Fireball
  | 1 => some
      { abilityId := 1
        castDurationTicks := 20
        cooldownTicks := 40
        resourceCost := 25
        baseDamage := 60
        baseHeal := 0
        shape := .singleTarget (Fixed64.fromI32 20)
        allowMovement := false }
  -- Arcane Cleave
  | 2 => some
      { abilityId := 2
        castDurationTicks := 0
        cooldownTicks := 30
        resourceCost := 15
        baseDamage := 40
        baseHeal := 0
        shape := .forwardCone 45 (Fixed64.fromI32 8) (Fixed64.fromI32 3)
        allowMovement := true }
  -- Healing Light
  | 3 => some
      { abilityId := 3
        castDurationTicks := 30
        cooldownTicks := 60
        resourceCost := 30
        baseDamage := 0
        baseHeal := 80
        shape := .singleTarget (Fixed64.fromI32 25)
        allowMovement := false }
  -- Frost Nova
  | 4 => some
      { abilityId := 4
        castDurationTicks := 0
        cooldownTicks := 100
        resourceCost := 35
        baseDamage := 35
        baseHeal := 0
        shape := .radiusSphere (Fixed64.fromI32 10)
        allowMovement := true }
  -- Whirlwind
  | 5 => some
      { abilityId := 5
        castDurationTicks := 20
        cooldownTicks := 30
        resourceCost := 20
        baseDamage := 50
        baseHeal := 0
        shape := .radiusSphere (Fixed64.fromI32 6)
        allowMovement := true }
  | _ => none

def abilityIds : List UInt32 :=
  [1, 2, 3, 4, 5]

theorem abilityId_of_defined {abilityId : UInt32} {definition : AbilityDefinition}
    (defined : getAbilityDefinition abilityId = some definition) :
    definition.abilityId = abilityId ∧ abilityId ∈ abilityIds := by
  have named : ∀ small : UInt32, small ∈ abilityIds → abilityId.toNat = small.toNat →
      small = abilityId ∧ abilityId ∈ abilityIds := by
    intro small listed same
    rw [UInt32.toNat_inj.mp same]
    exact ⟨rfl, listed⟩
  unfold getAbilityDefinition at defined
  split at defined
  · cases defined
    exact named 1 (by decide) ‹_›
  · cases defined
    exact named 2 (by decide) ‹_›
  · cases defined
    exact named 3 (by decide) ‹_›
  · cases defined
    exact named 4 (by decide) ‹_›
  · cases defined
    exact named 5 (by decide) ‹_›
  cases defined

inductive CastState where
  | idle
  | casting (abilityId targetId : UInt32) (startTick : UInt64) (durationTicks : UInt32)
      (startPos : Vec3Fix) (allowMovement : Bool)
  deriving DecidableEq

namespace CastState

def startCast (abilityId targetId : UInt32) (currentTick : UInt64) (durationTicks : UInt32)
    (startPos : Vec3Fix) (allowMovement : Bool) : CastState :=
  .casting abilityId targetId currentTick durationTicks startPos allowMovement

end CastState

def maxCooldownsPerEntity : Nat := 16

structure CooldownTracker where
  entries : SlotArray maxCooldownsPerEntity (UInt32 × UInt64)
  deriving DecidableEq

namespace CooldownTracker

def new : CooldownTracker where
  entries := SlotArray.empty _ _

variable (tracker : CooldownTracker) (abilityId : UInt32)

def readyAt : Option UInt64 :=
  (KeyedList.find Prod.fst tracker.entries.entries abilityId).map Prod.snd

variable (currentTick : UInt64)

def isReady : Bool :=
  match tracker.readyAt abilityId with
  | some readyTick => decide (readyTick ≤ currentTick)
  | none => true

def remainingTicks :
    UInt32 :=
  match tracker.readyAt abilityId with
  | some readyTick => (saturatingSub64 readyTick currentTick).toUInt32
  | none => 0

/-- Starts a cooldown: in the slot of the ability, else in an empty slot, else in one that
is over, else in the first. -/
def trigger (cooldownTicks : UInt32) :
    CooldownTracker :=
  let entry := (abilityId, currentTick + cooldownTicks.toUInt64)
  match tracker.entries.findFirst? fun held => decide (held.1 = abilityId) with
  | some (index, _) => { entries := tracker.entries.set index (some entry) }
  | none =>
    match tracker.entries.fillFirst? entry with
    | some filled => { entries := filled }
    | none =>
      match tracker.entries.findFirst? fun held => decide (held.2 ≤ currentTick) with
      | some (index, _) => { entries := tracker.entries.set index (some entry) }
      | none => { entries := tracker.entries.set 0 (some entry) }

structure Saturated (tracker : CooldownTracker) (currentTick : UInt64) : Prop where
  full : tracker.entries.entries.length = maxCooldownsPerEntity
  active : ∀ entry ∈ tracker.entries.entries, currentTick < entry.2

/-- What a trigger may find in the slot it takes: nothing, the ability, or when no slot is
empty a cooldown that is over, or what the first slot holds when none is. -/
def Yields (tracker : CooldownTracker) (abilityId : UInt32) (currentTick : UInt64) :
    Option (UInt32 × UInt64) → Prop
  | none => tracker.entries.entries.length < maxCooldownsPerEntity
  | some entry =>
    entry.1 = abilityId ∨ tracker.entries.entries.length = maxCooldownsPerEntity ∧
        (entry.2 ≤ currentTick ∨
          tracker.Saturated currentTick ∧ tracker.entries.get? 0 = some entry)

theorem trigger_perm (cooldownTicks : UInt32) :
    ∃ (old : Option (UInt32 × UInt64)) (rest : List (UInt32 × UInt64)),
      tracker.entries.entries.Perm (old.toList ++ rest) ∧
      tracker.Yields abilityId currentTick old ∧
      ((∃ entry ∈ old, entry.1 = abilityId) ∨
        ∀ entry ∈ tracker.entries.entries, entry.1 ≠ abilityId) ∧
      (tracker.trigger abilityId currentTick cooldownTicks).entries.entries.Perm
        ((abilityId, currentTick + cooldownTicks.toUInt64) :: rest) := by
  rcases found : tracker.entries.findFirst? (fun held => decide (held.1 = abilityId)) with
    _ | ⟨index, old⟩
  · have others : ∀ entry ∈ tracker.entries.entries, entry.1 ≠ abilityId :=
      fun entry here => of_decide_eq_false (SlotArray.findFirst?_eq_none_iff.mp found entry here)
    rcases room : tracker.entries.fillFirst?
        (abilityId, currentTick + cooldownTicks.toUInt64) with _ | filled
    · have occupied := SlotArray.firstEmpty?_eq_none_iff_get?.mp (Option.map_eq_none_iff.mp room)
      have full : tracker.entries.entries.length = maxCooldownsPerEntity := by
        refine Nat.le_antisymm tracker.entries.entries_length_le (Nat.le_of_not_lt ?_)
        intro free
        rw [← Option.not_isSome_iff_eq_none] at room
        exact room (SlotArray.fillFirst?_isSome_iff.mpr free)
      rcases passed : tracker.entries.findFirst? (fun held => decide (held.2 ≤ currentTick)) with
        _ | ⟨index, old⟩
      · have saturated : tracker.Saturated currentTick := by
          refine ⟨full, ?_⟩
          intro entry here
          exact UInt64.not_le.mp
            (of_decide_eq_false (SlotArray.findFirst?_eq_none_iff.mp passed entry here))
        obtain ⟨first, held⟩ :=
          Option.ne_none_iff_exists'.mp (occupied 0 (by decide))
        obtain ⟨rest, whole, written⟩ :=
          tracker.entries.exists_rest (SlotArray.lt_of_get? held)
        rw [held] at whole
        refine ⟨some first, rest, whole, Or.inr ⟨full, Or.inr ⟨saturated, held⟩⟩, Or.inr others, ?_⟩
        simp only [trigger, found, room, passed]
        exact written _
      obtain ⟨held, isOver, _⟩ := SlotArray.findFirst?_eq_some passed
      obtain ⟨rest, whole, written⟩ :=
        tracker.entries.exists_rest (SlotArray.lt_of_get? held)
      rw [held] at whole
      refine ⟨some old, rest, whole, Or.inr ⟨full, Or.inl (of_decide_eq_true isOver)⟩,
        Or.inr others, ?_⟩
      simp only [trigger, found, room, passed]
      exact written _
    refine ⟨none, tracker.entries.entries, List.Perm.refl _, ?_, Or.inr others, ?_⟩
    · exact SlotArray.fillFirst?_isSome_iff.mp (Option.isSome_iff_exists.mpr ⟨filled, room⟩)
    simp only [trigger, found, room]
    exact SlotArray.fillFirst?_entries room
  obtain ⟨held, isAbility, _⟩ := SlotArray.findFirst?_eq_some found
  obtain ⟨rest, whole, written⟩ := tracker.entries.exists_rest (SlotArray.lt_of_get? held)
  rw [held] at whole
  have oldNamed : old.1 = abilityId := of_decide_eq_true isAbility
  refine ⟨some old, rest, whole, Or.inl oldNamed, Or.inl ⟨old, rfl, oldNamed⟩, ?_⟩
  simp only [trigger, found]
  exact written _

variable {abilityId : UInt32}

theorem rest_ne {old : Option (UInt32 × UInt64)} {rest : List (UInt32 × UInt64)}
    (distinct : (tracker.entries.entries.map Prod.fst).Nodup)
    (whole : tracker.entries.entries.Perm (old.toList ++ rest))
    (named : (∃ entry ∈ old, entry.1 = abilityId) ∨
      ∀ entry ∈ tracker.entries.entries, entry.1 ≠ abilityId) :
    ∀ entry ∈ rest, entry.1 ≠ abilityId := by
  intro entry here same
  rcases named with ⟨oldEntry, isOld, oldNamed⟩ | others
  · rw [Option.mem_def.mp isOld] at whole
    have apart := (whole.map Prod.fst).nodup_iff.mp distinct
    have once := (List.nodup_cons.mp apart).1
    rw [oldNamed, ← same] at once
    exact once (List.mem_map_of_mem here)
  exact others entry (whole.mem_iff.mpr (mem_append_right _ here)) same

structure Sorted (tracker : CooldownTracker) : Prop where
  distinct : (tracker.entries.entries.map Prod.fst).Nodup
  defined : ∀ entry ∈ tracker.entries.entries, entry.1 ∈ abilityIds

theorem sorted_new : new.Sorted := by
  refine ⟨?_, ?_⟩
  · exact nodup_nil
  exact fun entry here => absurd here not_mem_nil

variable {tracker : CooldownTracker}

theorem Sorted.length_lt (sorted : tracker.Sorted) :
    tracker.entries.entries.length < maxCooldownsPerEntity := by
  have fewer : (tracker.entries.entries.map Prod.fst).length ≤ abilityIds.length := by
    apply (subperm_of_subset sorted.distinct ?_).length_le
    intro abilityId listed
    obtain ⟨entry, here, rfl⟩ := List.mem_map.mp listed
    exact sorted.defined entry here
  rw [length_map] at fewer
  exact Nat.lt_of_le_of_lt fewer (by decide)

theorem Sorted.trigger_perm (sorted : tracker.Sorted) (abilityId : UInt32) (currentTick : UInt64)
    (cooldownTicks : UInt32) :
    ∃ (old : Option (UInt32 × UInt64)) (rest : List (UInt32 × UInt64)),
      tracker.entries.entries.Perm (old.toList ++ rest) ∧
      (∀ entry ∈ old, entry.1 = abilityId) ∧ (∀ entry ∈ rest, entry.1 ≠ abilityId) ∧
      (tracker.trigger abilityId currentTick cooldownTicks).entries.entries.Perm
        ((abilityId, currentTick + cooldownTicks.toUInt64) :: rest) := by
  obtain ⟨old, rest, whole, yields, named, changed⟩ :=
    tracker.trigger_perm abilityId currentTick cooldownTicks
  have oldNamed : ∀ entry ∈ old, entry.1 = abilityId := by
    intro entry isOld
    cases Option.mem_def.mp isOld
    rcases yields with same | ⟨full, _⟩
    · exact same
    exact absurd full (Nat.ne_of_lt sorted.length_lt)
  refine ⟨old, rest, whole, oldNamed, ?_, changed⟩
  exact tracker.rest_ne sorted.distinct whole named

theorem Sorted.trigger (sorted : tracker.Sorted) (defined : abilityId ∈ abilityIds)
    (currentTick : UInt64) (cooldownTicks : UInt32) :
    (tracker.trigger abilityId currentTick cooldownTicks).Sorted := by
  obtain ⟨old, rest, whole, _, others, changed⟩ :=
    sorted.trigger_perm abilityId currentTick cooldownTicks
  have distinct := (whole.map Prod.fst).nodup_iff.mp sorted.distinct
  refine ⟨?_, ?_⟩
  · rw [(changed.map Prod.fst).nodup_iff, map_cons, nodup_cons]
    refine ⟨?_, ?_⟩
    · intro listed
      obtain ⟨entry, here, same⟩ := List.mem_map.mp listed
      exact others entry here same
    rw [map_append] at distinct
    exact distinct.of_append_right
  intro entry here
  rcases List.mem_cons.mp (changed.mem_iff.mp here) with isNew | stays
  · rw [isNew]
    exact defined
  exact sorted.defined entry (whole.mem_iff.mpr (mem_append_right _ stays))

theorem Sorted.readyAt_trigger (sorted : tracker.Sorted) (defined : abilityId ∈ abilityIds)
    (currentTick : UInt64) (cooldownTicks : UInt32) (other : UInt32) :
    (tracker.trigger abilityId currentTick cooldownTicks).readyAt other =
      if other = abilityId then some (currentTick + cooldownTicks.toUInt64)
      else tracker.readyAt other := by
  obtain ⟨old, rest, whole, oldNamed, _, changed⟩ :=
    sorted.trigger_perm abilityId currentTick cooldownTicks
  have distinct := (sorted.trigger defined currentTick cooldownTicks).distinct
  rw [readyAt, KeyedList.find_perm distinct changed, KeyedList.find_cons]
  by_cases same : other = abilityId
  · rw [if_pos same.symm, if_pos same]
    rfl
  rw [if_neg (Ne.symm same), if_neg same, readyAt, KeyedList.find_perm sorted.distinct whole]
  rcases old with _ | entry
  · rfl
  have apart : entry.1 ≠ other := fun isOther => same (isOther ▸ oldNamed entry rfl)
  rw [Option.toList_some, singleton_append, KeyedList.find_cons, if_neg apart]

end CooldownTracker

end Eidolon.World
