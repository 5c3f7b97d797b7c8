import Eidolon.Library.Episodes
import Eidolon.Server.CastSheets

/-!
# The lifecycle of a cast

A cast that is begun is interrupted or completed, once, before the next one is begun, and
what takes time takes effect no earlier than that.  The server does not look whether a
caster is casting already, so the first of these holds exactly in the runs in which nobody
asks for another cast in the meantime.
-/

namespace Eidolon.Server

open Core Library List Net World

variable {Peer : Type}

def CastEvent.mark : CastEvent → Mark UInt32
  | .started abilityId _ => .start abilityId
  | .interrupted abilityId _ => .stop abilityId
  | .completed abilityId => .stop abilityId

variable (casts : List (UInt64 × CastEvent))

def marks : List (UInt64 × Mark UInt32) :=
  casts.map fun told => (told.1, told.2.mark)

def StartedBefore (abilityId : UInt32) (time : UInt64) (durationTicks : UInt32) : Prop :=
  ∃ before start between, marks casts = before ++ (start, .start abilityId) :: between ∧
    (∀ mark ∈ between, mark.2.isStart = false ∧ mark.2.stops abilityId = false) ∧
    start.toNat + durationTicks.toNat ≤ time.toNat

def Prepared : Prop :=
  ∀ before time abilityId after definition,
    casts = before ++ (time, .completed abilityId) :: after →
    getAbilityDefinition abilityId = some definition → definition.castDurationTicks ≠ 0 →
    StartedBefore before abilityId time definition.castDurationTicks

theorem marks_snoc (time : UInt64) (event : CastEvent) :
    marks (casts ++ [(time, event)]) = marks casts ++ [(time, event.mark)] := by
  rw [marks, map_append]
  rfl

theorem prepared_nil : Prepared [] := by
  intro before time abilityId after definition split
  exact absurd split.symm (by simp)

theorem Prepared.snoc {casts : List (UInt64 × CastEvent)} (prepared : Prepared casts)
    {time : UInt64} {event : CastEvent}
    (now : ∀ abilityId definition, event = .completed abilityId →
      getAbilityDefinition abilityId = some definition → definition.castDurationTicks ≠ 0 →
      StartedBefore casts abilityId time definition.castDurationTicks) :
    Prepared (casts ++ [(time, event)]) := by
  intro before at' abilityId after definition split defined lasting
  rcases Episodic.snoc_eq_append_cons split with ⟨_, isLast, same⟩ | ⟨shorter, _, same⟩
  · cases isLast
    rw [← same]
    exact now abilityId definition rfl defined lasting
  exact prepared before at' abilityId shorter definition same defined lasting

def chargeOf (told : UInt64 × CastEvent) : Option (UInt64 × AbilityDefinition) :=
  match told.2 with
  | .started abilityId _ => (getAbilityDefinition abilityId).map fun definition =>
    (told.1, definition)
  | .interrupted _ _ => none
  | .completed abilityId => (getAbilityDefinition abilityId).bind fun definition =>
    if definition.castDurationTicks = 0 then some (told.1, definition) else none

def running : CastState → Option (UInt32 × UInt64)
  | .idle => none
  | .casting abilityId _ startTick _ _ _ => some (abilityId, startTick)

namespace Sheet

/-- The cast on a sheet is the one that was started and not ended.  An ability that is due
is over, but that has not been told yet. -/
structure Tracked (now : UInt64) (due : Option UInt32) (sheet : Sheet) : Prop where
  prepared : Prepared sheet.casts
  absent : sheet.standing = none → sheet.casts = []
  lasting : ∀ time abilityId durationTicks, (time, .started abilityId durationTicks) ∈ sheet.casts →
    ∃ definition, getAbilityDefinition abilityId = some definition ∧
      definition.castDurationTicks ≠ 0
  current : due = none → ∀ standing ∈ sheet.standing,
    Episodic.current (marks sheet.casts) = running standing.castState
  isOver : ∀ abilityId ∈ due, ∃ standing, sheet.standing = some standing ∧
    standing.castState = .idle ∧
    ∃ start definition, Episodic.current (marks sheet.casts) = some (abilityId, start) ∧
      getAbilityDefinition abilityId = some definition ∧ definition.castDurationTicks ≠ 0 ∧
      start.toNat + definition.castDurationTicks.toNat ≤ now.toNat
  begun : ∀ standing ∈ sheet.standing,
    ∀ abilityId targetId startTick durationTicks startPos allowMovement,
      standing.castState =
        .casting abilityId targetId startTick durationTicks startPos allowMovement →
      ∃ definition, getAbilityDefinition abilityId = some definition ∧
        definition.castDurationTicks = durationTicks ∧ durationTicks ≠ 0 ∧
        startTick.toNat + durationTicks.toNat < 2 ^ 64
  sorted : ∀ standing ∈ sheet.standing, standing.resources.cooldowns.Sorted

structure Keeps (before after : Sheet) : Prop where
  episodes : Episodic (marks before.casts) → Episodic (marks after.casts)
  told : ∃ new, after.casts = before.casts ++ new ∧ new.filterMap chargeOf = []
  resources : after.standing.map Standing.resources = before.standing.map Standing.resources

theorem Keeps.refl (sheet : Sheet) : sheet.Keeps sheet where
  episodes := id
  told := ⟨[], (append_nil _).symm, rfl⟩
  resources := rfl

theorem Keeps.trans {before middle after : Sheet} (first : before.Keeps middle)
    (second : middle.Keeps after) : before.Keeps after := by
  refine ⟨fun good => second.episodes (first.episodes good), ?_,
    second.resources.trans first.resources⟩
  obtain ⟨new, told, free⟩ := first.told
  obtain ⟨more, toldMore, freeMore⟩ := second.told
  refine ⟨new ++ more, ?_, ?_⟩
  · rw [toldMore, told, append_assoc]
  rw [filterMap_append, free, freeMore]
  rfl

variable {now : UInt64} {due : Option UInt32} {sheet : Sheet}

theorem tracked_empty (now : UInt64) : Tracked now none { standing := none, casts := [] } where
  prepared := prepared_nil
  absent _ := rfl
  lasting _ _ _ here := absurd here not_mem_nil
  current _ _ here := by cases here
  isOver _ here := by cases here
  begun _ here := by cases here
  sorted _ here := by cases here

theorem Tracked.later (tracked : sheet.Tracked now none) (time : UInt64) :
    sheet.Tracked time none :=
  { tracked with isOver := fun _ here => by cases here }

theorem Tracked.change (tracked : sheet.Tracked now none) {changed : Standing → Standing}
    (casts : ∀ standing, (changed standing).castState = standing.castState)
    (sorted : ∀ standing ∈ sheet.standing, (changed standing).resources.cooldowns.Sorted) :
    (sheet.change changed).Tracked now none := by
  have held : ∀ standing ∈ (sheet.change changed).standing,
      ∃ before ∈ sheet.standing, changed before = standing := by
    intro standing here
    obtain ⟨before, wasHere, same⟩ := Option.map_eq_some_iff.mp here
    exact ⟨before, wasHere, same⟩
  refine ⟨tracked.prepared, ?_, tracked.lasting, ?_, (fun _ here => by cases here), ?_, ?_⟩
  · intro absent
    exact tracked.absent (Option.map_eq_none_iff.mp absent)
  · intro none standing here
    obtain ⟨before, wasHere, rfl⟩ := held standing here
    rw [casts]
    exact tracked.current none before wasHere
  · intro standing here
    obtain ⟨before, wasHere, rfl⟩ := held standing here
    rw [casts]
    exact tracked.begun before wasHere
  intro standing here
  obtain ⟨before, wasHere, rfl⟩ := held standing here
  exact sorted before wasHere

variable {abilityId : UInt32}

theorem Tracked.startedBefore {start time : UInt64} {durationTicks : UInt32}
    (isCurrent : Episodic.current (marks sheet.casts) = some (abilityId, start))
    (long : start.toNat + durationTicks.toNat ≤ time.toNat) :
    StartedBefore sheet.casts abilityId time durationTicks := by
  obtain ⟨before, between, split, quiet⟩ := Episodic.exists_split_of_current isCurrent
  exact ⟨before, start, between, split, quiet, long⟩

theorem lasting_snoc {casts : List (UInt64 × CastEvent)}
    (lasting : ∀ time abilityId durationTicks, (time, .started abilityId durationTicks) ∈ casts →
      ∃ definition, getAbilityDefinition abilityId = some definition ∧
        definition.castDurationTicks ≠ 0)
    {told : UInt64 × CastEvent}
    (now : ∀ time abilityId durationTicks, told = (time, .started abilityId durationTicks) →
      ∃ definition, getAbilityDefinition abilityId = some definition ∧
        definition.castDurationTicks ≠ 0) :
    ∀ time abilityId durationTicks, (time, .started abilityId durationTicks) ∈ casts ++ [told] →
        ∃ definition, getAbilityDefinition abilityId = some definition ∧
          definition.castDurationTicks ≠ 0 := by
  intro time abilityId durationTicks here
  rcases List.mem_append.mp here with before | isTold
  · exact lasting time abilityId durationTicks before
  exact now time abilityId durationTicks (List.mem_singleton.mp isTold).symm

theorem Tracked.interrupted (tracked : sheet.Tracked now due) (reason : UInt8) :
    (sheet.interrupted now reason).Tracked now due ∧
      sheet.Keeps (sheet.interrupted now reason) := by
  rcases held : sheet.standing with _ | standing
  · have same : sheet.interrupted now reason = sheet := by
      rw [Sheet.interrupted, held]
    rw [same]
    exact ⟨tracked, Keeps.refl sheet⟩
  cases cast : standing.castState with
  | idle =>
    have same : sheet.interrupted now reason = sheet := by
      rw [Sheet.interrupted, held]
      simp only
      rw [cast]
    rw [same]
    exact ⟨tracked, Keeps.refl sheet⟩
  | casting abilityId targetId startTick durationTicks startPos allowMovement =>
    have result : sheet.interrupted now reason =
        { standing := some standing.stopped
          casts := sheet.casts ++ [(now, .interrupted abilityId reason)] } := by
      rw [Sheet.interrupted, held]
      simp only
      rw [cast]
    have notDue : due = none := by
      rcases isDue : due with _ | overdue
      · rfl
      obtain ⟨other, isOther, idle, _⟩ := tracked.isOver overdue isDue
      rw [held] at isOther
      cases isOther
      rw [cast] at idle
      cases idle
    have current := tracked.current notDue standing held
    rw [cast, running] at current
    rw [result]
    refine ⟨⟨?_, ?_, ?_, ?_, ?_, ?_, ?_⟩, ⟨?_, ?_, ?_⟩⟩
    · apply tracked.prepared.snoc
      intro _ _ isCompleted
      cases isCompleted
    · intro absent
      cases absent
    · apply lasting_snoc tracked.lasting
      intro _ _ _ isStarted
      cases isStarted
    · intro _ other isOther
      cases isOther
      rw [marks_snoc, Episodic.current_snoc, current, CastEvent.mark, Episodic.advance_stop_self]
      rfl
    · intro overdue isDue
      rw [notDue] at isDue
      cases isDue
    · intro other isOther _ _ _ _ _ _ isCasting
      cases isOther
      cases isCasting
    · intro other isOther
      cases isOther
      exact tracked.sorted standing held
    · intro good
      rw [marks_snoc]
      exact good.snoc_stop (Or.inl ⟨startTick, current⟩) now
    · exact ⟨_, rfl, rfl⟩
    rw [held]
    rfl

theorem Tracked.over_due (tracked : sheet.Tracked now none) {standing : Standing}
    (held : sheet.standing = some standing) {targetId durationTicks : UInt32} {startTick : UInt64}
    {startPos : Vec3Fix} {allowMovement : Bool}
    (cast : standing.castState =
      .casting abilityId targetId startTick durationTicks startPos allowMovement)
    (isOver : startTick + durationTicks.toUInt64 ≤ now) :
    Tracked now (some abilityId) { standing := some standing.stopped, casts := sheet.casts } ∧
      sheet.Keeps { standing := some standing.stopped, casts := sheet.casts } := by
  obtain ⟨definition, defined, rfl, lasts, inTime⟩ :=
    tracked.begun standing held _ _ _ _ _ _ cast
  have current := tracked.current rfl standing held
  rw [cast] at current
  have long : startTick.toNat + definition.castDurationTicks.toNat ≤ now.toNat := by
    rw [UInt64.le_iff_toNat_le, UInt64.toNat_add, UInt32.toNat_toUInt64,
      Nat.mod_eq_of_lt inTime] at isOver
    exact isOver
  refine ⟨⟨tracked.prepared, ?_, tracked.lasting, ?_, ?_, ?_, ?_⟩, ⟨id, ?_, ?_⟩⟩
  · intro absent
    cases absent
  · intro notDue
    cases notDue
  · intro overdue isDue
    cases isDue
    exact ⟨_, rfl, rfl, startTick, definition, current, defined, lasts, long⟩
  · intro other isOther _ _ _ _ _ _ isCasting
    cases isOther
    cases isCasting
  · intro other isOther
    cases isOther
    exact tracked.sorted standing held
  · exact ⟨[], (append_nil _).symm, rfl⟩
  rw [held]
  rfl

theorem Tracked.completed (tracked : sheet.Tracked now (some abilityId)) :
    (sheet.tell now (.completed abilityId)).Tracked now none ∧
      sheet.Keeps (sheet.tell now (.completed abilityId)) := by
  obtain ⟨standing, held, idle, start, definition, current, defined, lasts, long⟩ :=
    tracked.isOver abilityId rfl
  refine ⟨⟨?_, ?_, ?_, ?_, ?_, ?_, ?_⟩, ⟨?_, ?_, ?_⟩⟩
  · apply tracked.prepared.snoc
    intro other otherDefinition isCompleted otherDefined _
    cases isCompleted
    rw [defined] at otherDefined
    cases otherDefined
    exact Tracked.startedBefore current long
  · intro absent
    exact absurd (held.symm.trans absent) (by simp)
  · apply lasting_snoc tracked.lasting
    intro _ _ _ isStarted
    cases isStarted
  · intro _ other isOther
    have same : other = standing := Option.some.inj (isOther.symm.trans held)
    rw [same, idle, tell, marks_snoc, Episodic.current_snoc, current, CastEvent.mark,
      Episodic.advance_stop_self]
    rfl
  · intro overdue isDue
    cases isDue
  · exact tracked.begun
  · exact tracked.sorted
  · intro good
    rw [tell, marks_snoc]
    exact good.snoc_stop (Or.inl ⟨start, current⟩) now
  · refine ⟨[(now, .completed abilityId)], rfl, ?_⟩
    simp [chargeOf, defined, lasts]
  rfl

theorem Tracked.instant (tracked : sheet.Tracked now none) (present : sheet.standing ≠ none)
    {definition : AbilityDefinition} (defined : getAbilityDefinition abilityId = some definition)
    (instant : definition.castDurationTicks = 0) :
    (sheet.tell now (.completed abilityId)).Tracked now none ∧ (Episodic (marks sheet.casts) →
        Episodic (marks (sheet.tell now (.completed abilityId)).casts)) := by
  have neverStarted : ∀ mark ∈ marks sheet.casts, mark.2 ≠ .start abilityId := by
    intro mark here isStart
    obtain ⟨told, isTold, rfl⟩ := List.mem_map.mp here
    obtain ⟨time, event⟩ := told
    cases event with
    | started other durationTicks =>
      cases isStart
      obtain ⟨otherDefinition, otherDefined, lasts⟩ :=
        tracked.lasting time abilityId durationTicks isTold
      rw [defined] at otherDefined
      cases otherDefined
      exact lasts instant
    | _ => cases isStart
  have notRunning : ∀ cast ∈ Episodic.current (marks sheet.casts), cast.1 ≠ abilityId := by
    intro cast isCurrent isAbility
    obtain ⟨before, between, split, _⟩ := Episodic.exists_split_of_current isCurrent
    apply neverStarted (cast.2, .start cast.1)
    · rw [split]
      simp
    rw [isAbility]
  refine ⟨⟨?_, ?_, ?_, ?_, ?_, tracked.begun, tracked.sorted⟩, ?_⟩
  · apply tracked.prepared.snoc
    intro other otherDefinition isCompleted otherDefined lasts
    cases isCompleted
    rw [defined] at otherDefined
    cases otherDefined
    exact absurd instant lasts
  · intro absent
    exact absurd absent present
  · apply lasting_snoc tracked.lasting
    intro _ _ _ isStarted
    cases isStarted
  · intro _ standing held
    rw [tell, marks_snoc, Episodic.current_snoc, CastEvent.mark,
      Episodic.advance_stop_of_ne now notRunning]
    exact tracked.current rfl standing held
  · intro overdue isDue
    cases isDue
  intro good
  rw [tell, marks_snoc]
  exact good.snoc_stop (Or.inr neverStarted) now

theorem Tracked.started (tracked : sheet.Tracked now none) {standing : Standing}
    (held : sheet.standing = some standing) {definition : AbilityDefinition}
    (defined : getAbilityDefinition abilityId = some definition)
    (lasts : definition.castDurationTicks ≠ 0)
    (inTime : now.toNat + definition.castDurationTicks.toNat < 2 ^ 64) (targetId : UInt32)
    (startPos : Vec3Fix) :
    Tracked now none
        { standing := some { standing with
            castState := CastState.startCast abilityId targetId now
              definition.castDurationTicks startPos definition.allowMovement }
          casts := sheet.casts ++ [(now, .started abilityId definition.castDurationTicks)] } ∧
      (Episodic (marks sheet.casts) → (Episodic (marks
            (sheet.casts ++ [(now, .started abilityId definition.castDurationTicks)])) ↔
          standing.castState = .idle)) := by
  have current := tracked.current rfl standing held
  refine ⟨⟨?_, ?_, ?_, ?_, ?_, ?_, ?_⟩, ?_⟩
  · apply tracked.prepared.snoc
    intro _ _ isCompleted
    cases isCompleted
  · intro absent
    cases absent
  · apply lasting_snoc tracked.lasting
    intro time other durationTicks isStarted
    cases isStarted
    exact ⟨definition, defined, lasts⟩
  · intro _ other isOther
    cases isOther
    rw [marks_snoc, Episodic.current_snoc]
    rfl
  · intro overdue isDue
    cases isDue
  · intro other isOther _ _ _ _ _ _ isCasting
    cases isOther
    cases isCasting
    exact ⟨definition, defined, rfl, lasts, inTime⟩
  · intro other isOther
    cases isOther
    exact tracked.sorted standing held
  intro good
  rw [marks_snoc]
  constructor
  · intro stillGood
    have nothing := Episodic.current_of_snoc_start stillGood
    rw [current] at nothing
    cases cast : standing.castState with
    | idle => rfl
    | casting other targetId startTick durationTicks startPos allowMovement =>
      rw [cast] at nothing
      cases nothing
  intro idle
  apply good.snoc_start
  rw [current, idle]
  rfl

end Sheet

end Eidolon.Server
