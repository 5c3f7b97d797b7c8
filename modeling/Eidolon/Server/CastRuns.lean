import Eidolon.Server.CastLifecycle

/-!
# Casts over runs

What an event does to the casts of all entities.  In the pass of a tick over the casts those
that are over are taken off the sheets first, and told about one after another while the
earlier ones already strike.
-/

namespace Eidolon.Server

open Core Library List Net Option World

variable {Peer : Type}

namespace Battle

/-- The entities are different, and no sheet has anything outstanding. -/
structure Sound (battle : Battle Peer) : Prop where
  distinct : battle.ids.Nodup
  sheets : ∀ entityId, (battle.sheet entityId).Tracked battle.world.currentTick none

variable {battle after : Battle Peer}

theorem Struck.kept (struck : Struck battle after) {due : UInt32 → Option UInt32}
    (tracked : ∀ entityId, (battle.sheet entityId).Tracked battle.world.currentTick (due entityId))
    (entityId : UInt32) :
    (after.sheet entityId).Tracked battle.world.currentTick (due entityId) ∧
      (battle.sheet entityId).Keeps (after.sheet entityId) := by
  rcases struck.sheets entityId with same | interrupted
  · rw [same]
    exact ⟨tracked entityId, Sheet.Keeps.refl _⟩
  rw [interrupted]
  exact (tracked entityId).interrupted 2

theorem Struck.sound (struck : Struck battle after) (sound : battle.Sound) : after.Sound := by
  constructor
  · rw [struck.ids]
    exact sound.distinct
  intro entityId
  rw [struck.tick]
  exact (struck.kept sound.sheets entityId).1

theorem standing_eq_none_iff (battle : Battle Peer) (entityId : UInt32) :
    (battle.sheet entityId).standing = none ↔ battle.getEntity entityId = none :=
  map_eq_none_iff

theorem sheet_foldl_interrupted (broken : List (UInt32 × UInt32)) (battle : Battle Peer) :
    (broken.foldl (fun battle cast => battle.send (.cast cast.1 (.interrupted cast.2 1)))
        battle).ids = battle.ids ∧
      (broken.foldl (fun battle cast => battle.send (.cast cast.1 (.interrupted cast.2 1)))
        battle).world.currentTick = battle.world.currentTick ∧
      ∀ entityId,
        (broken.foldl (fun battle cast => battle.send (.cast cast.1 (.interrupted cast.2 1)))
          battle).sheet entityId =
          { standing := (battle.sheet entityId).standing
            casts := (battle.sheet entityId).casts ++ broken.filterMap fun cast =>
                if cast.1 = entityId then
                  some (battle.world.currentTick, CastEvent.interrupted cast.2 1)
                else none } := by
  induction broken generalizing battle with
  | nil =>
    refine ⟨rfl, rfl, ?_⟩
    intro entityId
    rw [filterMap_nil, append_nil]
    rfl
  | cons cast rest ih =>
    rcases ih (battle.send (.cast cast.1 (.interrupted cast.2 1))) with
      ⟨ids, tick, sheets⟩
    rw [foldl_cons]
    refine ⟨ids, tick, ?_⟩
    intro entityId
    rw [sheets entityId, sheet_send_cast, filterMap_cons]
    by_cases here : entityId = cast.1
    · rw [if_pos here, if_pos here.symm, Sheet.tell, append_assoc]
      rfl
    rw [if_neg here, if_neg (Ne.symm here)]
    rfl

def completedCasts (battle : Battle Peer) : List (UInt32 × UInt32 × UInt32) :=
  battle.entities.filterMap fun entity =>
    (entity.body.completedCast battle.world.currentTick).map fun cast => (entity.id, cast)

def passed (battle : Battle Peer) : Battle Peer :=
  (battle.entities.filterMap fun entity =>
    entity.body.brokenCast.map fun abilityId => (entity.id, abilityId)).foldl
      (fun battle cast => battle.send (.cast cast.1 (.interrupted cast.2 1)))
      (battle.alter fun _ => Fighter.afterProgress battle.world.currentTick)

theorem progressCasts_eq (physics : Physics) (battle : Battle Peer) : battle.progressCasts physics =
      battle.completedCasts.foldl (fun battle cast =>
          battle.resolveAbilityCompletion physics cast.1 cast.2.1 cast.2.2) battle.passed :=
  rfl

def dueIn (remaining : List (UInt32 × UInt32 × UInt32)) (entityId : UInt32) : Option UInt32 :=
  (KeyedList.find Prod.fst remaining entityId).map fun cast => cast.2.1

theorem sheet_passed (distinct : battle.ids.Nodup) (entityId : UInt32) :
    battle.passed.sheet entityId =
      { standing := (battle.getEntity entityId).map fun entity =>
          (entity.body.afterProgress battle.world.currentTick).standing
        casts := (battle.sheet entityId).casts ++
          (((battle.getEntity entityId).bind fun entity => entity.body.brokenCast).map
            fun abilityId =>
              (battle.world.currentTick, CastEvent.interrupted abilityId 1)).toList } := by
  rcases sheet_foldl_interrupted (battle.entities.filterMap fun entity =>
      entity.body.brokenCast.map fun abilityId => (entity.id, abilityId))
    (battle.alter fun _ => Fighter.afterProgress battle.world.currentTick) with ⟨_, _, sheets⟩
  have told : (battle.entities.filterMap fun entity =>
      entity.body.brokenCast.map fun abilityId => (entity.id, abilityId)).filterMap
        (fun cast => if cast.1 = entityId then
          some (battle.world.currentTick, CastEvent.interrupted cast.2 1) else none) =
      (((battle.getEntity entityId).bind fun entity => entity.body.brokenCast).map
        fun abilityId =>
          (battle.world.currentTick, CastEvent.interrupted abilityId 1)).toList := by
    rw [filterMap_filterMap]
    have own := KeyedList.filterMap_of_nodup distinct
      (fun entity => entity.body.brokenCast.map fun abilityId =>
        (battle.world.currentTick, CastEvent.interrupted abilityId 1)) entityId
    rw [Option.map_bind]
    refine Eq.trans ?_ own
    congr 1
    funext entity
    cases entity.body.brokenCast with
    | none => rw [map_none, map_none, bind_none, ite_self]
    | some abilityId => rfl
  rw [passed, sheets entityId, sheet, getEntity_alter, Option.map_map]
  rw [← told]
  rfl

end Battle

theorem Fighter.progress_cases (fighter : Fighter) (currentTick : UInt64) :
    (fighter.brokenCast = none ∧ fighter.completedCast currentTick = none ∧
      fighter.afterProgress currentTick = fighter) ∨
    ∃ abilityId targetId startTick durationTicks startPos allowMovement, fighter.castState =
        .casting abilityId targetId startTick durationTicks startPos allowMovement ∧
      (fighter.afterProgress currentTick).standing = fighter.standing.stopped ∧
      ((fighter.brokenCast = some abilityId ∧ fighter.completedCast currentTick = none) ∨
        (fighter.brokenCast = none ∧
          fighter.completedCast currentTick = some (abilityId, targetId) ∧
          startTick + durationTicks.toUInt64 ≤ currentTick)) := by
  cases cast : fighter.castState with
  | idle =>
    have broken : fighter.brokenCast = none := by
      rw [brokenCast, cast]
    have completed : fighter.completedCast currentTick = none := by
      rw [completedCast, cast]
    refine .inl ⟨broken, completed, ?_⟩
    rw [afterProgress, if_pos ⟨broken, completed⟩]
  | casting abilityId targetId startTick durationTicks startPos allowMovement =>
    cases broken : fighter.brokenCast with
    | some brokenId =>
      have sameAbility : brokenId = abilityId := by
        rw [brokenCast, cast] at broken
        simp only at broken
        split at broken
        · exact (some.inj broken).symm
        cases broken
      have completed : fighter.completedCast currentTick = none := by
        rw [completedCast, cast]
        simp only
        rw [if_neg]
        intro ended
        rw [broken] at ended
        cases ended.1
      refine .inr ⟨abilityId, targetId, startTick, durationTicks, startPos, allowMovement,
        rfl, ?_, .inl ⟨congrArg some sameAbility, completed⟩⟩
      rw [afterProgress, if_neg]
      · rfl
      intro neither
      rw [broken] at neither
      cases neither.1
    | none =>
      by_cases isOver : startTick + durationTicks.toUInt64 ≤ currentTick
      · have completed : fighter.completedCast currentTick = some (abilityId, targetId) := by
          rw [completedCast, cast]
          simp only
          rw [if_pos ⟨broken, isOver⟩]
        refine .inr ⟨abilityId, targetId, startTick, durationTicks, startPos,
          allowMovement, rfl, ?_, .inr ⟨rfl, completed, isOver⟩⟩
        rw [afterProgress, if_neg]
        · rfl
        intro neither
        rw [completed] at neither
        cases neither.2
      have completed : fighter.completedCast currentTick = none := by
        rw [completedCast, cast]
        simp only
        rw [if_neg fun both => isOver both.2]
      refine .inl ⟨rfl, completed, ?_⟩
      rw [afterProgress, if_pos ⟨broken, completed⟩]

namespace Battle

variable {battle after : Battle Peer}

theorem dueIn_completedCasts (distinct : battle.ids.Nodup) (entityId : UInt32) :
    dueIn battle.completedCasts entityId = ((battle.getEntity entityId).bind fun entity =>
        entity.body.completedCast battle.world.currentTick).map Prod.fst := by
  have found := KeyedList.find_filterMap distinct (fun entity : ServerEntity Peer Fighter =>
    entity.body.completedCast battle.world.currentTick) entityId
  rw [dueIn, completedCasts, found, Option.map_map]
  rfl

theorem Sound.tracked_passed (sound : battle.Sound) (entityId : UInt32) :
    (battle.passed.sheet entityId).Tracked battle.world.currentTick
        (dueIn battle.completedCasts entityId) ∧
      (battle.sheet entityId).Keeps (battle.passed.sheet entityId) := by
  have tracked := sound.sheets entityId
  have unchanged : battle.passed.sheet entityId = battle.sheet entityId →
      dueIn battle.completedCasts entityId = none →
      (battle.passed.sheet entityId).Tracked battle.world.currentTick
          (dueIn battle.completedCasts entityId) ∧
        (battle.sheet entityId).Keeps (battle.passed.sheet entityId) := by
    intro same notDue
    rw [same, notDue]
    exact ⟨tracked, Sheet.Keeps.refl _⟩
  have passed := sheet_passed sound.distinct entityId
  have due := dueIn_completedCasts sound.distinct entityId
  rcases found : battle.getEntity entityId with _ | entity
  · rw [found] at passed due
    apply unchanged
    · rw [passed, sheet, found]
      exact congrArg (Sheet.mk none) (append_nil _)
    exact due
  have standing : (battle.sheet entityId).standing = some entity.body.standing := by
    rw [sheet, found]
    rfl
  rw [found, map_some, bind_some] at passed
  rw [found, bind_some] at due
  rcases entity.body.progress_cases battle.world.currentTick with
    ⟨broken, completed, same⟩ | ⟨abilityId, targetId, startTick, durationTicks, startPos,
      allowMovement, cast, stopped, outcome⟩
  · rw [broken, same] at passed
    rw [completed] at due
    apply unchanged
    · rw [passed, sheet, found]
      exact congrArg (Sheet.mk (some entity.body.standing)) (append_nil _)
    exact due
  rw [stopped] at passed
  rcases outcome with ⟨broken, completed⟩ | ⟨broken, completed, isOver⟩
  · have interrupted : battle.passed.sheet entityId =
        (battle.sheet entityId).interrupted battle.world.currentTick 1 := by
      rw [passed, broken, Sheet.interrupted, standing]
      simp only [Fighter.standing, cast]
      rfl
    rw [completed] at due
    rw [interrupted, due]
    exact tracked.interrupted 1
  have taken : battle.passed.sheet entityId =
      { standing := some entity.body.standing.stopped
        casts := (battle.sheet entityId).casts } := by
    rw [passed, broken]
    exact congrArg (Sheet.mk _) (append_nil _)
  rw [completed] at due
  rw [taken, due]
  exact tracked.over_due standing cast isOver

theorem kept_foldl_resolve (physics : Physics) (remaining : List (UInt32 × UInt32 × UInt32))
    (distinct : (remaining.map Prod.fst).Nodup) (start : Battle Peer)
    (tracked : ∀ entityId, (start.sheet entityId).Tracked start.world.currentTick
      (dueIn remaining entityId)) :
    (remaining.foldl (fun battle cast =>
        battle.resolveAbilityCompletion physics cast.1 cast.2.1 cast.2.2) start).ids =
        start.ids ∧
      (remaining.foldl (fun battle cast =>
        battle.resolveAbilityCompletion physics cast.1 cast.2.1 cast.2.2)
          start).world.currentTick = start.world.currentTick ∧
      ∀ entityId, ((remaining.foldl (fun battle cast =>
          battle.resolveAbilityCompletion physics cast.1 cast.2.1 cast.2.2)
            start).sheet entityId).Tracked start.world.currentTick none ∧
        (start.sheet entityId).Keeps ((remaining.foldl (fun battle cast =>
            battle.resolveAbilityCompletion physics cast.1 cast.2.1 cast.2.2)
              start).sheet entityId) := by
  induction remaining generalizing start with
  | nil =>
    refine ⟨rfl, rfl, ?_⟩
    intro entityId
    exact ⟨tracked entityId, Sheet.Keeps.refl _⟩
  | cons cast rest ih =>
    rw [map_cons, nodup_cons] at distinct
    rcases distinct with ⟨new, restDistinct⟩
    have isDue : dueIn (cast :: rest) cast.1 = some cast.2.1 := by
      rw [dueIn, KeyedList.find_cons, if_pos rfl]
      rfl
    have own := tracked cast.1
    rw [isDue] at own
    obtain ⟨standing, held, _, _, definition, _, defined, _⟩ := own.isOver cast.2.1 rfl
    obtain ⟨caster, found, _⟩ := Option.map_eq_some_iff.mp held
    have struck := start.struck_resolveAbilityCompletion physics found defined cast.2.2
    have restDue : dueIn rest cast.1 = none := by
      rw [dueIn, KeyedList.find_eq_none_of_not_mem new]
      rfl
    have told : ∀ entityId,
        ((start.send (.cast cast.1 (.completed cast.2.1))).sheet entityId).Tracked
          start.world.currentTick (dueIn rest entityId) ∧
        (start.sheet entityId).Keeps
          ((start.send (.cast cast.1 (.completed cast.2.1))).sheet entityId) := by
      intro entityId
      rw [sheet_send_cast]
      by_cases here : entityId = cast.1
      · rw [if_pos here, here, restDue]
        exact own.completed
      have sameDue : dueIn (cast :: rest) entityId = dueIn rest entityId := by
        rw [dueIn, KeyedList.find_cons, if_neg (Ne.symm here)]
        rfl
      rw [if_neg here, ← sameDue]
      exact ⟨tracked entityId, Sheet.Keeps.refl _⟩
    have kept := struck.kept fun entityId => (told entityId).1
    rcases ih restDistinct _ (by
      intro entityId
      rw [struck.tick]
      exact (kept entityId).1) with ⟨ids, tick, sheets⟩
    refine ⟨ids.trans struck.ids, tick.trans struck.tick, ?_⟩
    intro entityId
    rcases sheets entityId with ⟨finally', keeps⟩
    rw [struck.tick] at finally'
    exact ⟨finally', ((told entityId).2.trans (kept entityId).2).trans keeps⟩

/-- The same entities and casts as before, and nothing was charged for. -/
structure Kept (battle after : Battle Peer) : Prop where
  sound : after.Sound
  tick : after.world.currentTick = battle.world.currentTick
  sheets : ∀ entityId, (battle.sheet entityId).Keeps (after.sheet entityId)

theorem Kept.trans {middle : Battle Peer} (first : Kept battle middle)
    (second : Kept middle after) : Kept battle after where
  sound := second.sound
  tick := second.tick.trans first.tick
  sheets entityId := (first.sheets entityId).trans (second.sheets entityId)

theorem Sound.keptBy (sound : battle.Sound) (struck : Struck battle after) : Kept battle after where
  sound := struck.sound sound
  tick := struck.tick
  sheets entityId := (struck.kept sound.sheets entityId).2

theorem Sound.kept_progressCasts (sound : battle.Sound) (physics : Physics) :
    Kept battle (battle.progressCasts physics) := by
  rcases sheet_foldl_interrupted (battle.entities.filterMap fun entity =>
      entity.body.brokenCast.map fun abilityId => (entity.id, abilityId))
    (battle.alter fun _ => Fighter.afterProgress battle.world.currentTick) with
    ⟨passedIds, passedTick, _⟩
  have distinct : (battle.completedCasts.map Prod.fst).Nodup :=
    sound.distinct.sublist (KeyedList.map_fst_filterMap_sublist ServerEntity.id _ _)
  rcases kept_foldl_resolve physics battle.completedCasts distinct battle.passed (by
    intro entityId
    rw [passed, passedTick]
    exact (sound.tracked_passed entityId).1) with ⟨ids, tick, sheets⟩
  have sameIds : battle.passed.ids = battle.ids := passedIds.trans (ids_alter battle _)
  have sameTick : battle.passed.world.currentTick = battle.world.currentTick := passedTick
  rw [sameTick] at tick sheets
  rw [progressCasts_eq]
  refine ⟨⟨?_, ?_⟩, tick, ?_⟩
  · rw [ids, sameIds]
    exact sound.distinct
  · intro entityId
    rw [tick]
    exact (sheets entityId).1
  intro entityId
  exact (sound.tracked_passed entityId).2.trans (sheets entityId).2

end Battle

def Resources.regenerated (resources : Resources) : Resources :=
  if resources.mana < resources.maxMana then
    { resources with mana := min (resources.mana + 5) resources.maxMana }
  else resources

/-- What is charged is paid exactly once, in mana and by a cooldown of its ability. -/
structure Accounted (before after : Resources) (charges : List (UInt64 × AbilityDefinition)) :
    Prop where
  mana : after.mana.toNat + (charges.map fun charge => charge.2.resourceCost.toNat).sum =
    before.mana.toNat
  cooldowns : ∀ abilityId, after.cooldowns.readyAt abilityId =
    charges.foldl
      (fun ready charge =>
        if charge.2.abilityId = abilityId then some (charge.1 + charge.2.cooldownTicks.toUInt64)
        else ready)
      (before.cooldowns.readyAt abilityId)

theorem accounted_nil (resources : Resources) : Accounted resources resources [] where
  mana := rfl
  cooldowns _ := rfl

theorem Resources.accounted_charged {resources : Resources} (sorted : resources.cooldowns.Sorted)
    {abilityId : UInt32} {definition : AbilityDefinition}
    (defined : getAbilityDefinition abilityId = some definition)
    (affordable : definition.resourceCost ≤ resources.mana) (now : UInt64) :
    Accounted resources (resources.charged abilityId now definition) [(now, definition)] := by
  obtain ⟨named, listed⟩ := abilityId_of_defined defined
  constructor
  · have enough := UInt32.le_iff_toNat_le.mp affordable
    rw [charged, toNat_saturatingSub32]
    exact Nat.sub_add_cancel enough
  intro other
  rw [charged, sorted.readyAt_trigger listed, foldl_cons, foldl_nil, named]
  by_cases same : other = abilityId
  · rw [if_pos same, if_pos same.symm]
  rw [if_neg same, if_neg (Ne.symm same)]

end Eidolon.Server
