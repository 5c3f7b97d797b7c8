import Eidolon.Server.CastEvents

/-!
# Sequences of casts

Over all runs of packets, ticks and damage: what is told about the casts of an entity is a
sequence of casts that are begun and ended, each start and each instant ability is paid for
once, and what takes time takes effect that much after its own start.  The server does not
look whether a caster is casting already; so this holds exactly as long as nobody begins a
cast during another.
-/

namespace Eidolon.Server

open Core Library List Net World

variable {Peer : Type} [DecidableEq Peer]

structure LawfulCasts (casts : List (UInt64 × CastEvent)) : Prop where
  episodes : Episodic (marks casts)
  prepared : Prepared casts

namespace Battle

variable (battle : Battle Peer)

def Lawful : Prop :=
  ∀ entityId, LawfulCasts (battle.castsOf entityId)

def rested (event : BattleEvent Peer) (resources : Resources) :
    Resources :=
  match event with
  | .app .tick => if battle.world.currentTick % 20 = 0 then resources.regenerated else resources
  | _ => resources

section Step

variable (hmacSha256 : List UInt8 → List UInt8 → FixedBytes 32) (physics : Physics)

/-- Who is there before and after an event has paid, in mana and by cooldowns, exactly for
what the event started or instantly cast. -/
def PaysOnce (battle : Battle Peer) (event : BattleEvent Peer) : Prop :=
  ∀ entityId before after, (battle.sheet entityId).standing = some before →
    ((battle.step hmacSha256 physics event).sheet entityId).standing = some after →
    ∃ new, (battle.step hmacSha256 physics event).castsOf entityId =
        battle.castsOf entityId ++ new ∧
      Accounted (battle.rested event before.resources) after.resources (new.filterMap chargeOf)

end Step

/-- The tick counter is not about to wrap around. -/
def TicksLeft (_ : BattleEvent Peer) : Prop :=
  battle.world.currentTick.toNat + 2 ^ 32 ≤ 2 ^ 64

instance (battle : Battle Peer) (event : BattleEvent Peer) : Decidable (battle.TicksLeft event) :=
  inferInstanceAs (Decidable (battle.world.currentTick.toNat + 2 ^ 32 ≤ 2 ^ 64))

/-- Nothing has happened yet: different entities with nothing cast and nothing used. -/
structure Fresh (battle : Battle Peer) : Prop where
  distinct : battle.ids.Nodup
  idle : ∀ entity ∈ battle.entities, entity.body.castState = .idle
  unused : ∀ entity ∈ battle.entities, entity.body.cooldowns = CooldownTracker.new
  silent : battle.world.sent = []

variable {hmacSha256 : List UInt8 → List UInt8 → FixedBytes 32} {physics : Physics}
variable {battle after : Battle Peer}

omit [DecidableEq Peer] in
theorem Sheet.tracked_of_idle {sheet : Sheet} (silent : sheet.casts = [])
    (idle : ∀ standing ∈ sheet.standing, standing.castState = .idle)
    (unused : ∀ standing ∈ sheet.standing, standing.resources.cooldowns = CooldownTracker.new)
    (now : UInt64) : sheet.Tracked now none := by
  refine ⟨?_, fun _ => silent, ?_, ?_, ?_, ?_, ?_⟩
  · rw [silent]
    exact prepared_nil
  · intro _ _ _ here
    rw [silent] at here
    cases here
  · intro _ standing held
    rw [silent, idle standing held]
    rfl
  · intro _ isDue
    cases isDue
  · intro standing held _ _ _ _ _ _ isCasting
    rw [idle standing held] at isCasting
    cases isCasting
  intro standing held
  rw [unused standing held]
  exact CooldownTracker.sorted_new

omit [DecidableEq Peer] in
theorem Fresh.sound (fresh : battle.Fresh) : battle.Sound := by
  refine ⟨fresh.distinct, ?_⟩
  intro entityId
  have present : ∀ standing ∈ (battle.sheet entityId).standing, ∃ entity ∈ battle.entities,
      entity.body.standing = standing := by
    intro standing held
    obtain ⟨entity, found, same⟩ := Option.map_eq_some_iff.mp held
    exact ⟨entity, KeyedList.mem_of_find found, same⟩
  apply Sheet.tracked_of_idle
  · rw [sheet, castsOf, fresh.silent]
    rfl
  · intro standing held
    obtain ⟨entity, here, rfl⟩ := present standing held
    exact fresh.idle entity here
  intro standing held
  obtain ⟨entity, here, rfl⟩ := present standing held
  exact fresh.unused entity here

omit [DecidableEq Peer] in
theorem Fresh.lawful (fresh : battle.Fresh) : battle.Lawful := by
  intro entityId
  have casts : battle.castsOf entityId = [] := by
    rw [castsOf, fresh.silent]
    rfl
  rw [casts]
  exact ⟨Episodic.nil, prepared_nil⟩

variable (hmacSha256 physics) in
structure Quiet (battle : Battle Peer) (event : BattleEvent Peer) : Prop where
  sound : (battle.step hmacSha256 physics event).Sound
  episodes : ∀ entityId, Episodic (marks (battle.castsOf entityId)) →
    Episodic (marks ((battle.step hmacSha256 physics event).castsOf entityId))
  paysOnce : PaysOnce hmacSha256 physics battle event

variable {event : BattleEvent Peer}

theorem quiet_of_keeps (sound : (battle.step hmacSha256 physics event).Sound)
    (kept : ∀ entityId, ∃ middle : Sheet, (battle.sheet entityId).Keeps middle ∧
      (battle.step hmacSha256 physics event).sheet entityId = middle.change fun standing =>
          { standing with resources := battle.rested event standing.resources }) :
    Quiet hmacSha256 physics battle event := by
  refine ⟨sound, ?_, ?_⟩
  · intro entityId good
    obtain ⟨middle, keeps, result⟩ := kept entityId
    have casts := congrArg Sheet.casts result
    change (battle.step hmacSha256 physics event).castsOf entityId = middle.casts at casts
    rw [casts]
    exact keeps.episodes good
  intro entityId before after held heldAfter
  obtain ⟨middle, keeps, result⟩ := kept entityId
  obtain ⟨new, told, free⟩ := keeps.told
  have casts := congrArg Sheet.casts result
  refine ⟨new, casts.trans told, ?_⟩
  rw [result] at heldAfter
  obtain ⟨standing, isMiddle, rfl⟩ := Option.map_eq_some_iff.mp heldAfter
  have resources := keeps.resources
  rw [isMiddle, held] at resources
  have same : standing.resources = before.resources := Option.some.inj resources
  rw [free, ← same]
  exact accounted_nil _

theorem quiet_of_same (sound : (battle.step hmacSha256 physics event).Sound)
    (still : ∀ resources, battle.rested event resources = resources)
    (sheets : ∀ entityId,
      (battle.step hmacSha256 physics event).sheet entityId = battle.sheet entityId ∨
      ((battle.step hmacSha256 physics event).castsOf entityId = [] ∧
        ((battle.sheet entityId).standing = none ∨
          ((battle.step hmacSha256 physics event).sheet entityId).standing = none))) :
    Quiet hmacSha256 physics battle event := by
  refine ⟨sound, ?_, ?_⟩
  · intro entityId good
    rcases sheets entityId with same | ⟨silent, _⟩
    · have casts := congrArg Sheet.casts same
      change (battle.step hmacSha256 physics event).castsOf entityId =
        battle.castsOf entityId at casts
      rw [casts]
      exact good
    rw [silent]
    exact Episodic.nil
  intro entityId before after held heldAfter
  rcases sheets entityId with same | ⟨_, absent | gone⟩
  · rw [same, held] at heldAfter
    cases heldAfter
    refine ⟨[], (congrArg Sheet.casts same).trans (append_nil _).symm, ?_⟩
    rw [still]
    exact accounted_nil _
  · rw [absent] at held
    cases held
  rw [gone] at heldAfter
  cases heldAfter

theorem quiet_of_kept (kept : Kept battle (battle.step hmacSha256 physics event))
    (still : ∀ resources, battle.rested event resources = resources) :
    Quiet hmacSha256 physics battle event := by
  apply quiet_of_keeps kept.sound
  intro entityId
  refine ⟨_, kept.sheets entityId, ?_⟩
  have unchanged : (fun standing : Standing =>
      { standing with resources := battle.rested event standing.resources }) = id := by
    funext standing
    rw [still]
    rfl
  rw [unchanged, Sheet.change, Option.map_id]
  rfl

omit [DecidableEq Peer] in
theorem standing_regenerated (body : Fighter) : body.regenerated.standing =
      { body.standing with resources := body.standing.resources.regenerated } := by
  unfold Fighter.regenerated Resources.regenerated
  by_cases below : body.mana < body.maxMana
  · have also : body.standing.resources.mana < body.standing.resources.maxMana := below
    rw [if_pos below, if_pos also]
    rfl
  have also : ¬ body.standing.resources.mana < body.standing.resources.maxMana := below
  rw [if_neg below, if_neg also]

def progressed (physics : Physics) (battle : Battle Peer) : Battle Peer :=
  (battle.alter fun _ body =>
    { body with motion := physics.move body.motion }).progressCasts physics

omit [DecidableEq Peer] in
theorem Sound.kept_progressed (sound : battle.Sound) (physics : Physics) :
    Kept battle (battle.progressed physics) := by
  have moved : Kept battle (battle.alter fun _ body =>
      { body with motion := physics.move body.motion }) := by
    apply sound.keptBy
    apply struck_alter
    intro entityId body
    rfl
  exact moved.trans (moved.sound.kept_progressCasts physics)

omit [DecidableEq Peer] in
theorem simulate_eq (physics : Physics) (battle : Battle Peer) :
    ∃ rested : Battle Peer, battle.simulate physics =
        { rested with world := { rested.world with
          currentTick := rested.world.currentTick + 1 } } ∧
      rested.ids = (battle.progressed physics).ids ∧
      ∀ entityId, rested.sheet entityId =
        ((battle.progressed physics).sheet entityId).change fun standing =>
          { standing with
            resources := if (battle.progressed physics).world.currentTick % 20 = 0 then
              standing.resources.regenerated else standing.resources } := by
  by_cases twentieth : (battle.progressed physics).world.currentTick % 20 = 0
  · refine ⟨(battle.progressed physics).alter fun _ => Fighter.regenerated, ?_, ids_alter _ _, ?_⟩
    · simp only [simulate]
      rw [← progressed, if_pos twentieth]
    intro entityId
    simp only [if_pos twentieth]
    exact sheet_alter _ standing_regenerated
  refine ⟨battle.progressed physics, ?_, rfl, ?_⟩
  · simp only [simulate]
    rw [← progressed, if_neg twentieth]
  intro entityId
  simp only [if_neg twentieth]
  change _ = Sheet.change _ id
  rw [Sheet.change, Option.map_id]
  rfl

omit [DecidableEq Peer] in
theorem sorted_regenerated (rests : Prop) [Decidable rests] {resources : Resources}
    (sorted : resources.cooldowns.Sorted) :
    (if rests then resources.regenerated else resources).cooldowns.Sorted := by
  split
  · unfold Resources.regenerated
    split <;> exact sorted
  exact sorted

theorem Sound.quiet_tick (sound : battle.Sound) : Quiet hmacSha256 physics battle (.app .tick) := by
  have kept := sound.kept_progressed physics
  obtain ⟨rested, result, ids, sheets⟩ := simulate_eq physics battle
  have after : battle.step hmacSha256 physics (.app .tick) =
      { rested with world := { rested.world with
        currentTick := rested.world.currentTick + 1 } } := result
  have sheetsAfter : ∀ entityId,
      (battle.step hmacSha256 physics (.app .tick)).sheet entityId = rested.sheet entityId := by
    intro entityId
    rw [after]
    rfl
  apply quiet_of_keeps
  · refine ⟨?_, ?_⟩
    · have sameIds : (battle.step hmacSha256 physics (.app .tick)).ids = rested.ids := by
        rw [after]
        rfl
      rw [sameIds, ids]
      exact kept.sound.distinct
    intro entityId
    have tracked := kept.sound.sheets entityId
    rw [sheetsAfter, sheets]
    refine @Sheet.Tracked.later (battle.progressed physics).world.currentTick _ ?_ _
    apply tracked.change
    · exact fun _ => rfl
    intro standing held
    exact sorted_regenerated _ (tracked.sorted standing held)
  intro entityId
  refine ⟨_, kept.sheets entityId, ?_⟩
  rw [sheetsAfter, sheets, kept.tick]
  rfl

omit [DecidableEq Peer] in
theorem sheet_despawnEntity (battle : Battle Peer) (entityId other : UInt32) :
    sheet (battle.despawnEntity peaceful entityId) other =
      if other = entityId then { standing := none, casts := [] } else battle.sheet other := by
  have standing : (sheet (battle.despawnEntity peaceful entityId) other).standing =
      if other = entityId then none else (battle.sheet other).standing := by
    have lookup : KeyedList.find ServerEntity.id
        (battle.entities.filter fun entity => decide (entity.id ≠ entityId)) other =
        if other = entityId then none
        else KeyedList.find ServerEntity.id battle.entities other := by
      rw [KeyedList.find, KeyedList.find, List.find?_filter]
      by_cases here : other = entityId
      · rw [if_pos here, List.find?_eq_none]
        intro entity _ both
        simp only [decide_not, Bool.not_eq_true', decide_eq_false_iff_not,
          decide_eq_true_eq] at both
        exact both.1 (both.2.trans here)
      rw [if_neg here]
      congr 1
      funext entity
      by_cases asked : entity.id = other
      · have apart : entity.id ≠ entityId := fun same => here (asked.symm.trans same)
        simp [asked, here]
      simp [asked]
    rw [sheet, getEntity, EidolonApp.despawnEntity, lookup]
    split <;> rfl
  have casts : castsOf (battle.despawnEntity peaceful entityId) other =
      if other = entityId then [] else battle.castsOf other := by
    rw [castsOf, castsOf, EidolonApp.despawnEntity]
    simp only [peaceful, filterMap_filter]
    by_cases here : other = entityId
    · rw [if_pos here, filterMap_eq_nil_iff]
      intro message _
      obtain ⟨time, message⟩ := message
      cases message with
      | cast casterId event =>
        rw [castFor_cast]
        by_cases same : casterId = entityId
        · simp [same]
        simp [same, here]
      | _ => rfl
    rw [if_neg here]
    congr 1
    funext message
    obtain ⟨time, message⟩ := message
    cases message with
    | cast casterId event =>
      rw [castFor_cast]
      by_cases same : casterId = entityId
      · simp [same, Ne.symm here]
      simp [same]
    | _ => rfl
  have both : sheet (battle.despawnEntity peaceful entityId) other =
      { standing := (sheet (battle.despawnEntity peaceful entityId) other).standing
        casts := castsOf (battle.despawnEntity peaceful entityId) other } := rfl
  rw [both, standing, casts]
  split <;> rfl

theorem Sound.quiet_kick (sound : battle.Sound) (entityId : UInt32) :
    Quiet hmacSha256 physics battle (.app (.kickPlayer entityId)) := by
  have sheets := fun other => sheet_despawnEntity battle entityId other
  apply quiet_of_same
  · refine ⟨?_, ?_⟩
    · exact sound.distinct.sublist (List.filter_sublist.map _)
    intro other
    change Sheet.Tracked battle.world.currentTick none
      (sheet (battle.despawnEntity peaceful entityId) other)
    rw [sheets]
    split
    · exact Sheet.tracked_empty _
    exact sound.sheets other
  · exact fun _ => rfl
  intro other
  change sheet (battle.despawnEntity peaceful entityId) other = _ ∨
    ((sheet (battle.despawnEntity peaceful entityId) other).casts = [] ∧
      (_ ∨ (sheet (battle.despawnEntity peaceful entityId) other).standing = none))
  rw [sheets]
  split
  · exact Or.inr ⟨rfl, Or.inr rfl⟩
  exact Or.inl rfl

omit [DecidableEq Peer] in
theorem Joins.sheet_eq {entity : ServerEntity Peer Fighter} (joins : Joins battle after entity)
    (sound : battle.Sound) (other : UInt32) :
    after.sheet other =
      if other = entity.id then { standing := some Fighter.spawned.standing, casts := [] }
      else battle.sheet other := by
  have casts : after.castsOf other = battle.castsOf other := by
    rw [castsOf, castsOf, joins.world]
  have found : after.getEntity other =
      if entity.id = other then some entity else battle.getEntity other := by
    rw [getEntity, joins.entities, KeyedList.find_cons]
    rfl
  rw [sheet, casts, found]
  by_cases here : other = entity.id
  · have absent : battle.getEntity other = none := by
      rw [here]
      exact KeyedList.find_eq_none_of_not_mem joins.new
    have silent := (sound.sheets other).absent ((standing_eq_none_iff battle other).mpr absent)
    change battle.castsOf other = [] at silent
    rw [if_pos here, if_pos here.symm, silent, Option.map_some, joins.spawned]
  rw [if_neg here, if_neg (Ne.symm here)]
  rfl

theorem Sound.quiet_joins (sound : battle.Sound) {entity : ServerEntity Peer Fighter}
    (joins : Joins battle (battle.step hmacSha256 physics event) entity)
    (still : ∀ resources, battle.rested event resources = resources) :
    Quiet hmacSha256 physics battle event := by
  have sheets := joins.sheet_eq sound
  apply quiet_of_same
  · refine ⟨?_, ?_⟩
    · rw [EidolonApp.ids, joins.entities]
      exact List.nodup_cons.mpr ⟨joins.new, sound.distinct⟩
    intro other
    rw [sheets, joins.world]
    split
    · apply Sheet.tracked_of_idle
      · rfl
      · intro standing held
        cases held
        rfl
      intro standing held
      cases held
      rfl
    exact sound.sheets other
  · exact still
  intro other
  change _ ∨ (((battle.step hmacSha256 physics event).sheet other).casts = [] ∧ _)
  rw [sheets]
  split
  · rename_i here
    refine Or.inr ⟨rfl, Or.inl ((standing_eq_none_iff battle other).mpr ?_)⟩
    rw [here]
    exact KeyedList.find_eq_none_of_not_mem joins.new
  exact Or.inl rfl

inductive Outcome (hmacSha256 : List UInt8 → List UInt8 → FixedBytes 32) (physics : Physics)
    (battle : Battle Peer) (event : BattleEvent Peer) : Prop
  | cast (peer : Peer) (bytes : List UInt8) (targetId abilityId : UInt32)
      (caster : ServerEntity Peer Fighter) (definition : AbilityDefinition)
      (received : event = .app (.datagram peer bytes))
      (requested : requestOf bytes = some (.castAbility targetId abilityId))
      (accepts : Accepts battle peer abilityId caster definition)
      (pays : Pays battle (battle.step hmacSha256 physics event) caster definition)
  | quiet (quiet : Quiet hmacSha256 physics battle event)
      (refused : ∀ peer bytes targetId abilityId caster definition,
        event = .app (.datagram peer bytes) →
        requestOf bytes = some (.castAbility targetId abilityId) →
        ¬ Accepts battle peer abilityId caster definition)

theorem Sound.quiet_of_struck (sound : battle.Sound)
    (struck : Struck battle (battle.step hmacSha256 physics event))
    (still : ∀ resources, battle.rested event resources = resources) :
    Quiet hmacSha256 physics battle event :=
  quiet_of_kept (sound.keptBy struck) still

theorem Sound.quiet_datagram (sound : battle.Sound) {peer : Peer} {bytes : List UInt8}
    (noCast : ∀ targetId abilityId, requestOf bytes ≠ some (.castAbility targetId abilityId)) :
    Quiet hmacSha256 physics battle (.app (.datagram peer bytes)) := by
  have still : ∀ resources,
      battle.rested (.app (.datagram peer bytes)) resources = resources := fun _ => rfl
  have elsewhere : battle.step hmacSha256 physics (.app (.datagram peer bytes)) =
      EidolonApp.step hmacSha256 peaceful battle (.datagram peer bytes) →
      Quiet hmacSha256 physics battle (.app (.datagram peer bytes)) := by
    intro result
    rcases @step_datagram_cases _ _ hmacSha256 battle peer bytes with struck | ⟨entity, joins⟩
    · rw [← result] at struck
      exact sound.quiet_of_struck struck still
    rw [← result] at joins
    exact sound.quiet_joins joins still
  have unrequested : (∀ targetId param, requestOf bytes ≠ some (.melee targetId param)) →
      Quiet hmacSha256 physics battle (.app (.datagram peer bytes)) := by
    intro noMelee
    have result : Struck battle (battle.step hmacSha256 physics (.app (.datagram peer bytes))) ∨
        battle.step hmacSha256 physics (.app (.datagram peer bytes)) =
          EidolonApp.step hmacSha256 peaceful battle (.datagram peer bytes) := by
      rw [step]
      split
      · rename_i requested
        exact absurd requested (noCast _ _)
      · rename_i requested
        exact absurd requested (noMelee _ _)
      split
      · left
        split
        · exact struck_steer physics battle peer _
        exact Struck.refl battle
      exact Or.inr rfl
    rcases result with struck | result
    · exact sound.quiet_of_struck struck still
    exact elsewhere result
  rcases requested : requestOf bytes with _ | request
  · apply unrequested
    intro _ _ isMelee
    rw [requested] at isMelee
    cases isMelee
  cases request with
  | castAbility targetId abilityId => exact absurd requested (noCast targetId abilityId)
  | melee targetId param =>
    apply sound.quiet_of_struck _ still
    simp only [step, requested]
    exact struck_melee battle peer targetId param
  | challenge | finalize | equipItem | unequipItem | chat | party =>
    apply unrequested
    intro _ _ isMelee
    rw [requested] at isMelee
    cases isMelee

theorem Sound.outcome (sound : battle.Sound) (event : BattleEvent Peer)
    (ticks : TicksLeft battle event) : Outcome hmacSha256 physics battle event := by
  cases event with
  | damage sourceId targetId rawDamage =>
    refine .quiet ?_ ?_
    · exact sound.quiet_of_struck (battle.struck_damageEntity sourceId targetId rawDamage)
        fun _ => rfl
    intro _ _ _ _ _ _ received
    cases received
  | app event =>
    cases event with
    | tick =>
      refine .quiet sound.quiet_tick ?_
      intro _ _ _ _ _ _ received
      cases received
    | kickPlayer entityId =>
      refine .quiet (sound.quiet_kick entityId) ?_
      intro _ _ _ _ _ _ received
      cases received
    | datagram peer bytes =>
      by_cases isCast : ∃ targetId abilityId,
          requestOf bytes = some (.castAbility targetId abilityId)
      · rcases isCast with ⟨targetId, abilityId, requested⟩
        have result : battle.step hmacSha256 physics (.app (.datagram peer bytes)) =
            battle.castAbility physics peer targetId abilityId := by
          simp only [step, requested]
        by_cases accepted : ∃ caster definition, Accepts battle peer abilityId caster definition
        · rcases accepted with ⟨caster, definition, accepts⟩
          refine .cast peer bytes targetId abilityId caster definition rfl requested accepts ?_
          rw [result]
          apply sound.pays accepts
          have small := definition.castDurationTicks.toNat_lt
          have left : battle.world.currentTick.toNat + 2 ^ 32 ≤ 2 ^ 64 := ticks
          omega
        have refused : ∀ caster definition, ¬ Accepts battle peer abilityId caster definition :=
          fun caster definition accepts => accepted ⟨caster, definition, accepts⟩
        refine .quiet ?_ ?_
        · apply sound.quiet_of_struck _ fun _ => rfl
          rw [result, castAbility_of_refused refused]
          exact Struck.refl battle
        intro _ _ _ _ caster definition received otherRequested
        cases received
        rw [requested] at otherRequested
        cases otherRequested
        exact refused caster definition
      refine .quiet (sound.quiet_datagram ?_) ?_
      · intro targetId abilityId requested
        exact isCast ⟨targetId, abilityId, requested⟩
      intro _ _ targetId abilityId _ _ received requested
      cases received
      exact absurd ⟨targetId, abilityId, requested⟩ isCast

theorem Sound.step (sound : battle.Sound) (event : BattleEvent Peer)
    (ticks : TicksLeft battle event) : (battle.step hmacSha256 physics event).Sound := by
  have outcome : Outcome hmacSha256 physics battle event := sound.outcome event ticks
  cases outcome with
  | cast peer bytes targetId abilityId caster definition received requested accepts pays =>
    exact pays.sound
  | quiet quiet refused => exact quiet.sound

end Battle

end Eidolon.Server
