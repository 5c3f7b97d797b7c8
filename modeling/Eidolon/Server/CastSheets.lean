import Eidolon.Server.Combat
import Eidolon.Server.HandshakeSoundness

/-!
# Cast sheets

What combat does, as far as casts are concerned: for each entity its cast, its mana and its
cooldowns, and what was told about its casts.  Whatever strikes an entity changes its sheet
at most by the interruption of its cast.
-/

namespace Eidolon.Server

open Core Library Net Option World

variable {Peer : Type}

structure Resources where
  mana : UInt32
  maxMana : UInt32
  cooldowns : CooldownTracker

structure Standing where
  castState : CastState
  resources : Resources

def Standing.stopped (standing : Standing) : Standing :=
  { standing with castState := .idle }

/-- What an entity is doing, if it is there, and what was told about its casts. -/
structure Sheet where
  standing : Option Standing
  casts : List (UInt64 × CastEvent)

namespace Sheet

variable (sheet : Sheet)

def change (changed : Standing → Standing) : Sheet :=
  { sheet with standing := sheet.standing.map changed }

def tell (time : UInt64) (event : CastEvent) : Sheet :=
  { sheet with casts := sheet.casts ++ [(time, event)] }

def interrupted (sheet : Sheet) (time : UInt64) (reason : UInt8) : Sheet :=
  match sheet.standing with
  | none => sheet
  | some standing =>
    match standing.castState with
    | .idle => sheet
    | .casting abilityId _ _ _ _ _ =>
      { standing := some standing.stopped
        casts := sheet.casts ++ [(time, .interrupted abilityId reason)] }

theorem interrupted_of_idle {sheet : Sheet}
    (idle : ∀ standing ∈ sheet.standing, standing.castState = .idle) (time : UInt64)
    (reason : UInt8) : sheet.interrupted time reason = sheet := by
  rcases held : sheet.standing with _ | standing
  · rw [interrupted, held]
  rw [interrupted, held]
  simp only
  rw [idle standing held]

theorem idle_interrupted (time : UInt64) (reason : UInt8) :
    ∀ standing ∈ (sheet.interrupted time reason).standing, standing.castState = .idle := by
  intro standing here
  unfold interrupted at here
  split at here
  · rename_i absent
    rw [absent] at here
    cases here
  rename_i before held
  split at here
  · rename_i idle
    rw [held] at here
    cases here
    exact idle
  cases here
  rfl

end Sheet

def Fighter.standing (fighter : Fighter) : Standing where
  castState := fighter.castState
  resources :=
    { mana := fighter.mana
      maxMana := fighter.maxMana
      cooldowns := fighter.cooldowns }

def castFor (entityId : UInt32) (message : UInt64 × CombatMessage Peer) :
    Option (UInt64 × CastEvent) :=
  match message.2 with
  | .cast casterId event => if casterId = entityId then some (message.1, event) else none
  | _ => none

theorem castFor_cast (entityId casterId : UInt32) (event : CastEvent) (time : UInt64) :
    castFor entityId (time, (CombatMessage.cast casterId event : CombatMessage Peer)) =
      if casterId = entityId then some (time, event) else none :=
  rfl

theorem castFor_of_silent {message : CombatMessage Peer}
    (silent : ∀ casterId event, message ≠ .cast casterId event) (entityId : UInt32)
    (time : UInt64) : castFor entityId (time, message) = none := by
  cases message with
  | cast casterId event => exact absurd rfl (silent casterId event)
  | _ => rfl

namespace Battle

variable (battle : Battle Peer) (entityId : UInt32)

def castsOf : List (UInt64 × CastEvent) :=
  battle.world.sent.filterMap (castFor entityId)

def sheet : Sheet where
  standing := (battle.getEntity entityId).map fun entity => entity.body.standing
  casts := battle.castsOf entityId

variable (change : UInt32 → Fighter → Fighter)

theorem getEntity_alter (entityId : UInt32) : (battle.alter change).getEntity entityId =
      (battle.getEntity entityId).map fun entity =>
        { entity with body := change entityId entity.body } := by
  have lookup : ∀ entities : List (ServerEntity Peer Fighter), KeyedList.find ServerEntity.id
          (entities.map fun entity => { entity with body := change entity.id entity.body })
          entityId =
        (KeyedList.find ServerEntity.id entities entityId).map fun entity =>
          { entity with body := change entityId entity.body } := by
    intro entities
    induction entities with
    | nil => rfl
    | cons head rest ih =>
      rw [List.map_cons, KeyedList.find_cons, KeyedList.find_cons]
      by_cases here : head.id = entityId
      · rw [if_pos here, if_pos here, ← here]
        rfl
      rw [if_neg here, if_neg here]
      exact ih
  exact lookup battle.entities

theorem ids_alter : (battle.alter change).ids = battle.ids := by
  rw [EidolonApp.ids, alter, List.map_map]
  rfl

theorem ids_modify (change : Fighter → Fighter) :
    (battle.modify entityId change).ids = battle.ids :=
  ids_alter battle _

variable (message : CombatMessage Peer)

theorem ids_send : (battle.send message).ids = battle.ids :=
  rfl

theorem sheet_alter (battle : Battle Peer) {change : UInt32 → Fighter → Fighter}
    {entityId : UInt32} {changed : Standing → Standing}
    (acts : ∀ body, (change entityId body).standing = changed body.standing) :
    (battle.alter change).sheet entityId = (battle.sheet entityId).change changed := by
  have standing : (battle.alter change |>.getEntity entityId).map
      (fun entity => entity.body.standing) =
        ((battle.getEntity entityId).map fun entity => entity.body.standing).map changed := by
    rw [getEntity_alter, Option.map_map, Option.map_map]
    congr 1
    funext entity
    exact acts entity.body
  rw [sheet, standing]
  rfl

theorem sheet_modify {change : Fighter → Fighter} {changed : Standing → Standing}
    (acts : ∀ body, (change body).standing = changed body.standing) (other : UInt32) :
    (battle.modify entityId change).sheet other =
      if other = entityId then (battle.sheet other).change changed else battle.sheet other := by
  by_cases here : other = entityId
  · rw [if_pos here]
    apply sheet_alter
    intro body
    rw [if_pos here]
    exact acts body
  rw [if_neg here, modify, @sheet_alter _ _ _ other id]
  · rw [Sheet.change, Option.map_id]
    rfl
  intro body
  rw [if_neg here]
  rfl

theorem sheet_send (entityId : UInt32) : (battle.send message).sheet entityId =
      { standing := (battle.sheet entityId).standing
        casts := (battle.sheet entityId).casts ++
          (castFor entityId (battle.world.currentTick, message)).toList } := by
  have casts : (battle.send message).castsOf entityId = battle.castsOf entityId ++
        (castFor entityId (battle.world.currentTick, message)).toList := by
    rw [castsOf, send, List.filterMap_append, List.filterMap_cons]
    cases castFor entityId (battle.world.currentTick, message) with
    | _ => rfl
  rw [sheet, casts]
  rfl

variable (casterId : UInt32)

theorem sheet_send_cast (event : CastEvent) (entityId : UInt32) :
    (battle.send (.cast casterId event)).sheet entityId =
      if entityId = casterId then
        (battle.sheet entityId).tell battle.world.currentTick event
      else battle.sheet entityId := by
  rw [sheet_send, castFor_cast]
  by_cases here : entityId = casterId
  · rw [if_pos here, if_pos here.symm]
    rfl
  rw [if_neg here, if_neg (Ne.symm here), toList_none, List.append_nil]

theorem sheet_send_of_silent {message : CombatMessage Peer}
    (silent : ∀ casterId event, message ≠ .cast casterId event) (entityId : UInt32) :
    (battle.send message).sheet entityId = battle.sheet entityId := by
  rw [sheet_send, castFor_of_silent silent, toList_none, List.append_nil]

def wounded (health : UInt32) (body : Fighter) : Fighter :=
  { body with castState := .idle, health := health }

theorem damageEntity_cases (sourceId targetId rawDamage : UInt32) :
    (battle.getEntity targetId = none ∧
      (battle.damageEntity sourceId targetId rawDamage).2 = battle) ∨
    ∃ target health, battle.getEntity targetId = some target ∧ ((target.body.castState = .idle ∧
          (battle.damageEntity sourceId targetId rawDamage).2 =
            battle.modify targetId (wounded health)) ∨
        ∃ abilityId other startTick durationTicks startPos allowMovement, target.body.castState =
            .casting abilityId other startTick durationTicks startPos allowMovement ∧
          (battle.damageEntity sourceId targetId rawDamage).2 =
            (battle.modify targetId (wounded health)).send
              (.cast targetId (.interrupted abilityId 2))) := by
  rcases found : battle.getEntity targetId with _ | target
  · refine .inl ⟨rfl, ?_⟩
    simp only [damageEntity, found]
  cases cast : target.body.castState with
  | idle =>
    have result : ∃ health, (battle.damageEntity sourceId targetId rawDamage).2 =
        battle.modify targetId (wounded health) := by
      simp only [damageEntity, found, cast]
      exact ⟨_, rfl⟩
    rcases result with ⟨health, result⟩
    exact .inr ⟨target, health, rfl, .inl ⟨cast, result⟩⟩
  | casting abilityId other startTick durationTicks startPos allowMovement =>
    have result : ∃ health, (battle.damageEntity sourceId targetId rawDamage).2 =
        (battle.modify targetId (wounded health)).send
          (.cast targetId (.interrupted abilityId 2)) := by
      simp only [damageEntity, found, cast]
      exact ⟨_, rfl⟩
    rcases result with ⟨health, result⟩
    exact .inr ⟨target, health, rfl, .inr ⟨_, _, _, _, _, _, cast, result⟩⟩

theorem sheet_damageEntity (sourceId targetId rawDamage entityId : UInt32) :
    (battle.damageEntity sourceId targetId rawDamage).2.sheet entityId =
      if entityId = targetId then
        (battle.sheet entityId).interrupted battle.world.currentTick 2
      else battle.sheet entityId := by
  have stops : ∀ health body, (wounded health body).standing = body.standing.stopped :=
    fun _ _ => rfl
  rcases battle.damageEntity_cases sourceId targetId rawDamage with
    ⟨absent, unchanged⟩ | ⟨target, health, found, outcome⟩
  · rw [unchanged]
    by_cases here : entityId = targetId
    · rw [if_pos here, Sheet.interrupted_of_idle]
      intro standing held
      rw [here, sheet, absent] at held
      cases held
    rw [if_neg here]
  have standing : (battle.sheet targetId).standing = some target.body.standing := by
    rw [sheet, found]
    rfl
  rcases outcome with ⟨idle, result⟩ |
    ⟨abilityId, other, startTick, durationTicks, startPos, allowMovement, cast, result⟩
  · rw [result, sheet_modify battle targetId (stops health)]
    by_cases here : entityId = targetId
    · have same : (battle.sheet targetId).change Standing.stopped = battle.sheet targetId := by
        rw [Sheet.change, standing, map_some, Standing.stopped, sheet, found]
        simp only [map_some, Fighter.standing, idle]
      rw [if_pos here, if_pos here, here, same, Sheet.interrupted_of_idle]
      intro held isHeld
      rw [standing] at isHeld
      cases isHeld
      exact idle
    rw [if_neg here, if_neg here]
  rw [result, sheet_send_cast, sheet_modify battle targetId (stops health)]
  by_cases here : entityId = targetId
  · rw [here, Sheet.interrupted, standing]
    simp only [Fighter.standing, cast]
    rw [Sheet.change, standing]
    rfl
  rw [if_neg here, if_neg here, if_neg here]

/-- The same entities, at the same tick, and each sheet as it was or with its cast
interrupted by damage. -/
structure Struck (battle after : Battle Peer) : Prop where
  ids : after.ids = battle.ids
  tick : after.world.currentTick = battle.world.currentTick
  sheets : ∀ entityId, after.sheet entityId = battle.sheet entityId ∨
    after.sheet entityId = (battle.sheet entityId).interrupted battle.world.currentTick 2

namespace Struck

variable {battle middle after : Battle Peer}

theorem refl (battle : Battle Peer) : Struck battle battle where
  ids := rfl
  tick := rfl
  sheets _ := .inl rfl

theorem trans (first : Struck battle middle) (second : Struck middle after) :
    Struck battle after := by
  refine ⟨second.ids.trans first.ids, second.tick.trans first.tick, ?_⟩
  intro entityId
  rcases second.sheets entityId with same | struck
  · rw [same]
    exact first.sheets entityId
  rcases first.sheets entityId with wasSame | wasStruck
  · rw [struck, first.tick, wasSame]
    exact .inr rfl
  have idle := Sheet.idle_interrupted (battle.sheet entityId) battle.world.currentTick 2
  rw [struck, wasStruck, Sheet.interrupted_of_idle idle]
  exact .inr rfl

theorem of_send (struck : Struck battle middle) {message : CombatMessage Peer}
    (silent : ∀ casterId event, message ≠ .cast casterId event) :
    Struck battle (middle.send message) := by
  apply struck.trans
  exact ⟨rfl, rfl, fun entityId => .inl (middle.sheet_send_of_silent silent entityId)⟩

end Struck

theorem struck_alter {change : UInt32 → Fighter → Fighter}
    (acts : ∀ entityId body, (change entityId body).standing = body.standing) :
    Struck battle (battle.alter change) := by
  refine ⟨ids_alter battle change, rfl, ?_⟩
  intro entityId
  rw [@sheet_alter _ battle change entityId id (acts entityId), Sheet.change, Option.map_id]
  exact .inl rfl

theorem struck_damageEntity (sourceId targetId rawDamage : UInt32) :
    Struck battle (battle.damageEntity sourceId targetId rawDamage).2 := by
  refine ⟨?_, ?_, ?_⟩
  · rcases battle.damageEntity_cases sourceId targetId rawDamage with
      ⟨_, result⟩ | ⟨_, _, _, ⟨_, result⟩ | ⟨_, _, _, _, _, _, _, result⟩⟩
    · rw [result]
    · rw [result, ids_modify]
    rw [result, ids_send, ids_modify]
  · rcases battle.damageEntity_cases sourceId targetId rawDamage with
      ⟨_, result⟩ | ⟨_, _, _, ⟨_, result⟩ | ⟨_, _, _, _, _, _, _, result⟩⟩
    · rw [result]
    · rw [result]
      rfl
    rw [result]
    rfl
  intro entityId
  rw [sheet_damageEntity]
  split
  · exact .inr rfl
  exact .inl rfl

theorem struck_strike (targetId baseDamage : UInt32) (loots : Bool) :
    Struck battle (battle.strike casterId targetId baseDamage loots) := by
  have damaged := battle.struck_damageEntity casterId targetId baseDamage
  have told : Struck battle ((battle.damageEntity casterId targetId baseDamage).2.send
      (.combatAction casterId targetId 2 baseDamage)) :=
    damaged.of_send fun _ _ same => by cases same
  have died : Struck battle (((battle.damageEntity casterId targetId baseDamage).2.send
      (.combatAction casterId targetId 2 baseDamage)).send (.combatAction casterId targetId 4 0)) :=
    told.of_send fun _ _ same => by cases same
  unfold strike
  simp only
  split
  · split
    · split
      · exact died.of_send fun _ _ same => by cases same
      exact died
    exact died
  exact told

theorem struck_heal (targetId baseHeal : UInt32) :
    Struck battle (battle.heal casterId targetId baseHeal) := by
  apply Struck.of_send
  · apply struck_alter
    intro entityId body
    split <;> rfl
  exact fun _ _ same => by cases same

theorem struck_strikeAll (baseDamage : UInt32) (inside : Vec3Fix → Bool) (loots : Bool) :
    Struck battle (battle.strikeAll casterId baseDamage inside loots) := by
  have each : ∀ (targets : List UInt32) (start : Battle Peer), Struck start (targets.foldl
        (fun battle targetId =>
          if 0 < baseDamage then battle.strike casterId targetId baseDamage loots else battle)
        start) := by
    intro targets
    induction targets with
    | nil =>
      intro start
      exact Struck.refl start
    | cons target rest ih =>
      intro start
      have head : Struck start
          (if 0 < baseDamage then start.strike casterId target baseDamage loots else start) := by
        split
        · exact start.struck_strike casterId target baseDamage loots
        exact Struck.refl start
      exact head.trans (ih _)
  exact each _ battle

theorem struck_resolveAbilityCompletion (physics : Physics) (battle : Battle Peer)
    {casterId abilityId : UInt32} {caster : ServerEntity Peer Fighter}
    {definition : AbilityDefinition} (found : battle.getEntity casterId = some caster)
    (defined : getAbilityDefinition abilityId = some definition) (targetId : UInt32) :
    Struck (battle.send (.cast casterId (.completed abilityId)))
      (battle.resolveAbilityCompletion physics casterId abilityId targetId) := by
  simp only [resolveAbilityCompletion, found, defined]
  split
  · split
    · exact Struck.refl _
    split
    · split
      · exact struck_strike _ _ _ _ _
      split
      · exact struck_heal _ _ _ _
      exact Struck.refl _
    exact Struck.refl _
  · exact struck_strikeAll _ _ _ _ _
  · exact struck_strikeAll _ _ _ _ _
  exact struck_strikeAll _ _ _ _ _

theorem struck_melee [DecidableEq Peer] (peer : Peer) (targetId param : UInt32) :
    Struck battle (battle.melee peer targetId param) := by
  have outcome : ∀ sourceId, Struck battle (if (battle.damageEntity sourceId targetId param).1 then
        (((battle.damageEntity sourceId targetId param).2.send
          (.combatAction sourceId targetId 1 param)).send
            (.combatAction sourceId targetId 4 0)).send (.lootAcquired peer targetId 1001 50)
      else
        (battle.damageEntity sourceId targetId param).2.send
          (.combatAction sourceId targetId 1 param)) := by
    intro sourceId
    have told : Struck battle ((battle.damageEntity sourceId targetId param).2.send
        (.combatAction sourceId targetId 1 param)) :=
      (battle.struck_damageEntity sourceId targetId param).of_send fun _ _ same => by cases same
    split
    · apply Struck.of_send
      · exact told.of_send fun _ _ same => by cases same
      exact fun _ _ same => by cases same
    exact told
  exact outcome _

theorem struck_steer [DecidableEq Peer] (physics : Physics) (battle : Battle Peer) (peer : Peer)
    (payload : List UInt8) : Struck battle (battle.steer physics peer payload) := by
  unfold steer
  split
  · exact Struck.refl battle
  apply struck_alter
  intro entityId body
  split <;> rfl

section Casting

variable [DecidableEq Peer]

structure Accepts (battle : Battle Peer) (peer : Peer) (abilityId : UInt32)
    (caster : ServerEntity Peer Fighter) (definition : AbilityDefinition) : Prop where
  player : battle.playerOf peer = some caster
  defined : getAbilityDefinition abilityId = some definition
  affordable : definition.resourceCost ≤ caster.body.mana
  ready : caster.body.cooldowns.isReady abilityId battle.world.currentTick = true

end Casting

def charge (abilityId : UInt32) (definition : AbilityDefinition) : Battle Peer :=
  battle.modify casterId fun body =>
    { body with
      mana := saturatingSub32 body.mana definition.resourceCost
      cooldowns := body.cooldowns.trigger abilityId battle.world.currentTick
        definition.cooldownTicks }

def commence (abilityId targetId : UInt32) (definition : AbilityDefinition) : Battle Peer :=
  (battle.modify casterId fun body =>
    { body with
      castState := CastState.startCast abilityId targetId battle.world.currentTick
        definition.castDurationTicks body.motion.position definition.allowMovement }).send
    (.cast casterId (.started abilityId definition.castDurationTicks))

section Casting

variable [DecidableEq Peer] {battle : Battle Peer} {peer : Peer} {abilityId : UInt32}

theorem castAbility_of_refused
    (refused : ∀ caster definition, ¬ Accepts battle peer abilityId caster definition)
    (physics : Physics) (targetId : UInt32) :
    battle.castAbility physics peer targetId abilityId = battle := by
  unfold castAbility
  split
  · rfl
  rename_i caster player
  split
  · rfl
  rename_i definition defined
  rw [if_neg]
  intro accepted
  exact refused caster definition ⟨player, defined, accepted.1, accepted.2⟩

theorem Accepts.castAbility_eq {caster : ServerEntity Peer Fighter}
    {definition : AbilityDefinition} (accepts : Accepts battle peer abilityId caster definition)
    (physics : Physics) (targetId : UInt32) :
    battle.castAbility physics peer targetId abilityId =
      if definition.castDurationTicks = 0 then
        (battle.charge caster.id abilityId definition).resolveAbilityCompletion physics
          caster.id abilityId targetId
      else
        (battle.charge caster.id abilityId definition).commence caster.id abilityId targetId
          definition := by
  simp only [castAbility, accepts.player, accepts.defined]
  rw [if_pos ⟨accepts.affordable, accepts.ready⟩]
  rfl

end Casting

end Battle

def Resources.charged (resources : Resources) (abilityId : UInt32) (currentTick : UInt64)
    (definition : AbilityDefinition) : Resources :=
  { resources with
    mana := saturatingSub32 resources.mana definition.resourceCost
    cooldowns := resources.cooldowns.trigger abilityId currentTick definition.cooldownTicks }

namespace Battle

theorem sheet_charge (battle : Battle Peer) (casterId abilityId : UInt32)
    (definition : AbilityDefinition) (entityId : UInt32) :
    (battle.charge casterId abilityId definition).sheet entityId =
      if entityId = casterId then
        (battle.sheet entityId).change fun standing =>
          { standing with
            resources := standing.resources.charged abilityId battle.world.currentTick definition }
      else battle.sheet entityId := by
  apply sheet_modify
  intro body
  rfl

theorem getEntity_charge {battle : Battle Peer} {casterId : UInt32}
    {caster : ServerEntity Peer Fighter} (found : battle.getEntity casterId = some caster)
    (abilityId : UInt32) (definition : AbilityDefinition) :
    ∃ charged, (battle.charge casterId abilityId definition).getEntity casterId = some charged := by
  rw [charge, modify, getEntity_alter, found]
  exact ⟨_, rfl⟩

end Battle

end Eidolon.Server
