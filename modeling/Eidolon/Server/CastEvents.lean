import Eidolon.Server.CastRuns

/-!
# Events and casts

What one event does to the cast sheets.  An ability that is accepted is paid for by its
caster; the events that are about something else leave the sheets alone, but entities come
and go.
-/

namespace Eidolon.Server

open Core Library Net World

variable {Peer : Type} [DecidableEq Peer]

namespace Battle

variable {battle : Battle Peer}

/-- What casting an ability does to the caster; to the others it does no more than damage. -/
structure Pays (battle after : Battle Peer) (caster : ServerEntity Peer Fighter)
    (definition : AbilityDefinition) : Prop where
  sound : after.Sound
  others : ∀ entityId, entityId ≠ caster.id →
    (battle.sheet entityId).Keeps (after.sheet entityId)
  told : ∃ new, after.castsOf caster.id = battle.castsOf caster.id ++ new ∧
    new.filterMap chargeOf = [(battle.world.currentTick, definition)]
  accounted : ∃ standing, (after.sheet caster.id).standing = some standing ∧
    Accounted caster.body.standing.resources standing.resources
      [(battle.world.currentTick, definition)]
  episodes : Episodic (marks (battle.castsOf caster.id)) →
    (Episodic (marks (after.castsOf caster.id)) ↔
      (definition.castDurationTicks ≠ 0 → caster.body.castState = .idle))

section Caster

variable {casterId abilityId : UInt32} {caster : ServerEntity Peer Fighter}
variable {definition : AbilityDefinition}

omit [DecidableEq Peer] in
theorem standing_of_getEntity (found : battle.getEntity casterId = some caster) :
    (battle.sheet casterId).standing = some caster.body.standing := by
  rw [sheet, found]
  rfl

omit [DecidableEq Peer] in
theorem Sound.charge (sound : battle.Sound)
    (defined : getAbilityDefinition abilityId = some definition) (casterId : UInt32) :
    (battle.charge casterId abilityId definition).Sound := by
  constructor
  · rw [Battle.charge, ids_modify]
    exact sound.distinct
  intro entityId
  have tracked := sound.sheets entityId
  rw [sheet_charge]
  split
  · apply tracked.change
    · exact fun _ => rfl
    intro standing held
    exact (tracked.sorted standing held).trigger (abilityId_of_defined defined).2 _ _
  exact tracked

omit [DecidableEq Peer] in
theorem sheet_commence (found : battle.getEntity casterId = some caster)
    (abilityId targetId : UInt32) (definition : AbilityDefinition) (entityId : UInt32) :
    (battle.commence casterId abilityId targetId definition).sheet entityId =
      if entityId = casterId then
        { standing := some { caster.body.standing with
            castState := CastState.startCast abilityId targetId battle.world.currentTick
              definition.castDurationTicks caster.body.motion.position
              definition.allowMovement }
          casts := (battle.sheet entityId).casts ++
            [(battle.world.currentTick, .started abilityId definition.castDurationTicks)] }
      else battle.sheet entityId := by
  rw [commence, sheet_send_cast]
  by_cases here : entityId = casterId
  · rw [if_pos here, if_pos here, here, sheet, modify, getEntity_alter, found]
    simp only [Option.map_some, if_true]
    rfl
  rw [if_neg here, if_neg here, modify, @sheet_alter _ _ _ entityId id]
  · rw [Sheet.change, Option.map_id]
    rfl
  intro body
  rw [if_neg here]
  rfl

omit [DecidableEq Peer] in
theorem Sound.pays_instant (sound : battle.Sound) (physics : Physics)
    (found : battle.getEntity caster.id = some caster)
    (defined : getAbilityDefinition abilityId = some definition)
    (affordable : definition.resourceCost ≤ caster.body.mana)
    (instant : definition.castDurationTicks = 0) (targetId : UInt32) :
    Pays battle ((battle.charge caster.id abilityId definition).resolveAbilityCompletion physics
      caster.id abilityId targetId) caster definition := by
  have charged := sound.charge defined caster.id
  have standing := standing_of_getEntity found
  have payer : (battle.charge caster.id abilityId definition).sheet caster.id =
      { standing := some { caster.body.standing with
          resources := caster.body.standing.resources.charged abilityId
            battle.world.currentTick definition }
        casts := battle.castsOf caster.id } := by
    rw [sheet_charge, if_pos rfl, Sheet.change, standing]
    rfl
  have present : ((battle.charge caster.id abilityId definition).sheet caster.id).standing ≠
      none := by
    rw [payer]
    exact Option.some_ne_none _
  have completed := (charged.sheets caster.id).instant present defined instant
  have told := fun entityId =>
    (battle.charge caster.id abilityId definition).sheet_send_cast caster.id
      (.completed abilityId) entityId
  have toldTracked : ∀ entityId, (((battle.charge caster.id abilityId definition).send
        (.cast caster.id (.completed abilityId))).sheet entityId).Tracked
          battle.world.currentTick none := by
    intro entityId
    rw [told]
    split
    · rename_i isCaster
      rw [isCaster]
      exact completed.1
    exact charged.sheets entityId
  obtain ⟨entity, entityFound⟩ := getEntity_charge found abilityId definition
  have struck := struck_resolveAbilityCompletion physics _ entityFound defined targetId
  have kept := struck.kept toldTracked
  have keptCaster := (kept caster.id).2
  rw [told, if_pos rfl, payer] at keptCaster
  refine ⟨⟨?_, ?_⟩, ?_, ?_, ?_, ?_⟩
  · rw [struck.ids]
    exact charged.distinct
  · intro entityId
    rw [struck.tick]
    exact (kept entityId).1
  · intro entityId isOther
    have keptOther := (kept entityId).2
    rw [told, if_neg isOther, sheet_charge, if_neg isOther] at keptOther
    exact keptOther
  · obtain ⟨new, toldNew, free⟩ := keptCaster.told
    refine ⟨(battle.world.currentTick, .completed abilityId) :: new, ?_, ?_⟩
    · rw [List.append_cons]
      exact toldNew
    have charge : chargeOf (battle.world.currentTick, .completed abilityId) =
        some (battle.world.currentTick, definition) := by
      simp [chargeOf, defined, instant]
    rw [List.filterMap_cons, charge, free]
  · obtain ⟨after, held, resources⟩ := Option.map_eq_some_iff.mp keptCaster.resources
    refine ⟨after, held, ?_⟩
    rw [resources]
    have sorted := (sound.sheets caster.id).sorted _ standing
    exact Resources.accounted_charged sorted defined affordable _
  intro good
  refine iff_of_true ?_ fun lasts => absurd instant lasts
  have goodTold := completed.2
  rw [payer] at goodTold
  exact keptCaster.episodes (goodTold good)

omit [DecidableEq Peer] in
theorem Sound.pays_commence (sound : battle.Sound)
    (found : battle.getEntity caster.id = some caster)
    (defined : getAbilityDefinition abilityId = some definition)
    (affordable : definition.resourceCost ≤ caster.body.mana)
    (lasts : definition.castDurationTicks ≠ 0)
    (inTime : battle.world.currentTick.toNat + definition.castDurationTicks.toNat < 2 ^ 64)
    (targetId : UInt32) :
    Pays battle ((battle.charge caster.id abilityId definition).commence caster.id abilityId
      targetId definition) caster definition := by
  have charged := sound.charge defined caster.id
  have standing := standing_of_getEntity found
  obtain ⟨entity, entityFound⟩ := getEntity_charge found abilityId definition
  have entityStanding := standing_of_getEntity entityFound
  have paid : entity.body.standing =
      { caster.body.standing with
        resources := caster.body.standing.resources.charged abilityId
          battle.world.currentTick definition } := by
    rw [sheet_charge, if_pos rfl, Sheet.change, standing] at entityStanding
    exact (Option.some.inj entityStanding).symm
  have sheets := sheet_commence entityFound abilityId targetId definition
  have casts : ∀ entityId, ((battle.charge caster.id abilityId definition).sheet entityId).casts =
        battle.castsOf entityId := by
    intro entityId
    rw [sheet_charge]
    split <;> rfl
  have started := (charged.sheets caster.id).started entityStanding defined lasts inTime targetId
    entity.body.motion.position
  have casterSheet := sheets caster.id
  rw [if_pos rfl] at casterSheet
  have casterCasts : ((battle.charge caster.id abilityId definition).commence caster.id abilityId
      targetId definition).castsOf caster.id = battle.castsOf caster.id ++
        [(battle.world.currentTick, .started abilityId definition.castDurationTicks)] := by
    have told := congrArg Sheet.casts casterSheet
    rw [casts] at told
    exact told
  refine ⟨⟨?_, ?_⟩, ?_, ?_, ?_, ?_⟩
  · have sameIds : ((battle.charge caster.id abilityId definition).commence caster.id abilityId
        targetId definition).ids = battle.ids := by
      rw [commence, ids_send, ids_modify, Battle.charge, ids_modify]
    rw [sameIds]
    exact sound.distinct
  · intro entityId
    rw [sheets]
    split
    · rename_i isCaster
      rw [isCaster]
      exact started.1
    exact charged.sheets entityId
  · intro entityId isOther
    rw [sheets, if_neg isOther, sheet_charge, if_neg isOther]
    exact Sheet.Keeps.refl _
  · refine ⟨_, casterCasts, ?_⟩
    simp [chargeOf, defined]
  · rw [casterSheet]
    refine ⟨_, rfl, ?_⟩
    rw [paid]
    have sorted := (sound.sheets caster.id).sorted _ standing
    exact Resources.accounted_charged sorted defined affordable _
  intro good
  have sequence := started.2
  rw [casts, paid] at sequence
  rw [casterCasts]
  exact (sequence good).trans ⟨fun idle _ => idle, fun idle => idle lasts⟩

end Caster

theorem Sound.pays {peer : Peer} {abilityId : UInt32} {caster : ServerEntity Peer Fighter}
    {definition : AbilityDefinition} (sound : battle.Sound)
    (accepts : Accepts battle peer abilityId caster definition)
    (inTime : battle.world.currentTick.toNat + definition.castDurationTicks.toNat < 2 ^ 64)
    (physics : Physics) (targetId : UInt32) :
    Pays battle (battle.castAbility physics peer targetId abilityId) caster definition := by
  have found : battle.getEntity caster.id = some caster :=
    (KeyedList.find_eq_some_iff sound.distinct).mpr ⟨KeyedList.mem_of_find accepts.player, rfl⟩
  rw [accepts.castAbility_eq]
  by_cases instant : definition.castDurationTicks = 0
  · rw [if_pos instant]
    exact sound.pays_instant physics found accepts.defined accepts.affordable instant targetId
  rw [if_neg instant]
  exact sound.pays_commence found accepts.defined accepts.affordable instant inTime targetId

def bodies (battle : Battle Peer) : List (UInt32 × Fighter) :=
  battle.entities.map fun entity => (entity.id, entity.body)

omit [DecidableEq Peer] in
theorem standing_eq (battle : Battle Peer) (entityId : UInt32) : (battle.sheet entityId).standing =
      (KeyedList.find Prod.fst battle.bodies entityId).map fun named => named.2.standing := by
  rw [bodies, KeyedList.find_map_pair, Option.map_map]
  rfl

omit [DecidableEq Peer] in
theorem struck_of_bodies {after : Battle Peer} (bodies : after.bodies = battle.bodies)
    (world : after.world = battle.world) : Struck battle after := by
  refine ⟨?_, congrArg Arena.currentTick world, ?_⟩
  · have named := congrArg (List.map Prod.fst) bodies
    simp only [Battle.bodies, List.map_map] at named
    exact named
  intro entityId
  have standing := after.standing_eq entityId
  rw [bodies, ← standing_eq] at standing
  have casts : after.castsOf entityId = battle.castsOf entityId := by
    rw [castsOf, castsOf, world]
  left
  rw [sheet, sheet] at standing ⊢
  rw [casts]
  exact congrArg (Sheet.mk · _) standing

structure Joins (battle after : Battle Peer) (entity : ServerEntity Peer Fighter) : Prop where
  entities : after.entities = entity :: battle.entities
  world : after.world = battle.world
  new : entity.id ∉ battle.ids
  spawned : entity.body = Fighter.spawned

variable {hmacSha256 : List UInt8 → List UInt8 → FixedBytes 32}

theorem struck_of_reequipped {battle : Battle Peer} {peer : Peer} {slot : EquipmentSlot}
    {result : Battle Peer × List (Reply Peer)}
    (reequipped : EidolonApp.Reequipped battle peer slot result) : Struck battle result.1 := by
  cases reequipped with
  | absent missing => exact Struck.refl battle
  | changed player accounts equipment itemId found =>
    apply struck_of_bodies
    · exact KeyedList.map_replace_of_find found rfl
    rfl

omit [DecidableEq Peer] in
theorem struck_play (battle : Battle Peer) (event : Event Peer) :
    Struck battle (battle.play peaceful event) := by
  apply struck_of_bodies
  · rw [bodies, EidolonApp.play, List.map_map]
    rfl
  rfl

theorem step_datagram_cases (battle : Battle Peer) (peer : Peer) (bytes : List UInt8) :
    Struck battle (EidolonApp.step hmacSha256 peaceful battle (.datagram peer bytes)) ∨
      ∃ entity, Joins battle
        (EidolonApp.step hmacSha256 peaceful battle (.datagram peer bytes)) entity := by
  have handling : EidolonApp.Handling hmacSha256 peaceful battle (.datagram peer bytes) :=
    EidolonApp.handling battle (.datagram peer bytes)
  cases handling with
  | ignored _ _ requested result | challenge _ _ request requested result =>
    left
    rw [EidolonApp.step, result]
    exact Struck.refl battle
  | played _ _ requested result =>
    left
    rw [EidolonApp.step, result]
    exact struck_play battle _
  | equipItem _ _ inventorySlot slot requested result =>
    left
    rw [EidolonApp.step, result]
    exact struck_of_reequipped (EidolonApp.reequipped_equipItem battle peer inventorySlot slot)
  | unequipItem _ _ slot requested result =>
    left
    rw [EidolonApp.step, result]
    exact struck_of_reequipped (EidolonApp.reequipped_unequipItem battle peer slot)
  | finalize _ _ request requested result =>
    rw [EidolonApp.step, result]
    rcases EidolonApp.finalizeConnection_cases peaceful battle peer request with
      ⟨_, same⟩ | ⟨free, spawned⟩
    · left
      rw [same]
      exact Struck.refl battle
    right
    have new : playerEid request.accountId ∉ battle.ids := by
      intro listed
      obtain ⟨entity, here, same⟩ := List.mem_map.mp listed
      exact free entity here same
    rw [spawned]
    exact ⟨_, rfl, rfl, new, rfl⟩

end Battle

end Eidolon.Server
