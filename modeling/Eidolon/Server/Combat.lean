import Eidolon.Core.Quant
import Eidolon.Server.Facade
import Eidolon.World.Ability

/-!
# Combat

Abilities and their casts, melee attacks, and the part of a tick that is about them.  How a
fighter moves and what lies in a cone or a box is computed in floating point and is a
parameter.  What is sent is kept in a log, with the tick at which it was sent; of the casts
of an entity, as long as the entity is there.
-/

namespace Eidolon.Server

open Core Library Net World

variable {Peer : Type}

structure Motion where
  position : Vec3Fix
  velocity : Vec3Fix
  yaw : QuantizedYaw
  flags : UInt8
  airborneTicks : UInt16
  deriving DecidableEq

structure Fighter where
  motion : Motion
  health : UInt32
  maxHealth : UInt32
  mana : UInt32
  maxMana : UInt32
  castState : CastState
  cooldowns : CooldownTracker

inductive CastEvent where
  | started (abilityId durationTicks : UInt32)
  | interrupted (abilityId : UInt32) (reason : UInt8)
  | completed (abilityId : UInt32)
  deriving DecidableEq

/-- Actions are 1 for melee, 2 for magic, 3 for a heal and 4 for a death. -/
inductive CombatMessage (Peer : Type) where
  | combatAction (sourceId targetId : UInt32) (action : UInt8) (value : UInt32)
  | cast (casterId : UInt32) (event : CastEvent)
  | lootAcquired (peer : Peer) (entityId itemId amount : UInt32)

structure Arena (Peer : Type) where
  currentTick : UInt64
  sent : List (UInt64 × CombatMessage Peer)

abbrev Battle (Peer : Type) :=
  EidolonApp Peer Fighter (Arena Peer)

structure Physics where
  move : Motion → Motion
  steer : List UInt8 → Motion → Motion
  testCone : Vec3Fix → QuantizedYaw → Nat → Fixed64 → Fixed64 → Vec3Fix → Bool
  testBox : Vec3Fix → QuantizedYaw → Fixed64 → Fixed64 → Fixed64 → Vec3Fix → Bool

def testSphere (origin : Vec3Fix) (radius : Fixed64) (target : Vec3Fix) : Bool :=
  if radius ≤ Fixed64.zero then false
  else decide ((target.sub origin).magnitudeSquared ≤ radius.saturatingMul radius)

namespace Fighter

def spawned : Fighter where
  motion :=
    { position := Vec3Fix.fromI32 100 0 100
      velocity := Vec3Fix.fromI32 0 0 0
      yaw := ⟨0⟩
      flags := 0
      airborneTicks := 0 }
  health := 100
  maxHealth := 100
  mana := 100
  maxMana := 100
  castState := .idle
  cooldowns := CooldownTracker.new

def breakDistanceSquared : Fixed64 :=
  Fixed64.fromRaw (Int64.ofInt (Fixed64.scale / 4))

def brokenCast (fighter : Fighter) : Option UInt32 :=
  match fighter.castState with
  | .idle => none
  | .casting abilityId _ _ _ startPos allowMovement =>
    if allowMovement = false ∧
        breakDistanceSquared < (fighter.motion.position.sub startPos).magnitudeSquared then
      some abilityId
    else none

def completedCast (currentTick : UInt64) (fighter : Fighter) : Option (UInt32 × UInt32) :=
  match fighter.castState with
  | .idle => none
  | .casting abilityId targetId startTick durationTicks _ _ =>
    if fighter.brokenCast = none ∧ startTick + durationTicks.toUInt64 ≤ currentTick then
      some (abilityId, targetId)
    else none

def afterProgress (currentTick : UInt64) (fighter : Fighter) : Fighter :=
  if fighter.brokenCast = none ∧ fighter.completedCast currentTick = none then fighter
  else { fighter with castState := .idle }

def regenerated (fighter : Fighter) : Fighter :=
  if fighter.mana < fighter.maxMana then
    { fighter with mana := min (fighter.mana + 5) fighter.maxMana }
  else fighter

end Fighter

/-- What handles everything else leaves bodies alone; what was sent about the casts of an
entity is forgotten when it leaves. -/
def peaceful : Gameplay Peer Fighter (Arena Peer) where
  spawnBody := Fighter.spawned
  enter _ arena := arena
  leave entityId arena :=
    { arena with
      sent := arena.sent.filter fun message =>
        match message.2 with
        | .cast casterId _ => decide (casterId ≠ entityId)
        | _ => true }
  bodyAfter _ _ entity := entity.body
  worldAfter app _ := app.world

namespace Battle

variable (battle : Battle Peer)

def getEntity (entityId : UInt32) : Option (ServerEntity Peer Fighter) :=
  KeyedList.find ServerEntity.id battle.entities entityId

def alter (change : UInt32 → Fighter → Fighter) : Battle Peer :=
  { battle with
    entities := battle.entities.map fun entity =>
      { entity with body := change entity.id entity.body } }

def modify (entityId : UInt32) (change : Fighter → Fighter) : Battle Peer :=
  battle.alter fun other body => if other = entityId then change body else body

def send (message : CombatMessage Peer) : Battle Peer :=
  { battle with
    world := { battle.world with
      sent := battle.world.sent ++ [(battle.world.currentTick, message)] } }

/-- Damage with the attack power of the source and the armor of the target; it interrupts a
cast.  The first component is whether the target was killed. -/
def damageEntity (sourceId targetId rawDamage : UInt32) : Bool × Battle Peer :=
  let attackPowerBonus :=
    match battle.getEntity sourceId with
    | some source => source.equipment.computeStats.attackPower
    | none => 0
  let totalDamage := saturatingAdd32 rawDamage attackPowerBonus
  match battle.getEntity targetId with
  | none => (false, battle)
  | some target =>
    let effectiveDamage := max (saturatingSub32 totalDamage target.equipment.computeStats.armor) 1
    let health := saturatingSub32 target.body.health effectiveDamage
    let struck := battle.modify targetId fun body =>
      { body with castState := .idle, health := health }
    (decide (health = 0),
      match target.body.castState with
      | .casting abilityId _ _ _ _ _ => struck.send (.cast targetId (.interrupted abilityId 2))
      | .idle => struck)

/-- Magic damage to one target; a caster with a peer may get loot for a kill. -/
def strike (casterId targetId baseDamage : UInt32) (loots : Bool) : Battle Peer :=
  let (killed, battle) := battle.damageEntity casterId targetId baseDamage
  let battle := battle.send (.combatAction casterId targetId 2 baseDamage)
  if killed then
    let battle := battle.send (.combatAction casterId targetId 4 0)
    match (battle.getEntity casterId).bind ServerEntity.peerAddr with
    | some peer => if loots then battle.send (.lootAcquired peer targetId 1001 50) else battle
    | none => battle
  else battle

def heal (casterId targetId baseHeal : UInt32) : Battle Peer :=
  let healed := battle.modify targetId fun body =>
    { body with health := min (body.health + baseHeal) body.maxHealth }
  healed.send (.combatAction casterId targetId 3 baseHeal)

def strikeAll (casterId baseDamage : UInt32) (inside : Vec3Fix → Bool) (loots : Bool) :
    Battle Peer :=
  let hits := battle.entities.filter fun entity =>
    decide (entity.id ≠ casterId) && inside entity.body.motion.position
  (hits.map ServerEntity.id).foldl (fun battle targetId =>
      if 0 < baseDamage then battle.strike casterId targetId baseDamage loots else battle)
    battle

variable (physics : Physics)

def resolveAbilityCompletion (battle : Battle Peer) (casterId abilityId targetId : UInt32) :
    Battle Peer :=
  match battle.getEntity casterId with
  | none => battle
  | some caster =>
    match getAbilityDefinition abilityId with
    | none => battle
    | some definition =>
      let casterPos := caster.body.motion.position
      let casterYaw := caster.body.motion.yaw
      let battle := battle.send (.cast casterId (.completed abilityId))
      match definition.shape with
      | .singleTarget maxRange =>
        match battle.getEntity targetId with
        | none => battle
        | some target =>
          let diff := target.body.motion.position.sub casterPos
          if diff.magnitudeSquared ≤ maxRange.saturatingMul maxRange then
            if 0 < definition.baseDamage then
              battle.strike casterId targetId definition.baseDamage true
            else if 0 < definition.baseHeal then
              battle.heal casterId targetId definition.baseHeal
            else battle
          else battle
      | .forwardCone halfAngleDeg maxDistance maxHeight =>
        battle.strikeAll casterId definition.baseDamage
          (physics.testCone casterPos casterYaw halfAngleDeg maxDistance maxHeight) true
      | .radiusSphere radius =>
        battle.strikeAll casterId definition.baseDamage (testSphere casterPos radius) true
      | .forwardBox length width height =>
        battle.strikeAll casterId definition.baseDamage
          (physics.testBox casterPos casterYaw length width height) false

section Packets

variable [DecidableEq Peer]

def castAbility (physics : Physics) (battle : Battle Peer) (peer : Peer)
    (targetId abilityId : UInt32) : Battle Peer :=
  match battle.playerOf peer with
  | none => battle
  | some caster =>
    let currentTick := battle.world.currentTick
    match getAbilityDefinition abilityId with
    | none => battle
    | some definition =>
      if definition.resourceCost ≤ caster.body.mana ∧
          caster.body.cooldowns.isReady abilityId currentTick = true then
        let charged := battle.modify caster.id fun body =>
          { body with
            mana := saturatingSub32 body.mana definition.resourceCost
            cooldowns :=
              body.cooldowns.trigger abilityId currentTick definition.cooldownTicks }
        if definition.castDurationTicks = 0 then
          charged.resolveAbilityCompletion physics caster.id abilityId targetId
        else
          let casting := charged.modify caster.id fun body =>
            { body with
              castState := CastState.startCast abilityId targetId currentTick
                definition.castDurationTicks body.motion.position
                definition.allowMovement }
          casting.send (.cast caster.id (.started abilityId definition.castDurationTicks))
      else battle

def melee (battle : Battle Peer) (peer : Peer) (targetId param : UInt32) : Battle Peer :=
  let sourceId :=
    match battle.playerOf peer with
    | some player => player.id
    | none => 0
  let (killed, battle) := battle.damageEntity sourceId targetId param
  let battle := battle.send (.combatAction sourceId targetId 1 param)
  if killed then
    (battle.send (.combatAction sourceId targetId 4 0)).send (.lootAcquired peer targetId 1001 50)
  else battle

def steer (physics : Physics) (battle : Battle Peer) (peer : Peer) (payload : List UInt8) :
    Battle Peer :=
  match battle.playerOf peer with
  | none => battle
  | some player =>
    battle.modify player.id fun body =>
      { body with motion := physics.steer payload body.motion }

end Packets

/-- Casts are broken or completed in one pass; only then is told which were broken, and the
completed abilities take effect one after another. -/
def progressCasts (battle : Battle Peer) : Battle Peer :=
  let currentTick := battle.world.currentTick
  let interruptedCasts := battle.entities.filterMap fun entity =>
    entity.body.brokenCast.map fun abilityId => (entity.id, abilityId)
  let completedCasts := battle.entities.filterMap fun entity =>
    (entity.body.completedCast currentTick).map fun cast => (entity.id, cast)
  let passed := battle.alter fun _ => Fighter.afterProgress currentTick
  let told := interruptedCasts.foldl
    (fun battle broken => battle.send (.cast broken.1 (.interrupted broken.2 1))) passed
  completedCasts.foldl
    (fun battle ended => battle.resolveAbilityCompletion physics ended.1 ended.2.1 ended.2.2) told

def simulate (battle : Battle Peer) : Battle Peer :=
  let moved := battle.alter fun _ body => { body with motion := physics.move body.motion }
  let progressed := moved.progressCasts physics
  let rested :=
    if progressed.world.currentTick % 20 = 0 then progressed.alter fun _ => Fighter.regenerated
    else progressed
  { rested with world := { rested.world with currentTick := rested.world.currentTick + 1 } }

end Battle

/-- What happens to a battle: an event of the application, or damage from elsewhere. -/
inductive BattleEvent (Peer : Type) where
  | app (event : Event Peer)
  | damage (sourceId targetId rawDamage : UInt32)

namespace Battle

variable [DecidableEq Peer]

def step (hmacSha256 : List UInt8 → List UInt8 → FixedBytes 32) (physics : Physics)
    (battle : Battle Peer) : BattleEvent Peer → Battle Peer
  | .damage sourceId targetId rawDamage => (battle.damageEntity sourceId targetId rawDamage).2
  | .app .tick => battle.simulate physics
  | .app (.kickPlayer entityId) => EidolonApp.step hmacSha256 peaceful battle (.kickPlayer entityId)
  | .app (.datagram peer bytes) =>
    match requestOf bytes with
    | some (.castAbility targetId abilityId) => battle.castAbility physics peer targetId abilityId
    | some (.melee targetId param) => battle.melee peer targetId param
    | _ =>
      match payloadOf bytes with
      | some (.stateUpdate, payload) =>
        if 13 ≤ payload.length then battle.steer physics peer payload else battle
      | _ => EidolonApp.step hmacSha256 peaceful battle (.datagram peer bytes)

end Battle

end Eidolon.Server
