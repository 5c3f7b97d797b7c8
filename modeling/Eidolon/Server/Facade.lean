import Eidolon.Library.KeyedList
import Eidolon.Library.Run
import Eidolon.Server.Dispatch
import Eidolon.World.Transaction

/-!
# The server application

Entities, accounts and the handling of what arrives: a datagram, a simulation tick or the
order to kick a player.

An entity keeps its identity and its equipment here.  The rest of its fields is its
`body`, and what the server holds besides entities and accounts is its `world`.  Combat,
casts, chat, parties, movement and ticks change nothing but bodies and the world; how
they do is the parameter `Gameplay`.  Of the replies, only handshake answers and
equipment changes are kept.
-/

namespace Eidolon.Server

open Core Library Net World

variable {Peer Body World : Type}

/-- An active entity of the simulation. -/
structure ServerEntity (Peer Body : Type) where
  id : UInt32
  equipment : EquipmentContainer
  peerAddr : Option Peer
  accountId : Option UInt64
  sessionId : Option UInt64
  body : Body

/-- The entities are listed in the order in which the map is iterated. -/
structure EidolonApp (Peer Body World : Type) where
  entities : List (ServerEntity Peer Body)
  accounts : Accounts
  serverSecret : List UInt8
  serverNonce : FixedBytes nonceLen
  world : World

/-- What makes the server act. -/
inductive Event (Peer : Type) where
  | datagram (peer : Peer) (bytes : List UInt8)
  | tick
  | kickPlayer (entityId : UInt32)

inductive Reply (Peer : Type) where
  | challengeResponse (peer : Peer) (response : ConnectChallengeResponse)
  | finalizeResponse (peer : Peer) (response : ConnectFinalizeResponse)
  | equipmentChanged (entityId : UInt32) (slot : UInt8) (itemId : UInt32)

/-- The effects on bodies and the world. -/
structure Gameplay (Peer Body World : Type) where
  spawnBody : Body
  enter : UInt32 → World → World
  leave : UInt32 → World → World
  bodyAfter : EidolonApp Peer Body World → Event Peer → ServerEntity Peer Body → Body
  worldAfter : EidolonApp Peer Body World → Event Peer → World

/-- The payload of a datagram with a valid header, with its packet type.  What does not fit
into the receive buffer is lost. -/
def payloadOf (bytes : List UInt8) : Option (PacketType × List UInt8) :=
  let received := bytes.take maxPacketSize
  match PacketHeader.readFrom received with
  | .error _ => none
  | .ok (header, headerLen) => some (header.packetType, received.drop headerLen)

def requestOf (bytes : List UInt8) : Option Request :=
  match payloadOf bytes with
  | some (.reliableMessage, payload) => dispatchReliable payload
  | _ => none

def Request.Plays : Request → Prop
  | .melee _ _ | .castAbility _ _ | .chat _ _ _ | .party _ _ => True
  | .challenge _ | .finalize _ | .equipItem _ _ | .unequipItem _ => False

def playerEid (accountId : UInt64) : UInt32 :=
  (accountId &&& (0x0FFF : UInt64)).toUInt32

def sessionIdOf (accountId : UInt64) : UInt64 :=
  accountId ^^^ (0xA5A5 : UInt64)

namespace EidolonApp

variable (gameplay : Gameplay Peer Body World) (app : EidolonApp Peer Body World)

def play (event : Event Peer) : EidolonApp Peer Body World :=
  { app with
    entities := app.entities.map fun entity =>
      { entity with body := gameplay.bodyAfter app event entity }
    world := gameplay.worldAfter app event }

def spawnPlayer (entityId : UInt32) (accountId sessionId : UInt64) (peer : Peer) :
    EidolonApp Peer Body World :=
  let entity : ServerEntity Peer Body :=
    { id := entityId
      equipment := EquipmentContainer.new
      peerAddr := some peer
      accountId := some accountId
      sessionId := some sessionId
      body := gameplay.spawnBody }
  { app with
    entities := entity :: app.entities.filter fun other => decide (other.id ≠ entityId)
    world := gameplay.enter entityId app.world }

def despawnEntity (entityId : UInt32) : EidolonApp Peer Body World :=
  { app with
    entities := app.entities.filter fun entity => decide (entity.id ≠ entityId)
    world := gameplay.leave entityId app.world }

section Handshake

variable (hmacSha256 : List UInt8 → List UInt8 → FixedBytes 32)

def answerChallenge (app : EidolonApp Peer Body World) (peer : Peer)
    (request : ConnectChallengeRequest) : List (Reply Peer) :=
  [.challengeResponse peer
    { serverNonce := app.serverNonce
      authCookie := computeAuthCookie hmacSha256 app.serverSecret request.accountId
        request.clientNonce app.serverNonce }]

end Handshake

/-- Confirms a session and spawns its player, unless the entity is there already. -/
def finalizeConnection (peer : Peer) (request : ConnectFinalizeRequest) :
    EidolonApp Peer Body World × List (Reply Peer) :=
  let sessionId := sessionIdOf request.accountId
  let response : ConnectFinalizeResponse :=
    { sessionId := sessionId
      authorityEpoch := 1
      serverProof := FixedBytes.replicate 32 0xEE }
  let entityId := playerEid request.accountId
  (if app.entities.any fun entity => decide (entity.id = entityId) then app
    else app.spawnPlayer gameplay entityId request.accountId sessionId peer,
    [.finalizeResponse peer response])

theorem finalizeConnection_cases (peer : Peer) (request : ConnectFinalizeRequest) :
    ((∃ entity ∈ app.entities, entity.id = playerEid request.accountId) ∧
      (app.finalizeConnection gameplay peer request).1 = app) ∨
    ((∀ entity ∈ app.entities, entity.id ≠ playerEid request.accountId) ∧
      (app.finalizeConnection gameplay peer request).1 =
        { app with
          entities :=
            { id := playerEid request.accountId
              equipment := EquipmentContainer.new
              peerAddr := some peer
              accountId := some request.accountId
              sessionId := some (sessionIdOf request.accountId)
              body := gameplay.spawnBody } :: app.entities
          world := gameplay.enter (playerEid request.accountId) app.world }) := by
  have named : (app.entities.any fun entity =>
      decide (entity.id = playerEid request.accountId)) = true ↔
      ∃ entity ∈ app.entities, entity.id = playerEid request.accountId := by
    simp [List.any_eq_true]
  by_cases taken : ∃ entity ∈ app.entities, entity.id = playerEid request.accountId
  · exact Or.inl ⟨taken, if_pos (named.mpr taken)⟩
  have free : ∀ entity ∈ app.entities, entity.id ≠ playerEid request.accountId :=
    fun entity here same => taken ⟨entity, here, same⟩
  have others : (app.entities.filter fun other =>
      decide (other.id ≠ playerEid request.accountId)) = app.entities :=
    List.filter_eq_self.mpr fun entity here => decide_eq_true (free entity here)
  refine Or.inr ⟨free, ?_⟩
  simp only [finalizeConnection]
  rw [if_neg fun found => taken (named.mp found), spawnPlayer, others]

section Equipment

variable [DecidableEq Peer] (app : EidolonApp Peer Body World) (peer : Peer)

def playerOf : Option (ServerEntity Peer Body) :=
  KeyedList.find ServerEntity.peerAddr app.entities (some peer)

def setPlayer (player : ServerEntity Peer Body) : EidolonApp Peer Body World :=
  { app with
    entities := KeyedList.replace ServerEntity.peerAddr app.entities (some peer) player }

/-- The account part of an equip request: the accounts after it and the item that the
entity is to wear.  Whether equipping succeeded is not looked at. -/
def equipOnAccount (accounts : Accounts) (accountId : Option UInt64) (inventorySlot : UInt32)
    (slot : EquipmentSlot) : Accounts × UInt32 :=
  match accountId with
  | none => (accounts, max inventorySlot 1)
  | some accountId =>
    match accounts.lookup accountId with
    | none => (accounts, max inventorySlot 1)
    | some account =>
      let changed := (account.equipItem inventorySlot.toNat slot).2
      (accounts.insert accountId changed, (changed.equipment.get slot).getD (max inventorySlot 1))

def equipItem (inventorySlot : UInt32) (slot : EquipmentSlot) :
    EidolonApp Peer Body World × List (Reply Peer) :=
  match app.playerOf peer with
  | none => (app, [])
  | some player =>
    let (accounts, equippedItem) :=
      equipOnAccount app.accounts player.accountId inventorySlot slot
    let equipment := (player.equipment.equip slot equippedItem).2
    ({ app with accounts := accounts }.setPlayer peer { player with equipment := equipment },
      [.equipmentChanged player.id slot.asU8 equippedItem])

def unequipOnAccount (accounts : Accounts) (accountId : Option UInt64) (slot : EquipmentSlot) :
    Accounts :=
  match accountId with
  | none => accounts
  | some accountId =>
    match accounts.lookup accountId with
    | none => accounts
    | some account => accounts.insert accountId (account.unequipItem slot).2

def unequipItem (slot : EquipmentSlot) : EidolonApp Peer Body World × List (Reply Peer) :=
  match app.playerOf peer with
  | none => (app, [])
  | some player =>
    let accounts := unequipOnAccount app.accounts player.accountId slot
    let equipment := (player.equipment.unequip slot).2
    ({ app with accounts := accounts }.setPlayer peer { player with equipment := equipment },
      [.equipmentChanged player.id slot.asU8 0])

/-- What becomes of an equip or unequip request: nothing for a peer without an entity, else
its first entity is told to wear something else. -/
inductive Reequipped (app : EidolonApp Peer Body World) (peer : Peer) (slot : EquipmentSlot) :
    EidolonApp Peer Body World × List (Reply Peer) → Prop
  | absent (missing : app.playerOf peer = none) : Reequipped app peer slot (app, [])
  | changed (player : ServerEntity Peer Body) (accounts : Accounts)
      (equipment : EquipmentContainer) (itemId : UInt32)
      (found : app.playerOf peer = some player) :
      Reequipped app peer slot
        ({ app with accounts := accounts }.setPlayer peer { player with equipment := equipment },
          [.equipmentChanged player.id slot.asU8 itemId])

theorem reequipped_equipItem (inventorySlot : UInt32) (slot : EquipmentSlot) :
    Reequipped app peer slot (app.equipItem peer inventorySlot slot) := by
  unfold equipItem
  rcases found : app.playerOf peer with _ | player
  · exact .absent found
  exact .changed player _ _ _ found

theorem reequipped_unequipItem (slot : EquipmentSlot) :
    Reequipped app peer slot (app.unequipItem peer slot) := by
  unfold unequipItem
  rcases found : app.playerOf peer with _ | player
  · exact .absent found
  exact .changed player _ _ _ found

end Equipment

variable [DecidableEq Peer] (hmacSha256 : List UInt8 → List UInt8 → FixedBytes 32)

def handle (gameplay : Gameplay Peer Body World) (app : EidolonApp Peer Body World)
    (event : Event Peer) : EidolonApp Peer Body World × List (Reply Peer) :=
  match event with
  | .tick => (app.play gameplay event, [])
  | .kickPlayer entityId => (app.despawnEntity gameplay entityId, [])
  | .datagram peer bytes =>
    match payloadOf bytes with
    | none => (app, [])
    | some (.reliableMessage, payload) =>
      match dispatchReliable payload with
      | none => (app, [])
      | some (.challenge request) => (app, app.answerChallenge hmacSha256 peer request)
      | some (.finalize request) => app.finalizeConnection gameplay peer request
      | some (.equipItem inventorySlot slot) => app.equipItem peer inventorySlot slot
      | some (.unequipItem slot) => app.unequipItem peer slot
      | some (.melee _ _) | some (.castAbility _ _) | some (.chat _ _ _)
      | some (.party _ _) => (app.play gameplay event, [])
    | some (.stateUpdate, payload) =>
      -- a movement intent has at least thirteen bytes
      if 13 ≤ payload.length then (app.play gameplay event, []) else (app, [])
    | some (_, _) => (app, [])

def step (gameplay : Gameplay Peer Body World) (app : EidolonApp Peer Body World)
    (event : Event Peer) : EidolonApp Peer Body World :=
  (app.handle hmacSha256 gameplay event).1

variable {hmacSha256 : List UInt8 → List UInt8 → FixedBytes 32}
variable {gameplay : Gameplay Peer Body World}

inductive Handling (hmacSha256 : List UInt8 → List UInt8 → FixedBytes 32)
    (gameplay : Gameplay Peer Body World) (app : EidolonApp Peer Body World) :
    Event Peer → Prop
  | tick (result : app.handle hmacSha256 gameplay .tick = (app.play gameplay .tick, [])) :
      Handling hmacSha256 gameplay app .tick
  | kick (entityId : UInt32)
      (result : app.handle hmacSha256 gameplay (.kickPlayer entityId) =
        (app.despawnEntity gameplay entityId, [])) :
      Handling hmacSha256 gameplay app (.kickPlayer entityId)
  | ignored (peer : Peer) (bytes : List UInt8) (requested : requestOf bytes = none)
      (result : app.handle hmacSha256 gameplay (.datagram peer bytes) = (app, [])) :
      Handling hmacSha256 gameplay app (.datagram peer bytes)
  | played (peer : Peer) (bytes : List UInt8)
      (requested : ∀ request, requestOf bytes = some request → request.Plays)
      (result : app.handle hmacSha256 gameplay (.datagram peer bytes) =
        (app.play gameplay (.datagram peer bytes), [])) :
      Handling hmacSha256 gameplay app (.datagram peer bytes)
  | challenge (peer : Peer) (bytes : List UInt8) (request : ConnectChallengeRequest)
      (requested : requestOf bytes = some (.challenge request))
      (result : app.handle hmacSha256 gameplay (.datagram peer bytes) =
        (app, app.answerChallenge hmacSha256 peer request)) :
      Handling hmacSha256 gameplay app (.datagram peer bytes)
  | finalize (peer : Peer) (bytes : List UInt8) (request : ConnectFinalizeRequest)
      (requested : requestOf bytes = some (.finalize request))
      (result : app.handle hmacSha256 gameplay (.datagram peer bytes) =
        app.finalizeConnection gameplay peer request) :
      Handling hmacSha256 gameplay app (.datagram peer bytes)
  | equipItem (peer : Peer) (bytes : List UInt8) (inventorySlot : UInt32) (slot : EquipmentSlot)
      (requested : requestOf bytes = some (.equipItem inventorySlot slot))
      (result : app.handle hmacSha256 gameplay (.datagram peer bytes) =
        app.equipItem peer inventorySlot slot) :
      Handling hmacSha256 gameplay app (.datagram peer bytes)
  | unequipItem (peer : Peer) (bytes : List UInt8) (slot : EquipmentSlot)
      (requested : requestOf bytes = some (.unequipItem slot))
      (result : app.handle hmacSha256 gameplay (.datagram peer bytes) =
        app.unequipItem peer slot) :
      Handling hmacSha256 gameplay app (.datagram peer bytes)

theorem handling_reliable (peer : Peer) (bytes : List UInt8) {payload : List UInt8}
    (carried : payloadOf bytes = some (.reliableMessage, payload)) :
    Handling hmacSha256 gameplay app (.datagram peer bytes) := by
  have requested : requestOf bytes = dispatchReliable payload := by
    rw [requestOf, carried]
  rcases decoded : dispatchReliable payload with _ | request
  · refine .ignored peer bytes (requested.trans decoded) ?_
    simp only [handle, carried, decoded]
  rw [decoded] at requested
  cases request with
  | challenge request =>
    refine .challenge peer bytes request requested ?_
    simp only [handle, carried, decoded]
  | finalize request =>
    refine .finalize peer bytes request requested ?_
    simp only [handle, carried, decoded]
  | equipItem inventorySlot slot =>
    refine .equipItem peer bytes inventorySlot slot requested ?_
    simp only [handle, carried, decoded]
  | unequipItem slot =>
    refine .unequipItem peer bytes slot requested ?_
    simp only [handle, carried, decoded]
  | melee | castAbility | chat | party =>
    refine .played peer bytes ?_ ?_
    · intro request received
      rw [requested] at received
      cases received
      exact trivial
    simp only [handle, carried, decoded]

theorem handling (event : Event Peer) : Handling hmacSha256 gameplay app event := by
  cases event with
  | tick => exact .tick rfl
  | kickPlayer entityId => exact .kick entityId rfl
  | datagram peer bytes =>
    rcases carried : payloadOf bytes with _ | ⟨packetType, payload⟩
    · refine .ignored peer bytes ?_ ?_
      · rw [requestOf, carried]
      simp only [handle, carried]
    cases packetType with
    | reliableMessage => exact handling_reliable app peer bytes carried
    | heartbeat | ackOnly | disconnect =>
      refine .ignored peer bytes ?_ ?_
      · rw [requestOf, carried]
      simp only [handle, carried]
    | stateUpdate =>
      have requested : requestOf bytes = none := by rw [requestOf, carried]
      by_cases whole : 13 ≤ payload.length
      · refine .played peer bytes ?_ ?_
        · intro request received
          rw [requested] at received
          cases received
        simp only [handle, carried]
        rw [if_pos whole]
      refine .ignored peer bytes requested ?_
      simp only [handle, carried]
      rw [if_neg whole]

end EidolonApp

end Eidolon.Server
