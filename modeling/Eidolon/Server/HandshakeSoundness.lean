import Eidolon.Server.Facade

/-!
# Soundness of the handshake

What would have to be checked before a player is spawned, and when the server does what
it should although it checks nothing: exactly in the runs in which every finalize request
happens to carry the cookie of an earlier challenge and the proof of its account.
-/

namespace Eidolon.Server

open Core Library List Net World

variable {Peer Body World : Type} [DecidableEq Peer]

def Event.request : Event Peer → Option Request
  | .datagram _ bytes => requestOf bytes
  | .tick | .kickPlayer _ => none

/-- The application together with the challenge requests it has received. -/
structure Observed (Peer Body World : Type) where
  app : EidolonApp Peer Body World
  challenges : List ConnectChallengeRequest

def challengesAfter (challenges : List ConnectChallengeRequest) (event : Event Peer) :
    List ConnectChallengeRequest :=
  match event.request with
  | some (.challenge request) => challenges ++ [request]
  | _ => challenges

section Soundness

variable (hmacSha256 : List UInt8 → List UInt8 → FixedBytes 32) (accountToken : UInt64 → List UInt8)
variable (gameplay : Gameplay Peer Body World)

def Observed.step (observed : Observed Peer Body World) (event : Event Peer) :
    Observed Peer Body World where
  app := observed.app.step hmacSha256 gameplay event
  challenges := challengesAfter observed.challenges event

variable (observed : Observed Peer Body World)

/-- The cookie of a finalize request is the one computed for its account and the nonces of
an earlier challenge, and its proof verifies under the token of the account. -/
def Genuine (request : ConnectFinalizeRequest) : Prop :=
  ∃ challenge ∈ observed.challenges, challenge.accountId = request.accountId ∧
    request.authCookie = computeAuthCookie hmacSha256 observed.app.serverSecret
      request.accountId challenge.clientNonce observed.app.serverNonce ∧
    verifyClientProof hmacSha256 (accountToken request.accountId) request.authCookie
      challenge.clientNonce observed.app.serverNonce request.clientProof = true

/-- An event spawns a player or confirms a session only when it is a genuine finalize
request, and one that is not changes nothing. -/
structure SoundStep (observed : Observed Peer Body World) (event : Event Peer) : Prop where
  spawns : ∀ entity ∈ (observed.app.step hmacSha256 gameplay event).entities,
    (∀ before ∈ observed.app.entities, before.id ≠ entity.id) →
    ∃ request, event.request = some (.finalize request) ∧
      entity.accountId = some request.accountId ∧
      Genuine hmacSha256 accountToken observed request
  confirms : ∀ peer response,
    .finalizeResponse peer response ∈ (observed.app.handle hmacSha256 gameplay event).2 →
    ∃ request, event.request = some (.finalize request) ∧
      response.sessionId = sessionIdOf request.accountId ∧
      Genuine hmacSha256 accountToken observed request
  forged : ∀ request, event.request = some (.finalize request) →
    ¬ Genuine hmacSha256 accountToken observed request →
    observed.app.step hmacSha256 gameplay event = observed.app

def GenuineFinalize (event : Event Peer) : Prop :=
  ∀ request, event.request = some (.finalize request) →
    Genuine hmacSha256 accountToken observed request

end Soundness

namespace EidolonApp

variable {hmacSha256 : List UInt8 → List UInt8 → FixedBytes 32}
variable {gameplay : Gameplay Peer Body World}

variable (app : EidolonApp Peer Body World)

/-- The identities of the entities, in their order. -/
def ids : List UInt32 :=
  app.entities.map ServerEntity.id

def identities : List (UInt32 × Option Peer × Option UInt64) :=
  app.entities.map fun entity => (entity.id, entity.peerAddr, entity.accountId)

omit [DecidableEq Peer] in
theorem ids_eq : app.ids = app.identities.map Prod.fst := by
  simp only [identities, ids, map_map]
  rfl

omit [DecidableEq Peer] in
theorem identities_play (event : Event Peer) :
    (app.play gameplay event).identities = app.identities := by
  simp only [identities, play, map_map]
  rfl

variable {app : EidolonApp Peer Body World} {peer : Peer}

theorem identities_setPlayer {player : ServerEntity Peer Body}
    (found : app.playerOf peer = some player) (equipment : EquipmentContainer) :
    (app.setPlayer peer { player with equipment := equipment }).identities = app.identities :=
  KeyedList.map_replace_of_find found rfl

theorem Reequipped.identities_eq {slot : EquipmentSlot}
    {result : EidolonApp Peer Body World × List (Reply Peer)}
    (reequipped : Reequipped app peer slot result) : result.1.identities = app.identities := by
  cases reequipped with
  | absent missing => rfl
  | changed player accounts equipment itemId found => exact identities_setPlayer found _

theorem Reequipped.replies {slot : EquipmentSlot}
    {result : EidolonApp Peer Body World × List (Reply Peer)}
    (reequipped : Reequipped app peer slot result) {reply : Reply Peer} (sent : reply ∈ result.2) :
    ∃ entityId itemId, reply = .equipmentChanged entityId slot.asU8 itemId := by
  cases reequipped with
  | absent missing => exact absurd sent not_mem_nil
  | changed player accounts equipment itemId found => exact ⟨_, _, List.mem_singleton.mp sent⟩

/-- The players came through the handshake: an entity of a peer has an account, and the
account says which entity it is. -/
structure Joined (app : EidolonApp Peer Body World) : Prop where
  distinct : app.ids.Nodup
  joined : ∀ entity ∈ app.entities, entity.peerAddr ≠ none →
    ∃ accountId, entity.accountId = some accountId
  keyed : ∀ entity ∈ app.entities, ∀ accountId, entity.accountId = some accountId →
    entity.id = playerEid accountId

omit [DecidableEq Peer] in
theorem Joined.of_sublist {changed : EidolonApp Peer Body World} (was : app.Joined)
    (fewer : changed.identities.Sublist app.identities) : changed.Joined := by
  have identity : ∀ entity ∈ changed.entities, ∃ before ∈ app.entities,
      before.id = entity.id ∧ before.peerAddr = entity.peerAddr ∧
        before.accountId = entity.accountId := by
    intro entity here
    obtain ⟨before, wasThere, same⟩ :=
      mem_map.mp (fewer.subset (mem_map_of_mem here))
    simp only [Prod.mk.injEq] at same
    exact ⟨before, wasThere, same⟩
  refine ⟨?_, ?_, ?_⟩
  · have distinct := was.distinct
    rw [ids_eq] at distinct ⊢
    exact distinct.sublist (fewer.map Prod.fst)
  · intro entity here peered
    obtain ⟨before, wasThere, _, samePeer, sameAccount⟩ := identity entity here
    rw [← sameAccount]
    exact was.joined before wasThere (by rw [samePeer]; exact peered)
  intro entity here accountId owned
  obtain ⟨before, wasThere, sameId, _, sameAccount⟩ := identity entity here
  rw [← sameId]
  exact was.keyed before wasThere accountId (by rw [sameAccount]; exact owned)

omit [DecidableEq Peer] in
theorem Joined.of_identities {changed : EidolonApp Peer Body World} (was : app.Joined)
    (same : changed.identities = app.identities) : changed.Joined := by
  apply was.of_sublist
  rw [same]

inductive Handled (hmacSha256 : List UInt8 → List UInt8 → FixedBytes 32)
    (gameplay : Gameplay Peer Body World) (app : EidolonApp Peer Body World)
    (event : Event Peer) : Prop
  | finalize (peer : Peer) (request : ConnectFinalizeRequest)
      (requested : event.request = some (.finalize request))
      (result : app.handle hmacSha256 gameplay event =
        app.finalizeConnection gameplay peer request)
  | other (notFinalize : ∀ request, event.request ≠ some (.finalize request))
      (idsKept : (app.step hmacSha256 gameplay event).ids ⊆ app.ids)
      (noConfirmation : ∀ peer response,
        .finalizeResponse peer response ∉ (app.handle hmacSha256 gameplay event).2)

theorem handled (app : EidolonApp Peer Body World) (event : Event Peer) :
    Handled hmacSha256 gameplay app event := by
  have handling : Handling hmacSha256 gameplay app event := handling app event
  cases handling with
  | tick result =>
    refine .other (fun request finalize => nomatch finalize) ?_ ?_
    · rw [step, result, ids_eq, ids_eq, identities_play]
      exact List.Subset.refl _
    simp [result]
  | kick entityId result =>
    refine .other (fun request finalize => nomatch finalize) ?_ ?_
    · exact map_subset _ (filter_subset_self _)
    simp [result]
  | ignored peer bytes requested result =>
    refine .other (by simp [Event.request, requested]) ?_ ?_
    · rw [step, result]
      exact List.Subset.refl _
    simp [result]
  | played peer bytes requested result =>
    refine .other (fun request finalize => requested _ finalize) ?_ ?_
    · rw [step, result, ids_eq, ids_eq, identities_play]
      exact List.Subset.refl _
    simp [result]
  | challenge peer bytes request requested result =>
    refine .other (by simp [Event.request, requested]) ?_ ?_
    · rw [step, result]
      exact List.Subset.refl _
    simp [result, answerChallenge]
  | finalize peer bytes request requested result => exact .finalize peer request requested result
  | equipItem peer bytes inventorySlot slot requested result =>
    refine .other (by simp [Event.request, requested]) ?_ ?_
    · rw [step, result, ids_eq, ids_eq, (reequipped_equipItem app _ _ _).identities_eq]
      exact List.Subset.refl _
    intro receiver response sent
    rw [result] at sent
    obtain ⟨_, _, isEquipment⟩ := (reequipped_equipItem app peer _ slot).replies sent
    cases isEquipment
  | unequipItem peer bytes slot requested result =>
    refine .other (by simp [Event.request, requested]) ?_ ?_
    · rw [step, result, ids_eq, ids_eq, (reequipped_unequipItem app _ _).identities_eq]
      exact List.Subset.refl _
    intro receiver response sent
    rw [result] at sent
    obtain ⟨_, _, isEquipment⟩ := (reequipped_unequipItem app peer slot).replies sent
    cases isEquipment

omit [DecidableEq Peer] in
theorem confirms_finalizeConnection (app : EidolonApp Peer Body World) (peer : Peer)
    (request : ConnectFinalizeRequest) {receiver : Peer} {response : ConnectFinalizeResponse}
    (sent : .finalizeResponse receiver response ∈ (app.finalizeConnection gameplay peer request).2) :
    response.sessionId = sessionIdOf request.accountId := by
  unfold finalizeConnection at sent
  simp only [mem_singleton, Reply.finalizeResponse.injEq] at sent
  rw [sent.2]

omit [DecidableEq Peer] in
theorem account_of_finalizeConnection (app : EidolonApp Peer Body World) (peer : Peer)
    (request : ConnectFinalizeRequest) {entity : ServerEntity Peer Body}
    (here : entity ∈ (app.finalizeConnection gameplay peer request).1.entities)
    (new : ∀ before ∈ app.entities, before.id ≠ entity.id) :
    entity.accountId = some request.accountId := by
  rcases finalizeConnection_cases gameplay app peer request with ⟨_, same⟩ | ⟨_, spawned⟩
  · rw [same] at here
    exact absurd rfl (new entity here)
  rw [spawned] at here
  rcases mem_cons.mp here with isNew | wasThere
  · rw [isNew]
  exact absurd rfl (new entity wasThere)

end EidolonApp

section Runs

variable {hmacSha256 : List UInt8 → List UInt8 → FixedBytes 32} {accountToken : UInt64 → List UInt8}
variable {gameplay : Gameplay Peer Body World}

theorem soundStep_iff (observed : Observed Peer Body World) (event : Event Peer) :
    SoundStep hmacSha256 accountToken gameplay observed event ↔
      GenuineFinalize hmacSha256 accountToken observed event := by
  have handled : EidolonApp.Handled hmacSha256 gameplay observed.app event :=
    EidolonApp.handled observed.app event
  rcases handled with ⟨peer, request, requested, result⟩ | ⟨notFinalize, idsKept, noConfirmation⟩
  · constructor
    · -- every finalize request is confirmed, so soundness of the step makes it genuine
      intro sound other otherRequested
      have same : other = request := by
        rw [requested] at otherRequested
        cases otherRequested
        rfl
      obtain ⟨confirmed, confirmedRequested, _, genuine⟩ := sound.confirms peer
        { sessionId := sessionIdOf request.accountId
          authorityEpoch := 1
          serverProof := FixedBytes.replicate 32 0xEE }
        (by rw [result]; exact List.mem_singleton.mpr rfl)
      rw [requested] at confirmedRequested
      cases confirmedRequested
      rw [same]
      exact genuine
    intro genuine
    have valid := genuine request requested
    refine ⟨?_, ?_, ?_⟩
    · intro entity here new
      rw [EidolonApp.step, result] at here
      exact ⟨request, requested,
        EidolonApp.account_of_finalizeConnection observed.app peer request here new, valid⟩
    · intro receiver response sent
      rw [result] at sent
      exact ⟨request, requested,
        EidolonApp.confirms_finalizeConnection observed.app peer request sent, valid⟩
    intro other otherRequested forged
    exact absurd (genuine other otherRequested) forged
  refine iff_of_true ⟨?_, ?_, ?_⟩ (fun request requested => absurd requested (notFinalize request))
  · intro entity here new
    have known := idsKept (mem_map_of_mem here)
    obtain ⟨before, beforeHere, sameId⟩ := mem_map.mp known
    exact absurd sameId (new before beforeHere)
  · intro peer response sent
    exact absurd sent (noConfirmation peer response)
  intro request requested
  exact absurd requested (notFinalize request)

/-- Players are spawned and sessions confirmed soundly throughout a run exactly if every
finalize request that is received in it is genuine. -/
theorem handshake_sound_iff (hmacSha256 : List UInt8 → List UInt8 → FixedBytes 32)
    (accountToken : UInt64 → List UInt8) (gameplay : Gameplay Peer Body World)
    (app : EidolonApp Peer Body World) (events : List (Event Peer)) :
    EachStep (Observed.step hmacSha256 gameplay)
        (SoundStep hmacSha256 accountToken gameplay) ⟨app, []⟩ events ↔
      EachStep (Observed.step hmacSha256 gameplay)
        (GenuineFinalize hmacSha256 accountToken) ⟨app, []⟩ events :=
  eachStep_congr (fun observed event => soundStep_iff observed event) ⟨app, []⟩ events

end Runs

/-- A server without players, and a finalize request for account 1 whose cookie and proof
are zero, from a peer that never asked for a challenge. -/
private def emptyApp : EidolonApp Unit Unit Unit where
  entities := []
  accounts := ∅
  serverSecret := List.replicate 32 0x42
  serverNonce := FixedBytes.replicate nonceLen 0x55
  world := ()

private def forgedFinalize : Event Unit :=
  .datagram () ((PacketHeader.new .reliableOrdered .reliableMessage 1 0 0).encoded ++
      (List.replicate 7 0 ++ [1] ++ List.replicate 64 0))

def idle : Gameplay Unit Unit Unit where
  spawnBody := ()
  enter := fun _ world => world
  leave := fun _ world => world
  bodyAfter := fun _ _ entity => entity.body
  worldAfter := fun app _ => app.world

def plainHash (_ data : List UInt8) : FixedBytes 32 :=
  ⟨(data ++ List.replicate 32 0).take 32, by
    rw [length_take, length_append, length_replicate]
    omega⟩

/-- A forged finalize request spawns a player. -/
theorem not_handshake_sound_forged :
    ¬ EachStep (Observed.step plainHash idle) (SoundStep plainHash (fun _ => []) idle)
        ⟨emptyApp, []⟩ [forgedFinalize] := by
  intro sound
  have spawns := sound.1.spawns
  obtain ⟨entity, here, _⟩ := mem_map.mp
    (show some (1 : UInt64) ∈ (emptyApp.step plainHash idle forgedFinalize).entities.map
      ServerEntity.accountId by exact List.mem_singleton.mpr rfl)
  obtain ⟨request, _, _, challenge, earlier, _⟩ :=
    spawns entity here (fun before wasThere => nomatch wasThere)
  cases earlier

end Eidolon.Server
