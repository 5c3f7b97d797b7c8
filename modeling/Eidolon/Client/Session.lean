import Mathlib.Data.Finmap
import Eidolon.Client.PositionRecords
import Eidolon.Library.Run
import Eidolon.Server.EgressBudget

/-!
# The events of a client's session

A client connects, polls datagrams of its server and disconnects, and keeps a table of the
entities it was told of.  Whoever follows its events, and starts again when the client
disconnects, has the same entities with the same state.
-/

namespace Eidolon.Client

open Core Library List Net Server

/-- An entity as it is known, and what the smoothing needs of the update before. -/
structure RemoteEntity where
  latest : EntityUpdate
  prevPosition : Option Vec3Fix
  prevVelocity : Option Vec3Fix
  prevYaw : Option QuantizedYaw

abbrev ClientWorldView := Finmap fun _ : UInt32 => RemoteEntity

def ClientWorldView.upsertEntity (view : ClientWorldView) (update : EntityUpdate) :
    ClientWorldView :=
  match view.lookup update.entityId with
  | some entity =>
    view.insert update.entityId
      { latest := update
        prevPosition := some entity.latest.globalPosition
        prevVelocity := some entity.latest.velocity
        prevYaw := some entity.latest.yaw }
  | none => view.insert update.entityId ⟨update, none, none, none⟩

/-- The events of entities carry the update that they are computed from, and `gameplay` the
payload of a message, from which one event at most is computed. -/
inductive ClientEvent where
  | connected (serverVersion : UInt16) (sessionId : UInt64)
  | disconnected (reason : String)
  | entitySpawned (update : EntityUpdate)
  | entityUpdated (update : EntityUpdate)
  | gameplay (payload : List UInt8)

inductive ConnectionState where
  | disconnected
  | connectingChallenge (clientNonce : FixedBytes nonceLen) (sentAt : Nat)
  | connectingFinalize (authCookie : FixedBytes 32) (clientNonce serverNonce : FixedBytes nonceLen)
      (sentAt : Nat)
  | connected (sessionId : UInt64) (authorityEpoch : UInt32)

/-- When the last message of an unfinished handshake was sent. -/
def ConnectionState.sentAt : ConnectionState → Option Nat
  | .connectingChallenge _ sentAt | .connectingFinalize _ _ _ sentAt => some sentAt
  | .disconnected | .connected .. => none

structure EidolonClient where
  timeout : Nat
  state : ConnectionState
  worldView : ClientWorldView
  sendSeq : UInt16
  recvSeq : UInt16

namespace EidolonClient

def new (timeout : Nat) : EidolonClient where
  timeout := timeout
  state := .disconnected
  worldView := ∅
  sendSeq := 0
  recvSeq := 0

variable (client : EidolonClient)

def connect (clientNonce : FixedBytes nonceLen) (now : Nat) : EidolonClient :=
  { client with
    sendSeq := client.sendSeq + 1
    state := .connectingChallenge clientNonce now }

def disconnect : EidolonClient :=
  { client with state := .disconnected, worldView := ∅ }

/-- A record of a state update: the entity's state, and the event that tells of it. -/
def noteUpdate (noted : ClientWorldView × List ClientEvent) (update : EntityUpdate) :
    ClientWorldView × List ClientEvent :=
  (noted.1.upsertEntity update, noted.2 ++
    [if (noted.1.lookup update.entityId).isNone then .entitySpawned update
      else .entityUpdated update])

/-- One turn of the polling loop, for a datagram of the server. -/
def receive (now : Nat) (polled : EidolonClient × List ClientEvent) (datagram : List UInt8) :
    EidolonClient × List ClientEvent :=
  let (client, events) := polled
  match PacketHeader.readFrom datagram with
  | .error _ => polled
  | .ok (header, headerLen) =>
    let payload := datagram.drop headerLen
    match client.state with
    | .disconnected => polled
    | .connectingChallenge clientNonce _ =>
      match ConnectChallengeResponse.readFrom payload with
      | .error _ => polled
      | .ok resp =>
        ({ client with
            sendSeq := client.sendSeq + 1
            state := .connectingFinalize resp.authCookie clientNonce resp.serverNonce now },
          events)
    | .connectingFinalize .. =>
      match ConnectFinalizeResponse.readFrom payload with
      | .error _ => polled
      | .ok resp =>
        ({ client with state := .connected resp.sessionId resp.authorityEpoch },
          events ++ [.connected header.version resp.sessionId])
    | .connected .. =>
      let client := { client with recvSeq := header.sequence }
      match header.packetType with
      | .stateUpdate =>
        let (worldView, events) :=
          (processStateUpdatePayload payload).foldl noteUpdate (client.worldView, events)
        ({ client with worldView := worldView }, events)
      | .reliableMessage => (client, events ++ [.gameplay payload])
      | .disconnect => (client.disconnect, events ++ [.disconnected "Server requested disconnect"])
      | .heartbeat | .ackOnly => (client, events)

/-- Polls the datagrams that have arrived; `none` is the error of a handshake that has taken
too long. -/
def pollEvents (now : Nat) (datagrams : List (List UInt8)) :
    EidolonClient × Option (List ClientEvent) :=
  if client.state.sentAt.any fun sentAt => decide (client.timeout < now - sentAt) then
    ({ client with state := .disconnected }, none)
  else
    let polled := datagrams.foldl (receive now) (client, [])
    (polled.1, some polled.2)

end EidolonClient

inductive ClientCall where
  | connect (clientNonce : FixedBytes nonceLen) (now : Nat)
  | pollEvents (now : Nat) (datagrams : List (List UInt8))
  | disconnect

/-- A client, with the events since it was last told to disconnect. -/
structure ClientLog where
  client : EidolonClient
  events : List ClientEvent

def ClientLog.step (log : ClientLog) : ClientCall → ClientLog
  | .connect clientNonce now => { log with client := log.client.connect clientNonce now }
  | .pollEvents now datagrams =>
    let (client, events) := log.client.pollEvents now datagrams
    { client := client, events := log.events ++ events.getD [] }
  | .disconnect => { client := log.client.disconnect, events := [] }

section Follower

/-- What a follower of the events has for each entity. -/
def follow (shown : UInt32 → Option EntityUpdate) : ClientEvent → UInt32 → Option EntityUpdate
  | .entitySpawned update | .entityUpdated update =>
    Function.update shown update.entityId (some update)
  | .disconnected _ => fun _ => none
  | .connected .. | .gameplay _ => shown

/-- An entity is spawned only when there is none, and updated only when there is one. -/
def InOrder (shown : UInt32 → Option EntityUpdate) : ClientEvent → Prop
  | .entitySpawned update => shown update.entityId = none
  | .entityUpdated update => shown update.entityId ≠ none
  | _ => True

/-- The events are in order and lead a follower to the table. -/
structure Told (view : ClientWorldView) (events : List ClientEvent) : Prop where
  inOrder : EachStep follow InOrder (fun _ => none) events
  shows : ∀ entityId, run follow (fun _ => none) events entityId =
    (view.lookup entityId).map RemoteEntity.latest

variable {view after : ClientWorldView} {events : List ClientEvent}

theorem Told.push (told : Told view events) {event : ClientEvent}
    (inOrder : InOrder (run follow (fun _ => none) events) event)
    (shows : ∀ entityId, follow (run follow (fun _ => none) events) event entityId =
      (after.lookup entityId).map RemoteEntity.latest) : Told after (events ++ [event]) := by
  refine ⟨(eachStep_append _ _ _).mpr ⟨told.inOrder, inOrder, trivial⟩, fun entityId => ?_⟩
  rw [run_append]
  exact shows entityId

theorem lookup_upsertEntity (view : ClientWorldView) (update : EntityUpdate) (entityId : UInt32) :
    ((view.upsertEntity update).lookup entityId).map RemoteEntity.latest =
      Function.update (fun entityId => (view.lookup entityId).map RemoteEntity.latest)
        update.entityId (some update) entityId := by
  rw [ClientWorldView.upsertEntity]
  by_cases same : entityId = update.entityId
  · rw [same, Function.update_self]
    split <;> rw [Finmap.lookup_insert, Option.map_some]
  rw [Function.update_of_ne same]
  split <;> rw [Finmap.lookup_insert_of_ne _ same]

theorem Told.noteUpdate (told : Told view events) (update : EntityUpdate) :
    Told (view.upsertEntity update) (events ++
      [if (view.lookup update.entityId).isNone then .entitySpawned update
        else .entityUpdated update]) := by
  have shown := told.shows update.entityId
  have followed : ∀ entityId, Function.update (run follow (fun _ => none) events)
      update.entityId (some update) entityId =
        ((view.upsertEntity update).lookup entityId).map RemoteEntity.latest := by
    intro entityId
    rw [lookup_upsertEntity, funext told.shows]
  cases found : view.lookup update.entityId with
  | none =>
    rw [found] at shown
    exact told.push shown followed
  | some entity =>
    rw [found] at shown
    have inOrder : InOrder (run follow (fun _ => none) events) (.entityUpdated update) := by
      rw [InOrder, shown]
      exact Option.some_ne_none _
    exact told.push inOrder followed

variable {old : List ClientEvent}

theorem Told.noteUpdates (updates : List EntityUpdate) (told : Told view (old ++ events)) :
    Told (updates.foldl EidolonClient.noteUpdate (view, events)).1
      (old ++ (updates.foldl EidolonClient.noteUpdate (view, events)).2) := by
  induction updates generalizing view events with
  | nil => exact told
  | cons update updates ih =>
    have noted := told.noteUpdate update
    rw [append_assoc] at noted
    exact ih noted

theorem Told.receive {client : EidolonClient} (told : Told client.worldView (old ++ events))
    (now : Nat) (datagram : List UInt8) :
    Told (EidolonClient.receive now (client, events) datagram).1.worldView
      (old ++ (EidolonClient.receive now (client, events) datagram).2) := by
  rw [EidolonClient.receive]
  split
  · exact told
  dsimp only
  split
  · exact told
  · split <;> exact told
  · split
    · exact told
    rw [← append_assoc]
    exact told.push trivial told.shows
  split
  · exact told.noteUpdates _
  · rw [← append_assoc]
    exact told.push trivial told.shows
  · rw [← append_assoc]
    exact told.push trivial fun entityId => rfl
  · exact told
  · exact told

theorem Told.pollEvents {client : EidolonClient} (told : Told client.worldView old) (now : Nat)
    (datagrams : List (List UInt8)) :
    Told (client.pollEvents now datagrams).1.worldView
      (old ++ (client.pollEvents now datagrams).2.getD []) := by
  have polled : ∀ {client : EidolonClient} {events : List ClientEvent},
      Told client.worldView (old ++ events) →
        Told (datagrams.foldl (EidolonClient.receive now) (client, events)).1.worldView
          (old ++ (datagrams.foldl (EidolonClient.receive now) (client, events)).2) := by
    induction datagrams with
    | nil => exact id
    | cons datagram datagrams ih => exact fun told => ih (told.receive now datagram)
  rw [← append_nil old] at told
  rw [EidolonClient.pollEvents]
  split
  · exact told
  exact polled told

end Follower

section Broadcast

variable {Peer : Type} {app : EidolonApp Peer Mobile AoiWorld}

/-- A state update of some entities. -/
structure TellsOf (targets : List (ServerEntity Peer Mobile)) (header : PacketHeader)
    (datagram : List UInt8) : Prop where
  version : header.version = protocolVersion
  packetType : header.packetType = .stateUpdate
  bytes : datagram = header.encoded ++
    targets.flatMap fun target => updateRecord target.id target.body

/-- What is written and what was sent are state updates of entities of the server. -/
structure Composed (app : EidolonApp Peer Mobile AoiWorld) (writer : UpdateWriter) : Prop where
  written : ∃ targets ⊆ app.entities,
    TellsOf targets writer.header (writer.header.encoded ++ writer.records)
  sent : ∀ datagram ∈ writer.sent, ∃ targets ⊆ app.entities, ∃ header,
    TellsOf targets header datagram

variable {writer : UpdateWriter}

theorem Composed.flush (composed : Composed app writer) (player : UInt32) :
    Composed app (writer.flush player) := by
  rw [UpdateWriter.flush]
  split
  · exact composed
  refine ⟨composed.written, fun datagram member => ?_⟩
  dsimp only at member
  split at member
  · rcases List.mem_append.mp member with before | last
    · exact composed.sent datagram before
    obtain ⟨targets, known, tells⟩ := composed.written
    exact ⟨targets, known, _, mem_singleton.mp last ▸ tells⟩
  exact composed.sent datagram member

theorem Composed.writeUpdates (player : ServerEntity Peer Mobile) (visible : List UInt32)
    (composed : Composed app writer) : Composed app (app.writeUpdates player visible writer) := by
  induction visible generalizing writer with
  | nil => exact composed
  | cons visibleId rest ih =>
    rw [EidolonApp.writeUpdates]
    split
    · exact ih composed
    rename_i target admitted
    have known : target ∈ app.entities := by
      rw [EidolonApp.admittedTarget] at admitted
      split at admitted
      · cases admitted
      split at admitted
      · cases admitted
      rename_i found
      dsimp only at admitted
      split at admitted
      · cases admitted
        exact KeyedList.mem_of_find found
      cases admitted
    dsimp only
    split
    · have flushed := composed.flush player.id
      obtain ⟨_, _, tells⟩ := flushed.written
      split
      · refine ih ⟨⟨[target], by simpa using known, ?_, ?_, ?_⟩, flushed.sent⟩
        · exact tells.version
        · exact tells.packetType
        rw [UpdateWriter.next, flatMap_singleton]
      exact flushed
    obtain ⟨targets, among, tells⟩ := composed.written
    refine ih ⟨⟨targets ++ [target], ?_, tells.version, tells.packetType, ?_⟩, composed.sent⟩
    · exact append_subset.mpr ⟨among, by simpa using known⟩
    rw [UpdateWriter.write, flatMap_append, flatMap_singleton, append_cancel_left tells.bytes]

theorem tellsOf_playerUpdates {governor : BandwidthGovernor} {player : ServerEntity Peer Mobile}
    {datagram : List UInt8} (sent : datagram ∈ (app.playerUpdates governor player).2) :
    ∃ targets ⊆ app.entities, ∃ header, TellsOf targets header datagram := by
  have initial : Composed app (UpdateWriter.start governor app.world.currentTick) :=
    ⟨⟨[], nil_subset _, rfl, rfl, rfl⟩, fun _ member => absurd member not_mem_nil⟩
  simp only [EidolonApp.playerUpdates] at sent
  exact ((initial.writeUpdates player _).flush player.id).sent datagram sent

def noteTargets (noted : ClientWorldView × List ClientEvent)
    (targets : List (ServerEntity Peer Mobile)) : ClientWorldView × List ClientEvent :=
  (targets.map fun target => updateOf target.id target.body).foldl EidolonClient.noteUpdate noted

theorem TellsOf.receive {targets : List (ServerEntity Peer Mobile)} {header : PacketHeader}
    {datagram : List UInt8} (tells : TellsOf targets header datagram) {client : EidolonClient}
    {sessionId : UInt64} {authorityEpoch : UInt32}
    (connected : client.state = .connected sessionId authorityEpoch) (now : Nat)
    (events : List ClientEvent) : EidolonClient.receive now (client, events) datagram =
      ({ client with
          recvSeq := header.sequence
          worldView := (noteTargets (client.worldView, events) targets).1 },
        (noteTargets (client.worldView, events) targets).2) := by
  have payload : datagram.drop headerSize =
      (targets.map fun target => (target.id, target.body)).flatMap
        fun record => updateRecord record.1 record.2 := by
    rw [tells.bytes, drop_left' header.length_encoded, flatMap_map]
  have read := processStateUpdatePayload_flatMap
    (targets.map fun target => (target.id, target.body))
  rw [← payload, map_map] at read
  rw [EidolonClient.receive, tells.bytes, PacketHeader.readFrom_encoded tells.version,
    ← tells.bytes]
  simp only [connected, tells.packetType, read]
  rfl

theorem TellsOf.length {targets : List (ServerEntity Peer Mobile)} {header : PacketHeader}
    {datagram : List UInt8} (tells : TellsOf targets header datagram) :
    datagram.length = headerSize + recordLen * targets.length := by
  have sized : ∀ target : ServerEntity Peer Mobile,
      (updateRecord target.id target.body).length = recordLen :=
    fun target => length_updateRecord _ _
  rw [tells.bytes, length_append, header.length_encoded, length_flatMap]
  simp [sized, Nat.mul_comm]

/-- A connected client that receives state updates of a server, from whatever times and in
whatever order and number, notes for each of their records the state that an entity had. -/
theorem receive_playerUpdates {servers : List (EidolonApp Peer Mobile AoiWorld)}
    {datagrams : List (List UInt8)} (sent : ∀ datagram ∈ datagrams, ∃ app ∈ servers,
      ∃ governor player, datagram ∈ (app.playerUpdates governor player).2)
    {client : EidolonClient} {sessionId : UInt64} {authorityEpoch : UInt32}
    (connected : client.state = .connected sessionId authorityEpoch) (now : Nat)
    (events : List ClientEvent) :
    ∃ targets : List (ServerEntity Peer Mobile),
      (∀ target ∈ targets, ∃ app ∈ servers, target ∈ app.entities) ∧
      (datagrams.map length).sum = headerSize * datagrams.length + recordLen * targets.length ∧
      ((datagrams.foldl (EidolonClient.receive now) (client, events)).1.worldView,
        (datagrams.foldl (EidolonClient.receive now) (client, events)).2) =
          noteTargets (client.worldView, events) targets := by
  induction datagrams generalizing client events with
  | nil => exact ⟨[], fun _ member => absurd member not_mem_nil, rfl, rfl⟩
  | cons datagram datagrams ih =>
    obtain ⟨app, member, governor, player, written⟩ := sent datagram mem_cons_self
    obtain ⟨targets, known, header, tells⟩ := tellsOf_playerUpdates written
    have received := tells.receive connected now events
    rw [foldl_cons, received]
    obtain ⟨others, othersKnown, counted, noted⟩ := @ih
      (fun other later => sent other (mem_cons_of_mem datagram later))
      { client with
        recvSeq := header.sequence
        worldView := (noteTargets (client.worldView, events) targets).1 }
      connected (noteTargets (client.worldView, events) targets).2
    refine ⟨targets ++ others, ?_, ?_, ?_⟩
    · intro target among
      rcases List.mem_append.mp among with here | later
      · exact ⟨app, member, known here⟩
      exact othersKnown target later
    · rw [map_cons, sum_cons, counted, tells.length, length_cons, length_append]
      rw [Nat.mul_succ, Nat.mul_add]
      omega
    rw [noted, noteTargets, noteTargets, noteTargets, map_append, foldl_append]

open GovernorEvent (lonelyServer) in
/-- A client in the session of the only player of a server, and what it is sent twice. -/
theorem receive_playerUpdates_lonelyServer :
    let client := { EidolonClient.new 5 with state := .connected 1 1 }
    let sent := lonelyServer.entities.flatMap fun player =>
      (lonelyServer.playerUpdates ((BandwidthGovernor.new 1 .budgetMobile).registerClient 0)
        player).2
    ∃ targets, targets.length = 2 ∧ (∀ target ∈ targets, target ∈ lonelyServer.entities) ∧
      (((sent ++ sent).foldl (EidolonClient.receive 0) (client, [])).1.worldView,
        ((sent ++ sent).foldl (EidolonClient.receive 0) (client, [])).2) =
          noteTargets (client.worldView, []) targets := by
  intro client sent
  obtain ⟨targets, known, counted, noted⟩ :=
    @receive_playerUpdates _ [lonelyServer] (sent ++ sent) (by
      intro datagram member
      rw [List.mem_append, or_self] at member
      obtain ⟨player, _, written⟩ := mem_flatMap.mp member
      exact ⟨_, mem_cons_self, _, player, written⟩) client 1 1 rfl 0 []
  have sizes : (sent ++ sent).length = 2 ∧ ((sent ++ sent).map length).sum = 68 := by
    decide +kernel
  rw [sizes.1, sizes.2, headerSize, recordLen] at counted
  exact ⟨targets, by omega, by simpa using known, noted⟩

end Broadcast

end Eidolon.Client
