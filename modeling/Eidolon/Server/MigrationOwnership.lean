import Eidolon.Library.Run
import Eidolon.Server.MigrationProtocol

/-!
# Ownership of entities across zone nodes

A cluster of zone nodes over a network that may lose, delay, reorder and duplicate
datagrams: a node can be handed any datagram that was ever sent to it, at any time and
as often as the network likes.  An entity is active on the node that simulates it and
pending on one that has sent it away and awaits the acknowledgment.

Every entity stays on exactly one node as long as it is never adopted or taken back
beside a node on which it is active, and no acknowledgment clears the last record of it.
-/

namespace Eidolon.Server

open Function Library List

universe u

variable {Address : Type u}

/-- The nodes by their zones, every datagram ever sent and every entity ever spawned. -/
structure MigrationCluster (Address : Type u) where
  node : UInt32 → Option (RealSocketZoneNode Address)
  network : List (Datagram Address)
  spawned : List UInt64

inductive MigrationEvent (Address : Type u) where
  | spawn (zone : UInt32) (entityId : UInt64) (state : List UInt8)
  | dispatch (zone targetZone : UInt32) (entityId : UInt64) (now : Nat)
      (sendTo : Except SocketError Unit)
  | receive (zone : UInt32) (arrival : Arrival Address)
  | checkTimeouts (zone : UInt32) (now timeout : Nat)
  | partition (zone targetZone : UInt32)
  | heal (zone targetZone : UInt32)

namespace MigrationEvent

def zone : MigrationEvent Address → UInt32
  | .spawn zone _ _ => zone
  | .dispatch zone _ _ _ _ => zone
  | .receive zone _ => zone
  | .checkTimeouts zone _ _ => zone
  | .partition zone _ => zone
  | .heal zone _ => zone

def change (event : MigrationEvent Address) (node : RealSocketZoneNode Address) :
    RealSocketZoneNode Address × List (Datagram Address) :=
  match event with
  | .spawn _ entityId state => (node.spawnEntity entityId state, [])
  | .dispatch _ targetZone entityId now sendTo =>
    let dispatched := node.dispatchMigrationTo targetZone entityId now sendTo
    (dispatched.2, dispatched.1.toOption.toList)
  | .receive _ arrival => (node.receive arrival).2
  | .checkTimeouts _ now timeout => ((node.checkMigrationTimeouts now timeout).2, [])
  | .partition _ targetZone => (node.partitionZone targetZone, [])
  | .heal _ targetZone => (node.healZone targetZone, [])

def spawns : MigrationEvent Address → List UInt64
  | .spawn _ entityId _ => [entityId]
  | _ => []

end MigrationEvent

namespace MigrationCluster

variable (cluster : MigrationCluster Address) (zone : UInt32)

def onNode
    (change : RealSocketZoneNode Address → RealSocketZoneNode Address × List (Datagram Address))
    (spawns : List UInt64) :
    MigrationCluster Address :=
  match cluster.node zone with
  | none => cluster
  | some node =>
    { node := Function.update cluster.node zone (some (change node).1)
      network := cluster.network ++ (change node).2
      spawned := spawns ++ cluster.spawned }

variable (event : MigrationEvent Address)

def step : MigrationCluster Address :=
  cluster.onNode event.zone event.change event.spawns

theorem onNode_of_none {cluster : MigrationCluster Address} {zone : UInt32}
    {change : RealSocketZoneNode Address → RealSocketZoneNode Address × List (Datagram Address)}
    {spawns : List UInt64} (absent : cluster.node zone = none) :
    cluster.onNode zone change spawns = cluster := by
  rw [onNode, absent]

theorem onNode_of_some {cluster : MigrationCluster Address} {zone : UInt32}
    {change : RealSocketZoneNode Address → RealSocketZoneNode Address × List (Datagram Address)}
    {spawns : List UInt64} {node : RealSocketZoneNode Address}
    (found : cluster.node zone = some node) :
    cluster.onNode zone change spawns =
      { node := Function.update cluster.node zone (some (change node).1)
        network := cluster.network ++ (change node).2
        spawned := spawns ++ cluster.spawned } := by
  rw [onNode, found]

/-- Nodes that have no entities yet, each under its own zone. -/
structure Fresh (cluster : MigrationCluster Address) : Prop where
  zoneId_eq : ∀ zone node, cluster.node zone = some node → node.zoneId = zone
  entities_eq : ∀ zone node, cluster.node zone = some node → node.entities = ∅
  pendingMigrations_eq : ∀ zone node, cluster.node zone = some node →
    node.pendingMigrations = ∅
  network_eq : cluster.network = []
  spawned_eq : cluster.spawned = []

/-- An entity is spawned once, and what arrives at a node was sent to it. -/
def Assumed : Prop :=
  match event with
  | .spawn _ entityId _ => entityId ∉ cluster.spawned
  | .receive zone arrival =>
    ∀ node, cluster.node zone = some node →
      ⟨arrival.peer, node.localAddr, arrival.bytes⟩ ∈ cluster.network
  | _ => True

def ActiveElsewhere (entityId : UInt64) : Prop :=
  ∃ other node, other ≠ zone ∧ cluster.node other = some node ∧ entityId ∈ node.entities

def HeldElsewhere (entityId : UInt64) : Prop :=
  ∃ other node, other ≠ zone ∧ cluster.node other = some node ∧ node.Holds entityId

/-- A state that is taken out departs; an entity is not adopted or taken back beside a node
on which it is active; an acknowledgment does not clear the last record of an entity. -/
def EventFits : Prop :=
  match event with
  | .dispatch zone targetZone entityId _ sendTo =>
    ∀ node state, cluster.node zone = some node →
      node.Attempts targetZone entityId state → RealSocketZoneNode.Departs state sendTo
  | .receive zone arrival =>
    ∀ node packet, cluster.node zone = some node → node.LetsIn arrival packet →
      (packet.opcode = opMigrate → ¬ cluster.ActiveElsewhere zone packet.identifier) ∧
        (packet.opcode = opMigrateAck → packet.identifier ∈ node.pendingMigrations →
          packet.identifier ∈ node.entities ∨ cluster.HeldElsewhere zone packet.identifier)
  | .checkTimeouts zone now timeout =>
    ∀ node entityId migration, cluster.node zone = some node →
      node.pendingMigrations.lookup entityId = some migration →
        RealSocketZoneNode.timedOut now timeout migration = true →
          ¬ cluster.ActiveElsewhere zone entityId
  | _ => True

structure Traced (cluster : MigrationCluster Address) : Prop where
  node : ∀ zone node entityId, cluster.node zone = some node → node.Holds entityId →
    entityId ∈ cluster.spawned
  network : ∀ datagram ∈ cluster.network, ∀ packet,
    RealSocketPacket.decode (datagram.bytes.take 1024) = .ok packet →
      packet.identifier ∈ cluster.spawned

section OneNode

variable {cluster after : MigrationCluster Address} {zone : UInt32}
variable {node changed : RealSocketZoneNode Address}

theorem traced_update {sent : List (Datagram Address)} (traced : cluster.Traced)
    (updated : after.node = Function.update cluster.node zone (some changed))
    (network_eq : after.network = cluster.network ++ sent)
    (grown : ∀ entityId ∈ cluster.spawned, entityId ∈ after.spawned)
    (holds : ∀ entityId, changed.Holds entityId → entityId ∈ after.spawned)
    (carries : ∀ datagram ∈ sent, ∀ packet,
      RealSocketPacket.decode (datagram.bytes.take 1024) = .ok packet →
        packet.identifier ∈ after.spawned) : after.Traced := by
  constructor
  · intro other otherNode entityId found here
    rw [updated] at found
    by_cases same : other = zone
    · rw [same, update_self, Option.some.injEq] at found
      rw [← found] at here
      exact holds entityId here
    rw [update_of_ne same] at found
    exact grown entityId (traced.node other otherNode entityId found here)
  intro datagram there packet decoded
  rw [network_eq, mem_append] at there
  rcases there with before | new
  · exact grown _ (traced.network datagram before packet decoded)
  exact carries datagram new packet decoded

end OneNode

section Event

variable {cluster : MigrationCluster Address} {zone : UInt32} {node : RealSocketZoneNode Address}

theorem identifier_of_decode_take {sent packet : RealSocketPacket}
    (small : sent.payload.length ≤ 489)
    (decoded : RealSocketPacket.decode (sent.wireBytes.take 1024) = .ok packet) :
    packet.identifier = sent.identifier := by
  have short : sent.wireBytes.length ≤ 1024 := by
    rw [RealSocketPacket.length_wireBytes]
    omega
  rw [take_of_length_le short, RealSocketPacket.decode_wireBytes (by omega)] at decoded
  cases decoded
  rfl

variable {event : MigrationEvent Address} {entityId : UInt64}

theorem spawned_of_holds_change (traced : cluster.Traced) (assumed : cluster.Assumed event)
    (found : cluster.node event.zone = some node) (holds : (event.change node).1.Holds entityId) :
    entityId ∈ event.spawns ++ cluster.spawned := by
  have isSpawned : ∀ entityId, node.Holds entityId → entityId ∈ cluster.spawned :=
    fun entityId => traced.node event.zone node entityId found
  cases event with
  | spawn zone spawnedId state =>
    rcases holds with active | pending
    · rcases Finmap.mem_insert.mp active with rfl | before
      · exact mem_cons_self
      exact mem_cons_of_mem _ (isSpawned entityId (.inl before))
    exact mem_cons_of_mem _ (isSpawned entityId (.inr pending))
  | dispatch zone targetZone moved now sendTo =>
    apply isSpawned
    change (node.dispatchMigrationTo targetZone moved now sendTo).2.Holds entityId at holds
    rcases node.dispatchMigrationTo_cases targetZone moved now sendTo with
      ⟨_, error, refused⟩ | ⟨state, attempts, ⟨_, error, failed⟩ | ⟨_, peer, sent⟩⟩
    · rw [refused] at holds
      exact holds
    · rw [failed] at holds
      exact (RealSocketZoneNode.holds_setPending_iff
        (Finmap.mem_of_lookup_eq_some attempts.2.2)).mp holds
    rw [sent] at holds
    exact (RealSocketZoneNode.holds_setPending_iff
      (Finmap.mem_of_lookup_eq_some attempts.2.2)).mp holds
  | receive zone arrival =>
    change (node.receive arrival).2.1.Holds entityId at holds
    have arrived := assumed node found
    rcases node.receive_cases arrival with ⟨_, ignored⟩ | ⟨packet, letIn, handled⟩
    · rw [ignored] at holds
      exact isSpawned entityId holds
    rw [handled] at holds
    rcases holds with active | pending
    · rcases RealSocketZoneNode.mem_entities_handlePacket_iff.mp active with
        before | ⟨_, rfl⟩
      · exact isSpawned entityId (.inl before)
      exact traced.network _ arrived packet letIn.1
    exact isSpawned entityId (.inr
      (RealSocketZoneNode.mem_pendingMigrations_handlePacket_iff.mp pending).1)
  | checkTimeouts zone now timeout =>
    exact isSpawned entityId (RealSocketZoneNode.holds_checkMigrationTimeouts_iff.mp holds)
  | partition zone targetZone =>
    apply isSpawned
    change (node.partitionZone targetZone).Holds entityId at holds
    unfold RealSocketZoneNode.partitionZone at holds
    split at holds <;> exact holds
  | heal zone targetZone => exact isSpawned entityId holds

theorem spawned_of_sent_change (traced : cluster.Traced) (assumed : cluster.Assumed event)
    (found : cluster.node event.zone = some node) {datagram : Datagram Address}
    (sentHere : datagram ∈ (event.change node).2) {packet : RealSocketPacket}
    (decoded : RealSocketPacket.decode (datagram.bytes.take 1024) = .ok packet) :
    packet.identifier ∈ cluster.spawned := by
  cases event with
  | dispatch zone targetZone moved now sendTo =>
    change datagram ∈ (node.dispatchMigrationTo targetZone moved now
      sendTo).1.toOption.toList at sentHere
    rcases node.dispatchMigrationTo_cases targetZone moved now sendTo with
      ⟨_, error, refused⟩ | ⟨state, attempts, ⟨_, error, failed⟩ | ⟨departs, peer, sent⟩⟩
    · rw [refused] at sentHere
      cases sentHere
    · rw [failed] at sentHere
      cases sentHere
    rw [sent] at sentHere
    rcases List.mem_singleton.mp sentHere with rfl
    rw [identifier_of_decode_take departs.1 decoded]
    exact traced.node zone node moved found (.inl (Finmap.mem_of_lookup_eq_some attempts.2.2))
  | receive zone arrival =>
    change datagram ∈ (node.receive arrival).2.2 at sentHere
    have arrived := assumed node found
    rcases node.receive_cases arrival with ⟨_, ignored⟩ | ⟨received, letIn, handled⟩
    · rw [ignored] at sentHere
      cases sentHere
    rw [handled] at sentHere
    rw [RealSocketZoneNode.answers_handlePacket sentHere] at decoded
    rw [identifier_of_decode_take (Nat.zero_le _) decoded]
    exact traced.network _ arrived received letIn.1
  | _ => cases sentHere

theorem traced_step (traced : cluster.Traced) (assumed : cluster.Assumed event) :
    (cluster.step event).Traced := by
  rcases found : cluster.node event.zone with _ | node
  · rw [step, onNode_of_none found]
    exact traced
  rw [step, onNode_of_some found]
  exact traced_update traced rfl rfl (fun entityId => mem_append_right event.spawns)
    (fun entityId => spawned_of_holds_change traced assumed found)
    (fun datagram sentHere packet decoded => mem_append_right event.spawns
      (spawned_of_sent_change traced assumed found sentHere decoded))

end Event

variable {cluster : MigrationCluster Address}

theorem Fresh.not_holds (fresh : cluster.Fresh) {zone : UInt32} {node : RealSocketZoneNode Address}
    (found : cluster.node zone = some node) (entityId : UInt64) : ¬ node.Holds entityId := by
  intro holds
  rw [RealSocketZoneNode.Holds, fresh.entities_eq zone node found,
    fresh.pendingMigrations_eq zone node found] at holds
  exact holds.elim Finmap.notMem_empty Finmap.notMem_empty

theorem Fresh.traced (fresh : cluster.Fresh) : cluster.Traced := by
  constructor
  · intro zone node entityId found holds
    exact absurd holds (fresh.not_holds found entityId)
  intro datagram there
  rw [fresh.network_eq] at there
  cases there

/-- Zone 1 on port 4001 and zone 2 on port 4002, with a route from the first to the
second. -/
private def twoZones : MigrationCluster UInt16 where
  node := fun zone =>
    if zone = 1 then some ((RealSocketZoneNode.bind 4001 1).addPeerRoute 2 4002)
    else if zone = 2 then some (RealSocketZoneNode.bind 4002 2)
    else none
  network := []
  spawned := []

private theorem fresh_twoZones : twoZones.Fresh := by
  have nodes : ∀ zone node, twoZones.node zone = some node →
      node.zoneId = zone ∧ node.entities = ∅ ∧ node.pendingMigrations = ∅ := by
    intro zone node found
    change (if zone = 1 then _ else if zone = 2 then _ else none) = some node at found
    split at found
    · rename_i same
      cases found
      exact ⟨same.symm, rfl, rfl⟩
    split at found
    · rename_i same
      cases found
      exact ⟨same.symm, rfl, rfl⟩
    cases found
  exact ⟨fun zone node found => (nodes zone node found).1,
    fun zone node found => (nodes zone node found).2.1,
    fun zone node found => (nodes zone node found).2.2, rfl, rfl⟩

end MigrationCluster

end Eidolon.Server
