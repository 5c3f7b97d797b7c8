import Eidolon.Library.SlotArray
import Eidolon.World.Zone

/-!
# Clusters of zones

Zone nodes that hand entities to each other by tickets.  A tick empties the outboxes into
a staging array, routes the staged tickets to the inboxes of their target zones and lets
every node adopt its inbox.
-/

namespace Eidolon.World

open Core Library Spatial

def maxClusterNodes : Nat := 8

def maxInFlightMigrations : Nat := 128

def maxStagedMigrations : Nat := 256

abbrev TicketBox := SlotArray maxInFlightMigrations MigrationTicket

def queueTicket (box : TicketBox) (count : Nat) (fullError exhaustedError : String)
    (ticket : MigrationTicket) : Except WorldError (TicketBox × Nat) :=
  if maxInFlightMigrations ≤ count then
    .error (.transactionAborted fullError)
  else
    match box.fillFirst? ticket with
    | none => .error (.transactionAborted exhaustedError)
    | some filled => .ok (filled, count + 1)

structure ClusterZoneNode where
  zone : WorldZone
  outbox : TicketBox
  outboxCount : Nat
  inbox : TicketBox
  inboxCount : Nat

namespace ClusterZoneNode

def new (id : ZoneId) (bounds : ZoneBounds) (neighborZone : Option ZoneId)
    (neighborIsPositive : Bool) (maxEntities : Nat) : ClusterZoneNode where
  zone := WorldZone.new id bounds neighborZone neighborIsPositive maxEntities
  outbox := SlotArray.empty _ _
  outboxCount := 0
  inbox := SlotArray.empty _ _
  inboxCount := 0

variable (node : ClusterZoneNode)

def zoneId : ZoneId :=
  node.zone.id

def queueOutbox (ticket : MigrationTicket) : Except WorldError Unit × ClusterZoneNode :=
  match queueTicket node.outbox node.outboxCount "outbox_full" "outbox_exhausted" ticket with
  | .error error => (.error error, node)
  | .ok (box, count) => (.ok (), { node with outbox := box, outboxCount := count })

def queueInbox (ticket : MigrationTicket) : Except WorldError Unit × ClusterZoneNode :=
  match queueTicket node.inbox node.inboxCount "inbox_full" "inbox_exhausted" ticket with
  | .error error => (.error error, node)
  | .ok (box, count) => (.ok (), { node with inbox := box, inboxCount := count })

def flushOutbox (destLen : Nat) : List MigrationTicket × ClusterZoneNode :=
  let (tickets, left) := node.outbox.drain (min node.outboxCount destLen)
  (tickets, { node with outbox := left, outboxCount := node.outboxCount - tickets.length })

end ClusterZoneNode

def adoptTickets : WorldZone → List MigrationTicket → WorldZone × Nat
  | zone, [] => (zone, 0)
  | zone, ticket :: rest =>
    match zone.insertEntity ticket.entityId ticket.position with
    | (.ok (), inserted) =>
      let (adopting, adopted) := adoptTickets inserted rest
      (adopting, adopted + 1)
    | (.error _, unchanged) => adoptTickets unchanged rest

def ClusterZoneNode.adoptInbox (node : ClusterZoneNode) : Nat × ClusterZoneNode :=
  let tickets := node.inbox.entries
  let (zone, adopted) := adoptTickets node.zone tickets
  (adopted,
    { node with
      zone := zone
      inbox := SlotArray.empty _ _
      inboxCount := node.inboxCount - tickets.length })

structure ClusterTickMetrics where
  tickId : Nat
  totalEntities : Nat
  migrationsCompleted : Nat
  migrationsDropped : Nat
  deriving DecidableEq

/-- The nodes in the order of their slots. -/
structure MultiServerClusterHarness where
  nodes : List ClusterZoneNode
  currentTick : Nat

def stageTicket (staged : List MigrationTicket × Nat) (ticket : MigrationTicket) :
    List MigrationTicket × Nat :=
  if staged.1.length < maxStagedMigrations then (staged.1 ++ [ticket], staged.2)
  else (staged.1, staged.2 + 1)

/-- Flushes the outboxes node after node; the second component holds the staged tickets and
the number of dropped ones. -/
def stageOutboxes : List ClusterZoneNode → List MigrationTicket × Nat →
    List ClusterZoneNode × (List MigrationTicket × Nat)
  | [], staged => ([], staged)
  | node :: rest, staged =>
    let (tickets, flushed) := node.flushOutbox maxInFlightMigrations
    let (others, all) := stageOutboxes rest (tickets.foldl stageTicket staged)
    (flushed :: others, all)

def routeTicket (nodes : List ClusterZoneNode) (ticket : MigrationTicket) :
    List ClusterZoneNode × Bool :=
  match KeyedList.find ClusterZoneNode.zoneId nodes ticket.toZone with
  | none => (nodes, false)
  | some node =>
    match node.queueInbox ticket with
    | (.ok (), queued) =>
      (KeyedList.replace ClusterZoneNode.zoneId nodes ticket.toZone queued, true)
    | (.error _, unchanged) =>
      (KeyedList.replace ClusterZoneNode.zoneId nodes ticket.toZone unchanged, false)

def routeTickets : List ClusterZoneNode → List MigrationTicket → List ClusterZoneNode × Nat
  | nodes, [] => (nodes, 0)
  | nodes, ticket :: rest =>
    let (routed, accepted) := routeTicket nodes ticket
    let (others, dropped) := routeTickets routed rest
    (others, if accepted then dropped else dropped + 1)

namespace MultiServerClusterHarness

def new : MultiServerClusterHarness where
  nodes := []
  currentTick := 0

variable (cluster : MultiServerClusterHarness)

def addNode (node : ClusterZoneNode) : Except WorldError Unit × MultiServerClusterHarness :=
  if maxClusterNodes ≤ cluster.nodes.length then
    (.error (.transactionAborted "max_cluster_nodes_reached"), cluster)
  else
    (.ok (), { cluster with nodes := cluster.nodes ++ [node] })

variable (zoneId : ZoneId)

def getNode : Option ClusterZoneNode :=
  KeyedList.find ClusterZoneNode.zoneId cluster.nodes zoneId

def setNode (changed : ClusterZoneNode) : MultiServerClusterHarness :=
  { cluster with
    nodes := KeyedList.replace ClusterZoneNode.zoneId cluster.nodes zoneId changed }

def spawnEntity (entityId : UInt32) (pos : Vec3Fix) :
    Except WorldError Unit × MultiServerClusterHarness :=
  match cluster.getNode zoneId with
  | none => (.error (.zoneNotFound zoneId), cluster)
  | some node =>
    let (result, zone) := node.zone.insertEntity entityId pos
    (result, cluster.setNode zoneId { node with zone := zone })

def removeEntity (cluster : MultiServerClusterHarness) (zoneId : ZoneId) (entityId : UInt32) :
    Except WorldError Unit × MultiServerClusterHarness :=
  match cluster.getNode zoneId with
  | none => (.error (.zoneNotFound zoneId), cluster)
  | some node =>
    let (result, zone) := node.zone.removeEntity entityId
    (result, cluster.setNode zoneId { node with zone := zone })

def queueOutbox (cluster : MultiServerClusterHarness) (zoneId : ZoneId)
    (ticket : MigrationTicket) : Except WorldError Unit × MultiServerClusterHarness :=
  match cluster.getNode zoneId with
  | none => (.error (.zoneNotFound zoneId), cluster)
  | some node =>
    let (result, queued) := node.queueOutbox ticket
    (result, cluster.setNode zoneId queued)

def totalEntities : Nat :=
  (cluster.nodes.map fun node => node.zone.spatialGrid.activeCount).sum

def assertSingleWriterInvariant (testEntities : List UInt32) : Bool :=
  testEntities.all fun entityId =>
    decide ((cluster.nodes.countP fun node => (node.zone.entityPosition entityId).isSome) ≤ 1)

def stepTick : ClusterTickMetrics × MultiServerClusterHarness :=
  let (flushed, staged, unstaged) := stageOutboxes cluster.nodes ([], 0)
  let (routed, unrouted) := routeTickets flushed staged
  let adopted := routed.map ClusterZoneNode.adoptInbox
  let stepped : MultiServerClusterHarness :=
    { nodes := adopted.map Prod.snd
      currentTick := cluster.currentTick + 1 }
  ({ tickId := stepped.currentTick
     totalEntities := stepped.totalEntities
     migrationsCompleted := (adopted.map Prod.fst).sum
     migrationsDropped := unstaged + unrouted },
    stepped)

end MultiServerClusterHarness

end Eidolon.World
