import Eidolon.World.ClusterConservation

/-!
# Runs of a cluster

Calls that spawn entities, send them to other zones and step ticks.  Spawned entities are
in grids, wait in outboxes or were counted as dropped, exactly as long as every ticket that
reaches an inbox is for an entity within the capacity of the grid.
-/

namespace Eidolon.World

open Core Library List Spatial

section Nodes

variable {nodes : List ClusterZoneNode}

def nodeIds (node : ClusterZoneNode) : Multiset UInt32 :=
  node.zone.spatialGrid.heldIds.val + ticketIds node.outbox.entries

theorem located_eq (nodes : List ClusterZoneNode) : located nodes = (nodes.map nodeIds).sum := by
  induction nodes with
  | nil => rfl
  | cons node rest ih =>
    have tickets : ticketIds (waitingTickets (node :: rest)) =
        ticketIds node.outbox.entries + ticketIds (waitingTickets rest) := by
      rw [waitingTickets, flatMap_cons, ticketIds, map_append]
      rfl
    have held : heldBy (node :: rest) = node.zone.spatialGrid.heldIds.val + heldBy rest := by
      rfl
    rw [map_cons, sum_cons, ← ih, located, held, tickets, add_add_add_comm]
    rfl

theorem located_replace {zoneId : ZoneId} {node : ClusterZoneNode}
    (found : KeyedList.find ClusterZoneNode.zoneId nodes zoneId = some node)
    (changed : ClusterZoneNode) :
    located (KeyedList.replace ClusterZoneNode.zoneId nodes zoneId changed) + nodeIds node =
      located nodes + nodeIds changed := by
  rw [located_eq, located_eq]
  exact KeyedList.sum_replace found changed nodeIds

structure Arranged (nodes : List ClusterZoneNode) : Prop where
  distinct : (nodes.map ClusterZoneNode.zoneId).Nodup
  counted : ∀ node ∈ nodes, node.zone.spatialGrid.Counted
  outboxes : ∀ node ∈ nodes, Boxed node.outbox node.outboxCount
  inboxes : ∀ node ∈ nodes, node.inbox = SlotArray.empty _ _ ∧ node.inboxCount = 0

theorem orderly_iff : Orderly nodes ↔ Arranged nodes ∧ (located nodes).Nodup := by
  constructor
  · intro orderly
    exact ⟨⟨orderly.distinct, orderly.counted, orderly.outboxes, orderly.inboxes⟩, orderly.once⟩
  rintro ⟨arranged, once⟩
  exact ⟨arranged.distinct, arranged.counted, arranged.outboxes, arranged.inboxes, once⟩

theorem arranged_replace (arranged : Arranged nodes) {zoneId : ZoneId} {node : ClusterZoneNode}
    (found : KeyedList.find ClusterZoneNode.zoneId nodes zoneId = some node)
    (changed : ClusterZoneNode) (sameZone : changed.zoneId = node.zoneId)
    (counted : changed.zone.spatialGrid.Counted)
    (outbox : Boxed changed.outbox changed.outboxCount)
    (inbox : changed.inbox = node.inbox ∧ changed.inboxCount = node.inboxCount) :
    Arranged (KeyedList.replace ClusterZoneNode.zoneId nodes zoneId changed) := by
  have nodeHere : node ∈ nodes := KeyedList.mem_of_find found
  refine ⟨?_, ?_, ?_, ?_⟩
  · rw [KeyedList.map_replace (sameZone.trans (KeyedList.key_of_find found))]
    exact arranged.distinct
  · intro other here
    rcases KeyedList.mem_of_mem_replace here with rfl | wasThere
    · exact counted
    exact arranged.counted other wasThere
  · intro other here
    rcases KeyedList.mem_of_mem_replace here with rfl | wasThere
    · exact outbox
    exact arranged.outboxes other wasThere
  intro other here
  rcases KeyedList.mem_of_mem_replace here with rfl | wasThere
  · rw [inbox.1, inbox.2]
    exact arranged.inboxes node nodeHere
  exact arranged.inboxes other wasThere

theorem card_located (counted : ∀ node ∈ nodes, node.zone.spatialGrid.Counted) :
    (located nodes).card = (nodes.map fun node => node.zone.spatialGrid.activeCount).sum +
        (waitingTickets nodes).length := by
  have held : (heldBy nodes).card =
      (nodes.map fun node => node.zone.spatialGrid.activeCount).sum := by
    have sum := map_list_sum Multiset.cardHom (nodes.map fun node =>
      node.zone.spatialGrid.heldIds.val)
    rw [List.map_map] at sum
    refine Eq.trans sum (congrArg List.sum (map_congr_left ?_))
    intro node here
    exact (counted node here).symm
  rw [located, Multiset.card_add, held, ticketIds, Multiset.coe_card, length_map]

theorem count_heldBy (nodes : List ClusterZoneNode) (entityId : UInt32) :
    (nodes.countP fun node => (node.zone.entityPosition entityId).isSome) =
      Multiset.count entityId (heldBy nodes) := by
  induction nodes with
  | nil => rfl
  | cons node rest ih =>
    have here : Multiset.count entityId node.zone.spatialGrid.heldIds.val =
        if (node.zone.entityPosition entityId).isSome then 1 else 0 := by
      rw [Multiset.count_eq_of_nodup node.zone.spatialGrid.heldIds.nodup]
      exact if_congr SpatialHashGrid.mem_heldIds rfl rfl
    have held : heldBy (node :: rest) = node.zone.spatialGrid.heldIds.val + heldBy rest := by
      rfl
    rw [held, Multiset.count_add, here, countP_cons, ih, Nat.add_comm]

end Nodes

section Calls

variable {cluster : MultiServerClusterHarness}

theorem single_writer (once : (located cluster.nodes).Nodup) (testEntities : List UInt32) :
    cluster.assertSingleWriterInvariant testEntities = true := by
  rw [MultiServerClusterHarness.assertSingleWriterInvariant, List.all_eq_true]
  intro entityId _
  have heldOnce : (heldBy cluster.nodes).Nodup := (Multiset.nodup_add.mp once).1
  rw [decide_eq_true_eq, count_heldBy]
  exact Multiset.nodup_iff_count_le_one.mp heldOnce entityId

theorem spawnEntity_spec (arranged : Arranged cluster.nodes) (zoneId : ZoneId)
    (entityId : UInt32) (pos : Vec3Fix) :
    Arranged (cluster.spawnEntity zoneId entityId pos).2.nodes ∧
      ((cluster.spawnEntity zoneId entityId pos).1 = .ok () →
        located (cluster.spawnEntity zoneId entityId pos).2.nodes =
          entityId ::ₘ located cluster.nodes) ∧
      ((cluster.spawnEntity zoneId entityId pos).1 ≠ .ok () →
        located (cluster.spawnEntity zoneId entityId pos).2.nodes = located cluster.nodes) := by
  rcases found : cluster.getNode zoneId with _ | node
  · have nothing : cluster.spawnEntity zoneId entityId pos =
        (.error (.zoneNotFound zoneId), cluster) := by
      rw [MultiServerClusterHarness.spawnEntity, found]
    rw [nothing]
    exact ⟨arranged, (fun done => by cases done), fun _ => rfl⟩
  have nodeHere : node ∈ cluster.nodes := KeyedList.mem_of_find found
  have counted := arranged.counted node nodeHere
  have grid := WorldZone.spatialGrid_insertEntity node.zone entityId pos
  have id := WorldZone.id_insertEntity node.zone entityId pos
  have done := @WorldZone.insertEntity_ok_iff node.zone entityId pos
  rcases outcome : node.zone.insertEntity entityId pos with ⟨result, zone⟩
  rw [outcome] at grid id done
  have spawning : cluster.spawnEntity zoneId entityId pos =
      (result, cluster.setNode zoneId { node with zone := zone }) := by
    simp only [MultiServerClusterHarness.spawnEntity, found, outcome]
  rw [spawning]
  have moved := located_replace found { node with zone := zone }
  refine ⟨?_, ?_, ?_⟩
  · apply arranged_replace arranged found { node with zone := zone } id
    · rw [grid]
      exact SpatialHashGrid.counted_insert counted _ _
    · exact arranged.outboxes node nodeHere
    exact ⟨rfl, rfl⟩
  · intro isOk
    have inserted := done.mp isOk
    have grown : nodeIds { node with zone := zone } = entityId ::ₘ nodeIds node := by
      simp only [nodeIds]
      rw [grid, SpatialHashGrid.heldIds_insert inserted, Finset.insert_val_of_notMem
        (SpatialHashGrid.notMem_heldIds_of_insert inserted), Multiset.cons_add]
    rw [grown, Multiset.add_cons, ← Multiset.cons_add] at moved
    exact add_right_cancel moved
  intro failed
  have unchanged : (node.zone.spatialGrid.insert entityId pos).2 = node.zone.spatialGrid :=
    SpatialHashGrid.insert_of_error fun inserted => failed (done.mpr inserted)
  have same : nodeIds { node with zone := zone } = nodeIds node := by
    simp only [nodeIds]
    rw [grid, unchanged]
  rw [same] at moved
  exact add_right_cancel moved

theorem removeEntity_spec (arranged : Arranged cluster.nodes) {zoneId : ZoneId}
    {entityId : UInt32} (done : (cluster.removeEntity zoneId entityId).1 = .ok ()) :
    Arranged (cluster.removeEntity zoneId entityId).2.nodes ∧ located cluster.nodes =
        entityId ::ₘ located (cluster.removeEntity zoneId entityId).2.nodes := by
  rw [MultiServerClusterHarness.removeEntity] at done ⊢
  rcases found : cluster.getNode zoneId with _ | node
  · rw [found] at done
    cases done
  rw [found] at done
  simp only at done ⊢
  have nodeHere : node ∈ cluster.nodes := KeyedList.mem_of_find found
  have counted := arranged.counted node nodeHere
  rcases position : node.zone.spatialGrid.getPosition entityId with _ | held
  · rw [WorldZone.removeEntity, SpatialHashGrid.remove_of_none position] at done
    cases done
  have removal : node.zone.removeEntity entityId =
      (.ok (), { node.zone with spatialGrid := (node.zone.spatialGrid.remove entityId).2 }) := by
    obtain ⟨removed, _, _⟩ := SpatialHashGrid.remove_of_some position
    rw [WorldZone.removeEntity]
    rcases outcome : node.zone.spatialGrid.remove entityId with ⟨result, grid⟩
    rw [outcome] at removed
    simp only at removed
    rw [removed]
  rw [removal]
  have member : entityId ∈ node.zone.spatialGrid.heldIds := by
    rw [SpatialHashGrid.mem_heldIds, position]
    rfl
  let changed : ClusterZoneNode :=
    { node with
      zone := { node.zone with
        spatialGrid := (node.zone.spatialGrid.remove entityId).2 } }
  have shrunk : nodeIds node = entityId ::ₘ nodeIds changed := by
    simp only [nodeIds, changed]
    rw [SpatialHashGrid.heldIds_remove position, ← Multiset.cons_add, Finset.erase_val,
      Multiset.cons_erase (Finset.mem_val.mpr member)]
  refine ⟨?_, ?_⟩
  · apply arranged_replace arranged found changed rfl
    · exact SpatialHashGrid.counted_remove counted position
    · exact arranged.outboxes node nodeHere
    exact ⟨rfl, rfl⟩
  have moved := located_replace found changed
  rw [shrunk, Multiset.add_cons, ← Multiset.cons_add] at moved
  exact (add_right_cancel moved).symm

theorem queueOutbox_spec (arranged : Arranged cluster.nodes) {zoneId : ZoneId}
    {ticket : MigrationTicket} (done : (cluster.queueOutbox zoneId ticket).1 = .ok ()) :
    Arranged (cluster.queueOutbox zoneId ticket).2.nodes ∧
      located (cluster.queueOutbox zoneId ticket).2.nodes =
        ticket.entityId ::ₘ located cluster.nodes := by
  rw [MultiServerClusterHarness.queueOutbox] at done ⊢
  rcases found : cluster.getNode zoneId with _ | node
  · rw [found] at done
    cases done
  rw [found] at done
  simp only at done ⊢
  have nodeHere : node ∈ cluster.nodes := KeyedList.mem_of_find found
  have boxed := arranged.outboxes node nodeHere
  rw [ClusterZoneNode.queueOutbox] at done ⊢
  by_cases space : node.outbox.entries.length < maxInFlightMigrations
  · obtain ⟨filled, queued, filledBoxed, entries⟩ :=
      queueTicket_of_lt boxed space "outbox_full" "outbox_exhausted" ticket
    rw [queued]
    let changed : ClusterZoneNode :=
      { node with outbox := filled, outboxCount := node.outboxCount + 1 }
    have grown : nodeIds changed = ticket.entityId ::ₘ nodeIds node := by
      have tickets : ticketIds filled.entries = ticket.entityId ::ₘ ticketIds node.outbox.entries :=
        Multiset.coe_eq_coe.mpr (entries.map _)
      simp only [nodeIds, changed]
      rw [tickets, Multiset.add_cons]
    refine ⟨?_, ?_⟩
    · apply arranged_replace arranged found changed rfl
      · exact arranged.counted node nodeHere
      · exact filledBoxed
      exact ⟨rfl, rfl⟩
    have moved := located_replace found changed
    rw [grown, Multiset.add_cons, ← Multiset.cons_add] at moved
    exact add_right_cancel moved
  rw [queueTicket_of_full boxed (Nat.le_of_not_lt space)] at done
  cases done

end Calls

/-- A cluster with the entities that were spawned and the number of dropped migrations. -/
structure ClusterLedger where
  cluster : MultiServerClusterHarness
  spawned : List UInt32
  dropped : Nat

inductive ClusterCall where
  | spawn (zoneId : ZoneId) (entityId : UInt32) (pos : Vec3Fix)
  /-- An entity leaves the grid of one node and its ticket waits at a node. -/
  | migrate (origin sender : ZoneId) (ticket : MigrationTicket)
  | tick

namespace ClusterLedger

def start (cluster : MultiServerClusterHarness) : ClusterLedger where
  cluster := cluster
  spawned := []
  dropped := 0

def step (ledger : ClusterLedger) : ClusterCall → ClusterLedger
  | .spawn zoneId entityId pos =>
    match ledger.cluster.spawnEntity zoneId entityId pos with
    | (.ok (), cluster) => { ledger with cluster := cluster, spawned := entityId :: ledger.spawned }
    | (.error _, cluster) => { ledger with cluster := cluster }
  | .migrate origin sender ticket =>
    let removed := (ledger.cluster.removeEntity origin ticket.entityId).2
    { ledger with cluster := (removed.queueOutbox sender ticket).2 }
  | .tick =>
    let (metrics, cluster) := ledger.cluster.stepTick
    { ledger with cluster := cluster, dropped := ledger.dropped + metrics.migrationsDropped }

/-- No entity is spawned twice, and migrations take the entity of the ticket and succeed. -/
def AsAgreed (ledger : ClusterLedger) : ClusterCall → Prop
  | .spawn _ entityId _ => entityId ∉ ledger.spawned
  | .migrate origin sender ticket =>
    (ledger.cluster.removeEntity origin ticket.entityId).1 = .ok () ∧
      ((ledger.cluster.removeEntity origin ticket.entityId).2.queueOutbox sender ticket).1 = .ok ()
  | .tick => True

/-- Each entity is in one grid at most, and none is lost without being counted. -/
def Conserves (ledger : ClusterLedger) : Prop :=
  (∀ testEntities, ledger.cluster.assertSingleWriterInvariant testEntities = true) ∧
    ledger.spawned.length =
      ledger.cluster.totalEntities + (waitingTickets ledger.cluster.nodes).length + ledger.dropped

/-- A tick delivers tickets only to nodes whose grids have a place for the entity. -/
def DeliversFitting (ledger : ClusterLedger) : ClusterCall → Prop
  | .tick => TicketsFit ledger.cluster.nodes
  | _ => True

/-- What holds along every run. -/
structure Kept (ledger : ClusterLedger) : Prop where
  orderly : Orderly ledger.cluster.nodes
  known : ∀ entityId ∈ located ledger.cluster.nodes, entityId ∈ ledger.spawned

variable {ledger : ClusterLedger}

theorem conserves_iff (kept : ledger.Kept) : ledger.Conserves ↔
      ledger.spawned.length = (located ledger.cluster.nodes).card + ledger.dropped := by
  rw [card_located kept.orderly.counted]
  exact and_iff_right fun testEntities => single_writer kept.orderly.once testEntities

variable {zoneId : ZoneId} {entityId : UInt32} {pos : Vec3Fix}

private theorem step_spawn_of_ok
    (done : (ledger.cluster.spawnEntity zoneId entityId pos).1 = .ok ()) :
    ledger.step (.spawn zoneId entityId pos) =
      { ledger with
        cluster := (ledger.cluster.spawnEntity zoneId entityId pos).2
        spawned := entityId :: ledger.spawned } := by
  rw [step]
  split
  · rename_i outcome
    rw [outcome]
  rename_i outcome
  rw [outcome] at done
  cases done

private theorem step_spawn_of_error
    (failed : (ledger.cluster.spawnEntity zoneId entityId pos).1 ≠ .ok ()) :
    ledger.step (.spawn zoneId entityId pos) =
      { ledger with cluster := (ledger.cluster.spawnEntity zoneId entityId pos).2 } := by
  rw [step]
  split
  · rename_i outcome
    rw [outcome] at failed
    exact absurd rfl failed
  rename_i outcome
  rw [outcome]

section

variable (kept : ledger.Kept)
include kept

private theorem kept_spawn (fresh : entityId ∉ ledger.spawned) :
    (ledger.step (.spawn zoneId entityId pos)).Kept ∧
      ((ledger.step (.spawn zoneId entityId pos)).Conserves ↔ ledger.Conserves) := by
  obtain ⟨arranged, once⟩ := orderly_iff.mp kept.orderly
  obtain ⟨arrangedAfter, onOk, onError⟩ := spawnEntity_spec arranged zoneId entityId pos
  by_cases done : (ledger.cluster.spawnEntity zoneId entityId pos).1 = .ok ()
  · have located := onOk done
    rw [step_spawn_of_ok done]
    have keptAfter : Kept
        { ledger with
          cluster := (ledger.cluster.spawnEntity zoneId entityId pos).2
          spawned := entityId :: ledger.spawned } := by
      refine ⟨orderly_iff.mpr ⟨arrangedAfter, ?_⟩, ?_⟩
      · rw [located, Multiset.nodup_cons]
        exact ⟨fun here => fresh (kept.known entityId here), once⟩
      intro other here
      rw [located, Multiset.mem_cons] at here
      rcases here with rfl | wasThere
      · exact mem_cons_self
      exact mem_cons_of_mem entityId (kept.known other wasThere)
    refine ⟨keptAfter, ?_⟩
    rw [conserves_iff keptAfter, conserves_iff kept]
    simp only [located, Multiset.card_cons, length_cons]
    omega
  have located := onError done
  rw [step_spawn_of_error done]
  have keptAfter : Kept
      { ledger with cluster := (ledger.cluster.spawnEntity zoneId entityId pos).2 } := by
    refine ⟨orderly_iff.mpr ⟨arrangedAfter, ?_⟩, ?_⟩
    · rw [located]
      exact once
    rw [located]
    exact kept.known
  refine ⟨keptAfter, ?_⟩
  rw [conserves_iff keptAfter, conserves_iff kept]
  simp only [located]

private theorem kept_migrate {origin sender : ZoneId} {ticket : MigrationTicket}
    (agreed : ledger.AsAgreed (.migrate origin sender ticket)) :
    (ledger.step (.migrate origin sender ticket)).Kept ∧
      ((ledger.step (.migrate origin sender ticket)).Conserves ↔ ledger.Conserves) := by
  obtain ⟨arranged, once⟩ := orderly_iff.mp kept.orderly
  obtain ⟨removedArranged, taken⟩ := removeEntity_spec arranged agreed.1
  obtain ⟨arrangedAfter, queued⟩ := queueOutbox_spec removedArranged agreed.2
  have same : located (ledger.step (.migrate origin sender ticket)).cluster.nodes =
      located ledger.cluster.nodes := by
    rw [taken]
    exact queued
  have keptAfter : (ledger.step (.migrate origin sender ticket)).Kept := by
    refine ⟨orderly_iff.mpr ⟨arrangedAfter, ?_⟩, ?_⟩
    · rw [same]
      exact once
    rw [same]
    exact kept.known
  refine ⟨keptAfter, ?_⟩
  rw [conserves_iff keptAfter, conserves_iff kept, same]
  rfl

private theorem kept_tick : (ledger.step .tick).Kept := by
  obtain ⟨nodesAfter, _⟩ := stepTick_eq kept.orderly
  have nodes : (ledger.step .tick).cluster.nodes =
      (routedNodes ledger.cluster.nodes).map fun node => node.adoptInbox.2 :=
    nodesAfter
  refine ⟨?_, ?_⟩
  · rw [nodes]
    exact orderly_stepped kept.orderly
  intro entityId here
  rw [nodes] at here
  exact kept.known entityId (Multiset.mem_of_le (located_stepped_le kept.orderly) here)

private theorem conserves_tick_iff (conserves : ledger.Conserves) :
    (ledger.step .tick).Conserves ↔ TicketsFit ledger.cluster.nodes := by
  have keptAfter := kept_tick kept
  obtain ⟨nodesAfter, _⟩ := stepTick_eq kept.orderly
  have nothingWaits : waitingTickets (ledger.step .tick).cluster.nodes = [] := by
    refine Eq.trans (congrArg waitingTickets ?_) (waitingTickets_stepped kept.orderly)
    exact nodesAfter
  have single : ∀ testEntities,
      (ledger.step .tick).cluster.assertSingleWriterInvariant testEntities = true :=
    single_writer keptAfter.orderly.once
  rw [← balanced_stepped_iff kept.orderly, Conserves, nothingWaits, and_iff_right single]
  have before := conserves.2
  simp only [step, length_nil]
  omega

theorem kept_step {call : ClusterCall} (agreed : ledger.AsAgreed call) : (ledger.step call).Kept ∧
      (ledger.Conserves → ((ledger.step call).Conserves ↔ ledger.DeliversFitting call)) := by
  cases call with
  | spawn zoneId entityId pos =>
    obtain ⟨keptAfter, same⟩ := kept_spawn kept agreed
    exact ⟨keptAfter, fun conserves => iff_of_true (same.mpr conserves) trivial⟩
  | migrate origin sender ticket =>
    obtain ⟨keptAfter, same⟩ := kept_migrate kept agreed
    exact ⟨keptAfter, fun conserves => iff_of_true (same.mpr conserves) trivial⟩
  | tick => exact ⟨kept_tick kept, conserves_tick_iff kept⟩

end

end ClusterLedger

/-- Nodes as they are created. -/
def ClusterZoneNode.Fresh (node : ClusterZoneNode) : Prop :=
  ∃ id bounds neighborZone neighborIsPositive maxEntities,
    node = ClusterZoneNode.new id bounds neighborZone neighborIsPositive maxEntities

variable (maxEntities : Nat)

private theorem heldIds_new : (SpatialHashGrid.new maxEntities).heldIds = ∅ := by
  rw [Finset.eq_empty_iff_forall_notMem]
  intro entityId held
  rw [SpatialHashGrid.mem_heldIds] at held
  cases held

private theorem nodeIds_fresh {node : ClusterZoneNode} (fresh : node.Fresh) : nodeIds node = 0 := by
  obtain ⟨id, bounds, neighborZone, neighborIsPositive, maxEntities, rfl⟩ := fresh
  simp only [nodeIds, ClusterZoneNode.new, WorldZone.new]
  rw [heldIds_new]
  rfl

private theorem located_fresh {nodes : List ClusterZoneNode}
    (fresh : ∀ node ∈ nodes, node.Fresh) : located nodes = 0 := by
  rw [located_eq]
  induction nodes with
  | nil => rfl
  | cons node rest ih =>
    rw [map_cons, sum_cons, nodeIds_fresh (fresh node mem_cons_self),
      ih fun other here => fresh other (mem_cons_of_mem node here)]
    rfl

private theorem arranged_fresh {nodes : List ClusterZoneNode} (fresh : ∀ node ∈ nodes, node.Fresh)
    (distinct : (nodes.map ClusterZoneNode.zoneId).Nodup) : Arranged nodes := by
  refine ⟨distinct, ?_, ?_, ?_⟩
  · intro node here
    obtain ⟨id, bounds, neighborZone, neighborIsPositive, maxEntities, rfl⟩ := fresh node here
    change (SpatialHashGrid.new maxEntities).Counted
    rw [SpatialHashGrid.Counted, heldIds_new]
    rfl
  · intro node here
    obtain ⟨id, bounds, neighborZone, neighborIsPositive, maxEntities, rfl⟩ := fresh node here
    exact boxed_empty
  intro node here
  obtain ⟨id, bounds, neighborZone, neighborIsPositive, maxEntities, rfl⟩ := fresh node here
  exact ⟨rfl, rfl⟩

theorem kept_start {cluster : MultiServerClusterHarness}
    (fresh : ∀ node ∈ cluster.nodes, node.Fresh)
    (distinct : (cluster.nodes.map ClusterZoneNode.zoneId).Nodup) :
    (ClusterLedger.start cluster).Kept ∧ (ClusterLedger.start cluster).Conserves := by
  have nothing : located cluster.nodes = 0 := located_fresh fresh
  have kept : (ClusterLedger.start cluster).Kept := by
    refine ⟨orderly_iff.mpr ⟨arranged_fresh fresh distinct, ?_⟩, ?_⟩
    · change (located cluster.nodes).Nodup
      rw [nothing]
      exact Multiset.nodup_zero
    intro entityId here
    change entityId ∈ located cluster.nodes at here
    rw [nothing] at here
    exact absurd here (Multiset.notMem_zero entityId)
  refine ⟨kept, ?_⟩
  rw [ClusterLedger.conserves_iff kept]
  change 0 = (located cluster.nodes).card + 0
  rw [nothing]
  rfl

/-- A run loses no entity without counting it exactly if every tick delivers tickets only for
entities within the capacity of the grid of their target. -/
theorem cluster_conserves_iff {cluster : MultiServerClusterHarness}
    (fresh : ∀ node ∈ cluster.nodes, node.Fresh)
    (distinct : (cluster.nodes.map ClusterZoneNode.zoneId).Nodup) {calls : List ClusterCall}
    (agreed : EachStep ClusterLedger.step ClusterLedger.AsAgreed
      (ClusterLedger.start cluster) calls) :
    Throughout ClusterLedger.step ClusterLedger.Conserves (ClusterLedger.start cluster) calls ↔
      EachStep ClusterLedger.step ClusterLedger.DeliversFitting
        (ClusterLedger.start cluster) calls := by
  obtain ⟨kept, conserves⟩ := kept_start fresh distinct
  apply throughout_iff_eachStep_of_assumed ?_ ?_ kept conserves agreed
  · intro ledger call keptHere agreedHere
    exact (ClusterLedger.kept_step keptHere agreedHere).1
  intro ledger call keptHere agreedHere conservesHere
  exact (ClusterLedger.kept_step keptHere agreedHere).2 conservesHere

private def plainBounds : ZoneBounds where
  minX := Fixed64.fromRaw 0
  maxX := Fixed64.fromRaw 0
  minZ := Fixed64.fromRaw 0
  maxZ := Fixed64.fromRaw 0
  seamAxis := .eastWest
  seamMin := Fixed64.fromRaw 0
  seamMax := Fixed64.fromRaw 0

private def plainPosition : Vec3Fix where
  x := Fixed64.fromRaw 0
  y := Fixed64.fromRaw 0
  z := Fixed64.fromRaw 0

private def twoZones : MultiServerClusterHarness where
  nodes :=
    [ClusterZoneNode.new ⟨1⟩ plainBounds none true 10,
     ClusterZoneNode.new ⟨2⟩ plainBounds none true maxEntities]
  currentTick := 0

/-- Entity 7 is sent from the first zone to the second one. -/
private def crossing : List ClusterCall :=
  [.spawn ⟨1⟩ 7 plainPosition, .migrate ⟨1⟩ ⟨1⟩
      { entityId := 7, fromZone := ⟨1⟩, toZone := ⟨2⟩, position := plainPosition,
        inSeam := false },
   .tick]

private theorem fresh_twoZones : ∀ node ∈ (twoZones maxEntities).nodes, node.Fresh := by
  intro node here
  simp only [twoZones, mem_cons, not_mem_nil, or_false] at here
  rcases here with rfl | rfl
  · exact ⟨_, _, _, _, _, rfl⟩
  exact ⟨_, _, _, _, _, rfl⟩

private theorem agreed_crossing : EachStep ClusterLedger.step ClusterLedger.AsAgreed
      (ClusterLedger.start (twoZones maxEntities)) crossing := by
  refine ⟨?_, ⟨?_, ?_⟩, trivial, trivial⟩
  · exact not_mem_nil
  · rfl
  rfl

theorem cluster_conserves_iff_crossing : Throughout ClusterLedger.step ClusterLedger.Conserves
      (ClusterLedger.start (twoZones 10)) crossing := by
  apply (cluster_conserves_iff (fresh_twoZones 10) (by decide) (agreed_crossing 10)).mpr
  refine ⟨trivial, trivial, ?_, trivial⟩
  simp only [ClusterLedger.DeliversFitting, TicketsFit]
  decide

/-- With a grid for four entities the second zone cannot take entity 7, which is gone. -/
theorem not_cluster_conserves_small_grid : EachStep ClusterLedger.step ClusterLedger.AsAgreed
        (ClusterLedger.start (twoZones 4)) crossing ∧
      ¬ Throughout ClusterLedger.step ClusterLedger.Conserves
        (ClusterLedger.start (twoZones 4)) crossing := by
  refine ⟨agreed_crossing 4, ?_⟩
  intro always
  have balanced := always.run.2
  revert balanced
  decide

end Eidolon.World
