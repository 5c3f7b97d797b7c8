import Mathlib.Algebra.Order.BigOperators.Group.List
import Mathlib.Algebra.Order.Group.Multiset
import Mathlib.Algebra.Order.Group.Nat
import Mathlib.Data.Finset.Card
import Eidolon.Library.Run
import Eidolon.World.Cluster

/-!
# Conservation of entities in a cluster

Every entity is in one grid, waits in one outbox or is gone.  A tick counts what it drops
for lack of space or of a target zone; the one loss that it does not count is a ticket
that reaches an inbox and cannot be inserted into the grid.
-/

namespace Eidolon.Spatial

open Core List

namespace SpatialHashGrid

def heldIds (grid : SpatialHashGrid) : Finset UInt32 :=
  ((Finset.range grid.maxEntities).image UInt32.ofNat).filter fun entityId =>
    (grid.getPosition entityId).isSome

def Counted (grid : SpatialHashGrid) : Prop :=
  grid.activeCount = grid.heldIds.card

variable {grid : SpatialHashGrid} {entityId : UInt32}

theorem mem_heldIds : entityId ∈ grid.heldIds ↔ (grid.getPosition entityId).isSome := by
  rw [heldIds, Finset.mem_filter, Finset.mem_image]
  refine and_iff_right_of_imp fun held => ⟨entityId.toNat, ?_, UInt32.ofNat_toNat⟩
  obtain ⟨position, found⟩ := Option.isSome_iff_exists.mp held
  exact Finset.mem_range.mpr (lt_of_getPosition found)

variable {position : Vec3Fix}

section

variable (done : (grid.insert entityId position).1 = .ok ())
include done

theorem heldIds_insert :
    (grid.insert entityId position).2.heldIds = Insert.insert entityId grid.heldIds := by
  ext other
  rw [mem_heldIds, getPosition_insert done, Finset.mem_insert, mem_heldIds]
  by_cases same : other = entityId
  · simp [same]
  simp [same]

theorem notMem_heldIds_of_insert : entityId ∉ grid.heldIds := by
  rw [mem_heldIds, (insert_ok_iff.mp done).2]
  decide

theorem activeCount_insert :
    (grid.insert entityId position).2.activeCount = grid.activeCount + 1 := by
  obtain ⟨fits, free⟩ := insert_ok_iff.mp done
  rw [getPosition_eq_none_iff] at free
  have notActive : ¬ (grid.entities entityId).isSome := by
    rw [free]
    decide
  rw [insert, dif_pos fits, if_neg notActive]

end

theorem counted_insert (counted : grid.Counted) (entityId : UInt32) (position : Vec3Fix) :
    (grid.insert entityId position).2.Counted := by
  by_cases done : (grid.insert entityId position).1 = .ok ()
  · rw [Counted, activeCount_insert done, heldIds_insert done,
      Finset.card_insert_of_notMem (notMem_heldIds_of_insert done), counted]
  rw [insert_of_error done]
  exact counted

theorem heldIds_remove (held : grid.getPosition entityId = some position) :
    (grid.remove entityId).2.heldIds = grid.heldIds.erase entityId := by
  ext other
  rw [mem_heldIds, (remove_of_some held).2.1, Finset.mem_erase, mem_heldIds]
  by_cases same : other = entityId
  · simp [same]
  simp [same]

theorem activeCount_remove (held : grid.getPosition entityId = some position) :
    (grid.remove entityId).2.activeCount = grid.activeCount - 1 := by
  rw [remove]
  split
  · rename_i missing
    rw [getPosition, missing] at held
    cases held
  rfl

theorem counted_remove (counted : grid.Counted) (held : grid.getPosition entityId = some position) :
    (grid.remove entityId).2.Counted := by
  have member : entityId ∈ grid.heldIds := by
    rw [mem_heldIds, held]
    rfl
  rw [Counted, activeCount_remove held, heldIds_remove held, Finset.card_erase_of_mem member,
    counted]

end SpatialHashGrid

end Eidolon.Spatial

namespace Eidolon.World

open Core Library List Spatial

structure Adopted (zone : WorldZone) (tickets : List MigrationTicket) (after : WorldZone)
    (number : Nat) : Prop where
  id : after.id = zone.id
  capacity : after.spatialGrid.maxEntities = zone.spatialGrid.maxEntities
  counted : after.spatialGrid.Counted
  held : ∃ adopted : List MigrationTicket, adopted.Sublist tickets ∧ adopted.length = number ∧
    after.spatialGrid.heldIds.val =
      (adopted.map (·.entityId) : List UInt32) + zone.spatialGrid.heldIds.val

theorem adopted_adoptTickets {zone : WorldZone} (counted : zone.spatialGrid.Counted)
    (tickets : List MigrationTicket) :
    Adopted zone tickets (adoptTickets zone tickets).1 (adoptTickets zone tickets).2 := by
  induction tickets generalizing zone with
  | nil => exact ⟨rfl, rfl, counted, [], List.Sublist.refl [], rfl, by simp [adoptTickets]⟩
  | cons ticket rest ih =>
    have grid := WorldZone.spatialGrid_insertEntity zone ticket.entityId ticket.position
    have id := WorldZone.id_insertEntity zone ticket.entityId ticket.position
    have done : (zone.insertEntity ticket.entityId ticket.position).1 = .ok () ↔
        (zone.spatialGrid.insert ticket.entityId ticket.position).1 = .ok () :=
      WorldZone.insertEntity_ok_iff
    rw [adoptTickets]
    rcases outcome : zone.insertEntity ticket.entityId ticket.position with ⟨result, next⟩
    rw [outcome] at grid id done
    have nextCounted : next.spatialGrid.Counted := by
      rw [grid]
      exact SpatialHashGrid.counted_insert counted _ _
    have nextCapacity : next.spatialGrid.maxEntities = zone.spatialGrid.maxEntities := by
      rw [grid, SpatialHashGrid.maxEntities_insert]
    obtain ⟨laterId, laterCapacity, laterCounted, adopted, sublist, length, held⟩ :=
      ih nextCounted
    cases result with
    | ok _ =>
      have inserted := done.mp rfl
      refine ⟨laterId.trans id, laterCapacity.trans nextCapacity, laterCounted,
        ticket :: adopted, sublist.cons_cons ticket, by rw [length_cons, length], ?_⟩
      rw [held, grid, SpatialHashGrid.heldIds_insert inserted, Finset.insert_val_of_notMem
        (SpatialHashGrid.notMem_heldIds_of_insert inserted), map_cons,
        ← Multiset.cons_coe, Multiset.cons_add, Multiset.add_cons]
    | error error =>
      have unchanged : (zone.spatialGrid.insert ticket.entityId ticket.position).2 =
          zone.spatialGrid := by
        apply SpatialHashGrid.insert_of_error
        intro inserted
        cases done.mpr inserted
      refine ⟨laterId.trans id, laterCapacity.trans nextCapacity, laterCounted,
        adopted, sublist.cons ticket, length, ?_⟩
      rw [held, grid, unchanged]

variable {tickets : List MigrationTicket}

/-- Tickets of entities that are not there yet are all adopted exactly if their identifiers
are within the capacity. -/
theorem adoptTickets_all_iff {zone : WorldZone} (counted : zone.spatialGrid.Counted)
    (distinct : (tickets.map (·.entityId)).Nodup)
    (absent : ∀ ticket ∈ tickets, ticket.entityId ∉ zone.spatialGrid.heldIds) :
    (adoptTickets zone tickets).2 = tickets.length ↔
      ∀ ticket ∈ tickets, ticket.entityId.toNat < zone.spatialGrid.maxEntities := by
  induction tickets generalizing zone with
  | nil => simp [adoptTickets]
  | cons ticket rest ih =>
    rw [map_cons, nodup_cons] at distinct
    have free : zone.spatialGrid.getPosition ticket.entityId = none := by
      have notHeld := absent ticket mem_cons_self
      rw [SpatialHashGrid.mem_heldIds] at notHeld
      exact Option.not_isSome_iff_eq_none.mp notHeld
    have done : (zone.insertEntity ticket.entityId ticket.position).1 = .ok () ↔
        ticket.entityId.toNat < zone.spatialGrid.maxEntities := by
      rw [WorldZone.insertEntity_ok_iff, SpatialHashGrid.insert_ok_iff]
      exact and_iff_left free
    have grid := WorldZone.spatialGrid_insertEntity zone ticket.entityId ticket.position
    rw [adoptTickets, forall_mem_cons, ← done]
    rcases outcome : zone.insertEntity ticket.entityId ticket.position with ⟨result, next⟩
    rw [outcome] at grid done
    have nextCounted : next.spatialGrid.Counted := by
      rw [grid]
      exact SpatialHashGrid.counted_insert counted _ _
    cases result with
    | ok _ =>
      have inserted : (zone.spatialGrid.insert ticket.entityId ticket.position).1 = .ok () :=
        SpatialHashGrid.insert_ok_iff.mpr ⟨done.mp rfl, free⟩
      have nextAbsent : ∀ later ∈ rest, later.entityId ∉ next.spatialGrid.heldIds := by
        intro later here
        rw [grid, SpatialHashGrid.heldIds_insert inserted, Finset.mem_insert, not_or]
        refine ⟨?_, absent later (mem_cons_of_mem ticket here)⟩
        intro same
        exact distinct.1 (same ▸ mem_map_of_mem here)
      have capacity : next.spatialGrid.maxEntities = zone.spatialGrid.maxEntities := by
        rw [grid, SpatialHashGrid.maxEntities_insert]
      have later := ih nextCounted distinct.2 nextAbsent
      rw [capacity] at later
      simp only [length_cons, Nat.add_right_cancel_iff, true_and]
      exact later
    | error error =>
      obtain ⟨adopted, sublist, length, _⟩ := (adopted_adoptTickets nextCounted rest).held
      have fewer := sublist.length_le
      refine iff_of_false ?_ (by simp)
      simp only [length_cons]
      omega

def Boxed (box : TicketBox) (count : Nat) : Prop :=
  count = box.entries.length

theorem boxed_empty : Boxed (SlotArray.empty _ _) 0 := by
  rfl

variable {count : Nat}

theorem queueTicket_of_lt {box : TicketBox} (boxed : Boxed box count)
    (space : box.entries.length < maxInFlightMigrations) (fullError exhaustedError : String)
    (ticket : MigrationTicket) :
    ∃ filled, queueTicket box count fullError exhaustedError ticket = .ok (filled, count + 1) ∧
      Boxed filled (count + 1) ∧ filled.entries.Perm (ticket :: box.entries) := by
  have notFull : ¬ maxInFlightMigrations ≤ count := by
    rw [Boxed] at boxed
    omega
  obtain ⟨filled, placed⟩ :=
    Option.isSome_iff_exists.mp (SlotArray.fillFirst?_isSome_iff.mpr space)
  have entries : filled.entries.Perm (ticket :: box.entries) :=
    SlotArray.fillFirst?_entries placed
  refine ⟨filled, ?_, ?_, entries⟩
  · rw [queueTicket, if_neg notFull, placed]
  rw [Boxed, entries.length_eq, length_cons, boxed]

theorem queueTicket_of_full {box : TicketBox} (boxed : Boxed box count)
    (full : maxInFlightMigrations ≤ box.entries.length) (fullError exhaustedError : String)
    (ticket : MigrationTicket) :
    queueTicket box count fullError exhaustedError ticket =
      .error (.transactionAborted fullError) := by
  rw [Boxed] at boxed
  rw [queueTicket, if_pos (by omega)]

def waitingTickets (nodes : List ClusterZoneNode) : List MigrationTicket :=
  nodes.flatMap fun node => node.outbox.entries

theorem foldl_stageTicket (tickets : List MigrationTicket)
    {staged : List MigrationTicket × Nat} (fits : staged.1.length ≤ maxStagedMigrations) :
    tickets.foldl stageTicket staged =
      (staged.1 ++ tickets.take (maxStagedMigrations - staged.1.length),
        staged.2 + (tickets.length - (maxStagedMigrations - staged.1.length))) := by
  induction tickets generalizing staged with
  | nil => simp
  | cons ticket rest ih =>
    rw [foldl_cons, stageTicket]
    by_cases space : staged.1.length < maxStagedMigrations
    · obtain ⟨left, leftEq⟩ : ∃ left, maxStagedMigrations - staged.1.length = left + 1 :=
        ⟨maxStagedMigrations - staged.1.length - 1, by omega⟩
      have leftAfter : maxStagedMigrations - (staged.1 ++ [ticket]).length = left := by
        rw [length_append, length_singleton]
        omega
      have fitsAfter : (staged.1 ++ [ticket]).length ≤ maxStagedMigrations := by
        rw [length_append, length_singleton]
        omega
      rw [if_pos space, ih fitsAfter, leftAfter, leftEq, take_succ_cons,
        append_assoc, singleton_append, length_cons, Nat.add_sub_add_right]
    have noSpace : maxStagedMigrations - staged.1.length = 0 := by
      omega
    have later : rest.foldl stageTicket (staged.1, staged.2 + 1) =
        (staged.1 ++ rest.take (maxStagedMigrations - staged.1.length),
          staged.2 + 1 + (rest.length - (maxStagedMigrations - staged.1.length))) :=
      ih fits
    rw [if_neg space, later, noSpace, take_zero, take_zero, length_cons]
    simp only [Nat.sub_zero, Prod.mk.injEq, true_and]
    omega

def flushedNode (node : ClusterZoneNode) : ClusterZoneNode :=
  { node with outbox := SlotArray.empty _ _, outboxCount := 0 }

variable {node : ClusterZoneNode}

theorem flushOutbox_eq (boxed : Boxed node.outbox node.outboxCount) :
    node.flushOutbox maxInFlightMigrations = (node.outbox.entries, flushedNode node) := by
  have bound := node.outbox.entries_length_le
  have all : min node.outboxCount maxInFlightMigrations = node.outbox.entries.length := by
    rw [boxed]
    omega
  have nothingLeft : node.outboxCount - node.outbox.entries.length = 0 := by
    rw [boxed]
    omega
  rw [ClusterZoneNode.flushOutbox, all, SlotArray.drain_all (Nat.le_refl _)]
  simp only [nothingLeft]
  rfl

variable {nodes : List ClusterZoneNode}

theorem stageOutboxes_eq (boxed : ∀ node ∈ nodes, Boxed node.outbox node.outboxCount)
    (staged : List MigrationTicket × Nat) :
    stageOutboxes nodes staged =
      (nodes.map flushedNode, (waitingTickets nodes).foldl stageTicket staged) := by
  induction nodes generalizing staged with
  | nil => rfl
  | cons node rest ih =>
    have here := flushOutbox_eq (boxed node mem_cons_self)
    have later := ih (fun other member =>
      boxed other (mem_cons_of_mem node member))
    simp only [stageOutboxes, here, later, map_cons, waitingTickets, flatMap_cons, foldl_append]

theorem stageOutboxes_empty (boxed : ∀ node ∈ nodes, Boxed node.outbox node.outboxCount) :
    stageOutboxes nodes ([], 0) =
      (nodes.map flushedNode, (waitingTickets nodes).take maxStagedMigrations,
        (waitingTickets nodes).length - maxStagedMigrations) := by
  rw [stageOutboxes_eq boxed, foldl_stageTicket _ (Nat.zero_le _)]
  simp

def acceptedTickets (tickets : List MigrationTicket) (zoneId : ZoneId) : List MigrationTicket :=
  (tickets.filter fun ticket => decide (ticket.toZone = zoneId)).take maxInFlightMigrations

variable {ticket : MigrationTicket}

theorem acceptedTickets_append_of_ne {zoneId : ZoneId} (elsewhere : ticket.toZone ≠ zoneId)
    (tickets : List MigrationTicket) :
    acceptedTickets (tickets ++ [ticket]) zoneId = acceptedTickets tickets zoneId := by
  simp [elsewhere, acceptedTickets]

theorem acceptedTickets_append_of_lt
    (space : (acceptedTickets tickets ticket.toZone).length < maxInFlightMigrations) :
    acceptedTickets (tickets ++ [ticket]) ticket.toZone =
      acceptedTickets tickets ticket.toZone ++ [ticket] := by
  rw [acceptedTickets, length_take] at space
  have grown : (tickets ++ [ticket]).filter (fun other => decide (other.toZone = ticket.toZone)) =
      tickets.filter (fun other => decide (other.toZone = ticket.toZone)) ++ [ticket] := by
    simp
  have fits : (tickets.filter (fun other => decide (other.toZone = ticket.toZone)) ++
      [ticket]).length ≤ maxInFlightMigrations := by
    rw [length_append, length_singleton]
    omega
  rw [acceptedTickets, acceptedTickets, grown, take_of_length_le fits, take_of_length_le (by omega)]

theorem acceptedTickets_append_of_full {zoneId : ZoneId}
    (full : maxInFlightMigrations ≤ (acceptedTickets tickets zoneId).length) :
    acceptedTickets (tickets ++ [ticket]) zoneId = acceptedTickets tickets zoneId := by
  rw [acceptedTickets, length_take] at full
  rw [acceptedTickets, acceptedTickets, filter_append, take_append_of_le_length]
  omega

def unrouted (node : ClusterZoneNode) : WorldZone × TicketBox × Nat :=
  (node.zone, node.outbox, node.outboxCount)

/-- The nodes after routing tickets and how many were dropped, in comparison with the nodes
before, whose inboxes were empty. -/
structure Routed (before : List ClusterZoneNode) (tickets : List MigrationTicket)
    (after : List ClusterZoneNode) (dropped : Nat) : Prop where
  unchanged : after.map unrouted = before.map unrouted
  boxed : ∀ node ∈ after, Boxed node.inbox node.inboxCount
  inbox : ∀ node ∈ after, node.inbox.entries.Perm (acceptedTickets tickets node.zoneId)
  conserved : ∃ lost : Multiset MigrationTicket, lost.card = dropped ∧
    (after.map fun node => (node.inbox.entries : Multiset MigrationTicket)).sum + lost =
      (tickets : Multiset MigrationTicket)

variable {dropped : Nat}

theorem Routed.zoneIds {before after : List ClusterZoneNode}
    (routed : Routed before tickets after dropped) :
    after.map ClusterZoneNode.zoneId = before.map ClusterZoneNode.zoneId := by
  have same := congrArg (List.map fun view : WorldZone × TicketBox × Nat => view.1.id)
    routed.unchanged
  rw [map_map, map_map] at same
  exact same

private theorem coe_append_singleton (tickets : List MigrationTicket) (ticket : MigrationTicket) :
    ((tickets ++ [ticket] : List MigrationTicket) : Multiset MigrationTicket) =
      ticket ::ₘ (tickets : Multiset MigrationTicket) :=
  Multiset.coe_eq_coe.mpr (perm_append_singleton ticket tickets)

private theorem routed_dropped {before : List ClusterZoneNode}
    (routed : Routed before tickets nodes dropped)
    (kept : ∀ node ∈ nodes, acceptedTickets (tickets ++ [ticket]) node.zoneId =
      acceptedTickets tickets node.zoneId) :
    Routed before (tickets ++ [ticket]) nodes (dropped + 1) := by
  refine ⟨routed.unchanged, routed.boxed, ?_, ?_⟩
  · intro node here
    rw [kept node here]
    exact routed.inbox node here
  obtain ⟨lost, card, conserved⟩ := routed.conserved
  refine ⟨ticket ::ₘ lost, by rw [Multiset.card_cons, card], ?_⟩
  rw [Multiset.add_cons, conserved, coe_append_singleton]

private theorem routed_queued {before : List ClusterZoneNode}
    (distinct : (before.map ClusterZoneNode.zoneId).Nodup)
    (routed : Routed before tickets nodes dropped)
    (found : KeyedList.find ClusterZoneNode.zoneId nodes ticket.toZone = some node)
    (space : node.inbox.entries.length < maxInFlightMigrations) {filled : TicketBox}
    (boxed : Boxed filled count) (entries : filled.entries.Perm (ticket :: node.inbox.entries)) :
    Routed before (tickets ++ [ticket])
      (KeyedList.replace ClusterZoneNode.zoneId nodes ticket.toZone
        { node with inbox := filled, inboxCount := count }) dropped := by
  have named : node.zoneId = ticket.toZone := KeyedList.key_of_find found
  have nodeHere : node ∈ nodes := KeyedList.mem_of_find found
  have nodesDistinct : (nodes.map ClusterZoneNode.zoneId).Nodup := by
    rw [routed.zoneIds]
    exact distinct
  have members : ∀ other ∈ KeyedList.replace ClusterZoneNode.zoneId nodes ticket.toZone
      { node with inbox := filled, inboxCount := count },
      other = { node with inbox := filled, inboxCount := count } ∨
        (other ∈ nodes ∧ other.zoneId ≠ ticket.toZone) := by
    intro other here
    exact KeyedList.eq_or_of_mem_replace nodesDistinct found named here
  have inbox := routed.inbox node nodeHere
  rw [named] at inbox
  refine ⟨?_, ?_, ?_, ?_⟩
  · rw [← routed.unchanged]
    exact KeyedList.map_replace_of_find found rfl
  · intro other here
    rcases members other here with rfl | ⟨wasThere, _⟩
    · exact boxed
    exact routed.boxed other wasThere
  · intro other here
    rcases members other here with rfl | ⟨wasThere, elsewhere⟩
    · change filled.entries.Perm (acceptedTickets (tickets ++ [ticket]) node.zoneId)
      rw [named, acceptedTickets_append_of_lt (by rw [← inbox.length_eq]; exact space)]
      exact entries.trans ((inbox.cons ticket).trans (perm_append_singleton _ _).symm)
    rw [acceptedTickets_append_of_ne (Ne.symm elsewhere)]
    exact routed.inbox other wasThere
  obtain ⟨lost, card, conserved⟩ := routed.conserved
  refine ⟨lost, card, ?_⟩
  have moved := KeyedList.sum_replace found { node with inbox := filled, inboxCount := count }
    (fun node => (node.inbox.entries : Multiset MigrationTicket))
  have grown : (filled.entries : Multiset MigrationTicket) =
      ticket ::ₘ (node.inbox.entries : Multiset MigrationTicket) :=
    Multiset.coe_eq_coe.mpr entries
  rw [grown, Multiset.add_cons, ← Multiset.cons_add] at moved
  have more := add_right_cancel moved
  rw [more, Multiset.cons_add, conserved, coe_append_singleton]

private theorem routed_routeTicket {before : List ClusterZoneNode}
    (distinct : (before.map ClusterZoneNode.zoneId).Nodup)
    (routed : Routed before tickets nodes dropped) (ticket : MigrationTicket) :
    Routed before (tickets ++ [ticket]) (routeTicket nodes ticket).1
      (if (routeTicket nodes ticket).2 then dropped else dropped + 1) := by
  rw [routeTicket]
  rcases found : KeyedList.find ClusterZoneNode.zoneId nodes ticket.toZone with _ | node
  · -- there is no node for the zone
    have elsewhere := KeyedList.find_eq_none_iff.mp found
    exact routed_dropped routed fun other here =>
      acceptedTickets_append_of_ne (Ne.symm (elsewhere other here)) tickets
  have named : node.zoneId = ticket.toZone := KeyedList.key_of_find found
  have nodeHere : node ∈ nodes := KeyedList.mem_of_find found
  have boxed := routed.boxed node nodeHere
  have inbox := routed.inbox node nodeHere
  by_cases space : node.inbox.entries.length < maxInFlightMigrations
  · obtain ⟨filled, queued, filledBoxed, entries⟩ :=
      queueTicket_of_lt boxed space "inbox_full" "inbox_exhausted" ticket
    simp only [ClusterZoneNode.queueInbox, queued, if_true]
    exact routed_queued distinct routed found space filledBoxed entries
  have full : maxInFlightMigrations ≤ node.inbox.entries.length := Nat.le_of_not_lt space
  simp only [ClusterZoneNode.queueInbox, queueTicket_of_full boxed full]
  rw [KeyedList.replace_self found]
  refine routed_dropped routed fun other here => ?_
  by_cases sameZone : ticket.toZone = other.zoneId
  · apply acceptedTickets_append_of_full
    rw [← sameZone, ← named, ← inbox.length_eq]
    exact full
  exact acceptedTickets_append_of_ne sameZone tickets

private theorem routed_routeTickets_from {before : List ClusterZoneNode}
    (distinct : (before.map ClusterZoneNode.zoneId).Nodup)
    (routed : Routed before tickets nodes dropped) (more : List MigrationTicket) :
    Routed before (tickets ++ more) (routeTickets nodes more).1
      (dropped + (routeTickets nodes more).2) := by
  induction more generalizing nodes tickets dropped with
  | nil =>
    rw [append_nil]
    exact routed
  | cons ticket rest ih =>
    have one := routed_routeTicket distinct routed ticket
    have all := ih one
    rw [append_assoc] at all
    rw [routeTickets]
    rcases outcome : routeTicket nodes ticket with ⟨next, accepted⟩
    rw [outcome] at all
    cases accepted with
    | true => exact all
    | false =>
      simp only [Bool.false_eq_true, if_false] at all ⊢
      rw [Nat.add_right_comm] at all
      exact all

theorem routed_routeTickets (distinct : (nodes.map ClusterZoneNode.zoneId).Nodup)
    (empty : ∀ node ∈ nodes, node.inbox = SlotArray.empty _ _ ∧ node.inboxCount = 0)
    (tickets : List MigrationTicket) :
    Routed nodes tickets (routeTickets nodes tickets).1 (routeTickets nodes tickets).2 := by
  have start : Routed nodes [] nodes 0 := by
    refine ⟨rfl, ?_, ?_, 0, rfl, ?_⟩
    · intro node here
      rw [(empty node here).1, (empty node here).2]
      exact boxed_empty
    · intro node here
      rw [(empty node here).1]
      exact List.Perm.refl []
    have nothing : nodes.map (fun node => (node.inbox.entries : Multiset MigrationTicket)) =
        nodes.map fun _ => 0 := by
      apply map_congr_left
      intro node here
      rw [(empty node here).1]
      rfl
    rw [nothing, map_const', sum_replicate, nsmul_zero]
    rfl
  have all := routed_routeTickets_from distinct start tickets
  rw [Nat.zero_add] at all
  exact all

def ticketIds (tickets : List MigrationTicket) : Multiset UInt32 :=
  (tickets.map (·.entityId) : List UInt32)

def heldBy (nodes : List ClusterZoneNode) : Multiset UInt32 :=
  (nodes.map fun node => node.zone.spatialGrid.heldIds.val).sum

def inboxIds (nodes : List ClusterZoneNode) : Multiset UInt32 :=
  (nodes.map fun node => ticketIds node.inbox.entries).sum

theorem adoptInbox_fst (node : ClusterZoneNode) :
    node.adoptInbox.1 = (adoptTickets node.zone node.inbox.entries).2 :=
  rfl

theorem zone_adoptInbox (node : ClusterZoneNode) :
    node.adoptInbox.2.zone = (adoptTickets node.zone node.inbox.entries).1 :=
  rfl

private theorem ticketIds_le {some all : List MigrationTicket} (sublist : some.Sublist all) :
    ticketIds some ≤ ticketIds all :=
  Multiset.coe_le.mpr (sublist.map _).subperm

theorem heldBy_adopted (counted : ∀ node ∈ nodes, node.zone.spatialGrid.Counted) :
    heldBy (nodes.map fun node => node.adoptInbox.2) ≤ heldBy nodes + inboxIds nodes := by
  induction nodes with
  | nil => exact le_rfl
  | cons node rest ih =>
    have later := ih fun other here =>
      counted other (mem_cons_of_mem node here)
    obtain ⟨adopted, sublist, _, held⟩ :=
      (adopted_adoptTickets (counted node mem_cons_self) node.inbox.entries).held
    simp only [heldBy, inboxIds, map_cons, sum_cons] at later ⊢
    rw [zone_adoptInbox, held]
    calc ticketIds adopted + node.zone.spatialGrid.heldIds.val + _
        ≤ ticketIds node.inbox.entries + node.zone.spatialGrid.heldIds.val + _ :=
          add_le_add (add_le_add (ticketIds_le sublist) le_rfl) later
      _ = _ := by
          rw [add_comm (ticketIds node.inbox.entries), add_add_add_comm]

theorem activeCount_adopted (counted : ∀ node ∈ nodes, node.zone.spatialGrid.Counted) :
    (nodes.map fun node => node.adoptInbox.2.zone.spatialGrid.activeCount).sum =
      (nodes.map fun node => node.zone.spatialGrid.activeCount).sum +
        (nodes.map fun node => node.adoptInbox.1).sum := by
  induction nodes with
  | nil => rfl
  | cons node rest ih =>
    have later := ih fun other here =>
      counted other (mem_cons_of_mem node here)
    have countedNode := counted node mem_cons_self
    have adoption := adopted_adoptTickets countedNode node.inbox.entries
    obtain ⟨adopted, _, length, held⟩ := adoption.held
    have card := congrArg Multiset.card held
    rw [Multiset.card_add, Multiset.coe_card, length_map, length] at card
    have here : node.adoptInbox.2.zone.spatialGrid.activeCount =
        node.zone.spatialGrid.activeCount + node.adoptInbox.1 := by
      rw [zone_adoptInbox, adoptInbox_fst, adoption.counted, countedNode, Finset.card,
        Finset.card, card, Nat.add_comm]
    simp only [map_cons, sum_cons, later, here]
    omega

theorem adoptInbox_le (counted : node.zone.spatialGrid.Counted) :
    node.adoptInbox.1 ≤ node.inbox.entries.length := by
  obtain ⟨adopted, sublist, length, _⟩ :=
    (adopted_adoptTickets counted node.inbox.entries).held
  rw [adoptInbox_fst, ← length]
  exact sublist.length_le

private theorem sum_eq_sum_iff {α : Type*} {items : List α} {small large : α → Nat}
    (bounded : ∀ item ∈ items, small item ≤ large item) :
    (items.map small).sum = (items.map large).sum ↔ ∀ item ∈ items, small item = large item := by
  induction items with
  | nil => simp
  | cons item rest ih =>
    have restBounded : ∀ other ∈ rest, small other ≤ large other := fun other here =>
      bounded other (mem_cons_of_mem item here)
    have itemBounded := bounded item mem_cons_self
    have restSum : (rest.map small).sum ≤ (rest.map large).sum :=
      sum_le_sum restBounded
    rw [map_cons, map_cons, sum_cons, sum_cons, forall_mem_cons, ← ih restBounded]
    omega

def located (nodes : List ClusterZoneNode) : Multiset UInt32 :=
  heldBy nodes + ticketIds (waitingTickets nodes)

/-- The invariant of a cluster between its steps. -/
structure Orderly (nodes : List ClusterZoneNode) : Prop where
  distinct : (nodes.map ClusterZoneNode.zoneId).Nodup
  counted : ∀ node ∈ nodes, node.zone.spatialGrid.Counted
  outboxes : ∀ node ∈ nodes, Boxed node.outbox node.outboxCount
  inboxes : ∀ node ∈ nodes, node.inbox = SlotArray.empty _ _ ∧ node.inboxCount = 0
  once : (located nodes).Nodup

/-- Every ticket that reaches an inbox in the next tick is for an entity within the capacity
of the grid. -/
def TicketsFit (nodes : List ClusterZoneNode) : Prop :=
  ∀ node ∈ nodes, ∀ ticket ∈
    acceptedTickets ((waitingTickets nodes).take maxStagedMigrations) node.zoneId,
    ticket.entityId.toNat < node.zone.spatialGrid.maxEntities

def stagedTickets (nodes : List ClusterZoneNode) : List MigrationTicket :=
  (waitingTickets nodes).take maxStagedMigrations

def routedNodes (nodes : List ClusterZoneNode) : List ClusterZoneNode :=
  (routeTickets (nodes.map flushedNode) (stagedTickets nodes)).1

def unroutedCount (nodes : List ClusterZoneNode) : Nat :=
  (routeTickets (nodes.map flushedNode) (stagedTickets nodes)).2

section Tick

variable {nodes : List ClusterZoneNode}

theorem stepTick_eq {cluster : MultiServerClusterHarness} (orderly : Orderly cluster.nodes) :
    cluster.stepTick.2.nodes = (routedNodes cluster.nodes).map (fun node => node.adoptInbox.2) ∧
      cluster.stepTick.1.migrationsDropped =
        (waitingTickets cluster.nodes).length - maxStagedMigrations +
          unroutedCount cluster.nodes := by
  simp only [MultiServerClusterHarness.stepTick, stageOutboxes_empty orderly.outboxes, map_map]
  exact ⟨rfl, rfl⟩

private theorem routed_nodes (orderly : Orderly nodes) :
    Routed (nodes.map flushedNode) (stagedTickets nodes) (routedNodes nodes)
      (unroutedCount nodes) := by
  apply routed_routeTickets
  · rw [map_map]
    exact orderly.distinct
  intro node here
  obtain ⟨before, wasThere, rfl⟩ := mem_map.mp here
  exact orderly.inboxes before wasThere

private theorem zones_routedNodes (orderly : Orderly nodes) :
    (routedNodes nodes).map ClusterZoneNode.zone = nodes.map ClusterZoneNode.zone := by
  have same := congrArg (List.map fun view : WorldZone × TicketBox × Nat => view.1)
    (routed_nodes orderly).unchanged
  rw [map_map, map_map, map_map] at same
  exact same

private theorem forall_zone_routedNodes (orderly : Orderly nodes) (holds : WorldZone → Prop) :
    (∀ node ∈ routedNodes nodes, holds node.zone) ↔ ∀ node ∈ nodes, holds node.zone := by
  have overZones : ∀ some : List ClusterZoneNode, (∀ node ∈ some, holds node.zone) ↔
        ∀ zone ∈ some.map ClusterZoneNode.zone, holds zone := by
    intro some
    exact forall_mem_map.symm
  rw [overZones, overZones, zones_routedNodes orderly]

private theorem counted_routedNodes (orderly : Orderly nodes) :
    ∀ node ∈ routedNodes nodes, node.zone.spatialGrid.Counted :=
  (forall_zone_routedNodes orderly fun zone => zone.spatialGrid.Counted).mpr orderly.counted

variable (some : List ClusterZoneNode)

private theorem heldBy_eq : heldBy some =
      ((some.map ClusterZoneNode.zone).map fun zone => zone.spatialGrid.heldIds.val).sum := by
  rw [map_map]
  rfl

private theorem heldBy_routedNodes (orderly : Orderly nodes) :
    heldBy (routedNodes nodes) = heldBy nodes := by
  rw [heldBy_eq, heldBy_eq, zones_routedNodes orderly]

private theorem inboxIds_eq : inboxIds some =
      ((some.map fun node => (node.inbox.entries : Multiset MigrationTicket)).sum).map
        (·.entityId) := by
  induction some with
  | nil => rfl
  | cons node rest ih =>
    rw [inboxIds] at ih ⊢
    rw [map_cons, sum_cons, ih, map_cons, sum_cons, Multiset.map_add]
    rfl

section

variable (orderly : Orderly nodes)
include orderly

private theorem inboxIds_routedNodes_le :
    inboxIds (routedNodes nodes) ≤ ticketIds (waitingTickets nodes) := by
  obtain ⟨lost, _, conserved⟩ := (routed_nodes orderly).conserved
  have some : (((routedNodes nodes).map fun node =>
      (node.inbox.entries : Multiset MigrationTicket)).sum) ≤
        (stagedTickets nodes : Multiset MigrationTicket) := by
    rw [← conserved]
    exact Multiset.le_add_right _ _
  rw [inboxIds_eq]
  calc Multiset.map MigrationTicket.entityId _
      ≤ Multiset.map MigrationTicket.entityId (stagedTickets nodes : Multiset MigrationTicket) :=
        Multiset.map_le_map some
    _ = ticketIds (stagedTickets nodes) := rfl
    _ ≤ ticketIds (waitingTickets nodes) := ticketIds_le (take_sublist _ _)

private theorem outbox_routedNodes :
    ∀ node ∈ routedNodes nodes, node.outbox = SlotArray.empty _ _ ∧ node.outboxCount = 0 := by
  intro node here
  have view : unrouted node ∈ (nodes.map flushedNode).map unrouted := by
    rw [← (routed_nodes orderly).unchanged]
    exact mem_map_of_mem here
  rw [map_map] at view
  obtain ⟨before, _, same⟩ := mem_map.mp view
  simp only [Function.comp_apply, unrouted, flushedNode, Prod.mk.injEq] at same
  exact ⟨same.2.1.symm, same.2.2.symm⟩

theorem waitingTickets_stepped :
    waitingTickets ((routedNodes nodes).map fun node => node.adoptInbox.2) = [] := by
  rw [waitingTickets, flatMap_eq_nil_iff]
  intro node here
  obtain ⟨before, wasThere, rfl⟩ := mem_map.mp here
  change before.outbox.entries = []
  rw [(outbox_routedNodes orderly before wasThere).1, SlotArray.entries_empty]

theorem located_stepped_le :
    located ((routedNodes nodes).map fun node => node.adoptInbox.2) ≤ located nodes := by
  rw [located, waitingTickets_stepped orderly, located, ← heldBy_routedNodes orderly]
  calc heldBy ((routedNodes nodes).map fun node => node.adoptInbox.2) + ticketIds []
      = heldBy ((routedNodes nodes).map fun node => node.adoptInbox.2) := add_zero _
    _ ≤ heldBy (routedNodes nodes) + inboxIds (routedNodes nodes) :=
        heldBy_adopted (counted_routedNodes orderly)
    _ ≤ heldBy (routedNodes nodes) + ticketIds (waitingTickets nodes) :=
        add_le_add le_rfl (inboxIds_routedNodes_le orderly)

theorem orderly_stepped : Orderly ((routedNodes nodes).map fun node => node.adoptInbox.2) := by
  have routed := routed_nodes orderly
  have counted := counted_routedNodes orderly
  refine ⟨?_, ?_, ?_, ?_, Multiset.nodup_of_le (located_stepped_le orderly) orderly.once⟩
  · have kept : ((routedNodes nodes).map fun node => node.adoptInbox.2).map
        ClusterZoneNode.zoneId = (routedNodes nodes).map ClusterZoneNode.zoneId := by
      rw [map_map]
      apply map_congr_left
      intro node here
      exact (adopted_adoptTickets (counted node here) node.inbox.entries).id
    rw [kept, routed.zoneIds, map_map]
    exact orderly.distinct
  · intro node here
    obtain ⟨before, wasThere, rfl⟩ := mem_map.mp here
    exact (adopted_adoptTickets (counted before wasThere) before.inbox.entries).counted
  · intro node here
    obtain ⟨before, wasThere, rfl⟩ := mem_map.mp here
    change Boxed before.outbox before.outboxCount
    rw [(outbox_routedNodes orderly before wasThere).1,
      (outbox_routedNodes orderly before wasThere).2]
    exact boxed_empty
  intro node here
  obtain ⟨before, wasThere, rfl⟩ := mem_map.mp here
  refine ⟨rfl, ?_⟩
  change before.inboxCount - before.inbox.entries.length = 0
  rw [routed.boxed before wasThere]
  omega

end

private theorem le_sum_of_mem {part : Multiset UInt32} {parts : List (Multiset UInt32)}
    (here : part ∈ parts) : part ≤ parts.sum := by
  induction parts with
  | nil => cases here
  | cons first rest ih =>
    rcases mem_cons.mp here with rfl | later
    · exact Multiset.le_add_right _ _
    exact (ih later).trans (Multiset.le_add_left _ _)

private theorem adopted_all_iff (orderly : Orderly nodes) :
    (∀ node ∈ routedNodes nodes, node.adoptInbox.1 = node.inbox.entries.length) ↔
      TicketsFit nodes := by
  have routed := routed_nodes orderly
  have fits : TicketsFit nodes ↔ ∀ node ∈ routedNodes nodes, ∀ ticket ∈
      acceptedTickets (stagedTickets nodes) node.zone.id,
      ticket.entityId.toNat < node.zone.spatialGrid.maxEntities :=
    (forall_zone_routedNodes orderly fun zone =>
      ∀ ticket ∈ acceptedTickets (stagedTickets nodes) zone.id,
        ticket.entityId.toNat < zone.spatialGrid.maxEntities).symm
  rw [fits]
  apply forall₂_congr
  intro node here
  have entries := routed.inbox node here
  -- the entities of the inbox are different and are not in the grid
  have once := orderly.once
  rw [located, ← heldBy_routedNodes orderly] at once
  obtain ⟨_, ticketsOnce, apart⟩ := Multiset.nodup_add.mp once
  have inboxLe : ticketIds node.inbox.entries ≤ ticketIds (waitingTickets nodes) := by
    refine le_trans ?_ (inboxIds_routedNodes_le orderly)
    exact le_sum_of_mem (mem_map_of_mem here)
  have heldLe : node.zone.spatialGrid.heldIds.val ≤ heldBy (routedNodes nodes) :=
    le_sum_of_mem (mem_map_of_mem here)
  have distinct : (node.inbox.entries.map (·.entityId)).Nodup :=
    Multiset.coe_nodup.mp (Multiset.nodup_of_le inboxLe ticketsOnce)
  have absent : ∀ ticket ∈ node.inbox.entries, ticket.entityId ∉ node.zone.spatialGrid.heldIds := by
    intro ticket inside held
    have waiting : ticket.entityId ∈ ticketIds (waitingTickets nodes) :=
      Multiset.mem_of_le inboxLe (Multiset.mem_coe.mpr (mem_map_of_mem inside))
    exact Multiset.disjoint_left.mp apart (Multiset.mem_of_le heldLe held) waiting
  rw [adoptInbox_fst, adoptTickets_all_iff (counted_routedNodes orderly node here) distinct absent]
  apply forall_congr'
  intro ticket
  rw [entries.mem_iff]
  rfl

theorem balanced_stepped_iff {cluster : MultiServerClusterHarness}
    (orderly : Orderly cluster.nodes) :
    cluster.stepTick.2.totalEntities + cluster.stepTick.1.migrationsDropped =
        cluster.totalEntities + (waitingTickets cluster.nodes).length ↔
      TicketsFit cluster.nodes := by
  obtain ⟨nodesAfter, dropped⟩ := stepTick_eq orderly
  have counted := counted_routedNodes orderly
  have total : cluster.stepTick.2.totalEntities = cluster.totalEntities +
      ((routedNodes cluster.nodes).map fun node => node.adoptInbox.1).sum := by
    rw [MultiServerClusterHarness.totalEntities, nodesAfter, map_map]
    refine (activeCount_adopted counted).trans ?_
    have same := congrArg (fun zones : List WorldZone =>
      (zones.map fun zone => zone.spatialGrid.activeCount).sum) (zones_routedNodes orderly)
    simp only [map_map] at same
    exact congrArg (· + _) same
  -- what is not in an inbox is counted as dropped
  have conserved : ((routedNodes cluster.nodes).map fun node => node.inbox.entries.length).sum +
      unroutedCount cluster.nodes = (stagedTickets cluster.nodes).length := by
    obtain ⟨lost, card, whole⟩ := (routed_nodes orderly).conserved
    have cards := congrArg Multiset.card whole
    rw [Multiset.card_add, card, Multiset.coe_card] at cards
    rw [← cards]
    congr 1
    have sum := map_list_sum Multiset.cardHom ((routedNodes cluster.nodes).map fun node =>
      (node.inbox.entries : Multiset MigrationTicket))
    rw [map_map] at sum
    exact sum.symm
  have staged : (stagedTickets cluster.nodes).length +
      ((waitingTickets cluster.nodes).length - maxStagedMigrations) =
        (waitingTickets cluster.nodes).length := by
    rw [stagedTickets, length_take]
    omega
  rw [← adopted_all_iff orderly,
    ← sum_eq_sum_iff fun node here => adoptInbox_le (counted node here)]
  omega

end Tick

end Eidolon.World
