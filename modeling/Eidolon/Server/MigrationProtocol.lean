import Eidolon.Server.MultiProcess

/-!
# Migration on one node

What dispatching, receiving and taking back do to the entities that a node has active
and those it has pending.
-/

namespace Eidolon.Server

open Library

universe u

variable {Address : Type u}

namespace RealSocketZoneNode

variable (node : RealSocketZoneNode Address)

def Holds (entityId : UInt64) : Prop :=
  entityId ∈ node.entities ∨ entityId ∈ node.pendingMigrations

def Attempts (targetZoneId : UInt32) (entityId : UInt64) (state : List UInt8) : Prop :=
  node.isPartitioned targetZoneId = false ∧ node.route targetZoneId ≠ none ∧
    node.entities.lookup entityId = some state

def Departs (state : List UInt8) (sendTo : Except SocketError Unit) : Prop :=
  state.length ≤ 489 ∧ sendTo = .ok ()

def LetsIn (arrival : Arrival Address) (packet : RealSocketPacket) : Prop :=
  RealSocketPacket.decode (arrival.bytes.take 1024) = .ok packet ∧
    node.isPartitioned packet.sequence.toUInt32 = false

variable {node : RealSocketZoneNode Address} {entityId : UInt64}

theorem holds_setPending_iff {targetZoneId : UInt32} {state : List UInt8} {now : Nat}
    {moved : UInt64} (here : moved ∈ node.entities) :
    (node.setPending targetZoneId moved state now).Holds entityId ↔ node.Holds entityId := by
  unfold Holds setPending
  rw [Finmap.mem_erase, Finmap.mem_insert]
  by_cases same : entityId = moved
  · rw [same]
    simp only [ne_eq, not_true_eq_false, false_and, true_or, or_true, here]
  simp only [ne_eq, same, not_false_eq_true, true_and, false_or]

theorem dispatchMigrationTo_cases (node : RealSocketZoneNode Address) (targetZoneId : UInt32)
    (entityId : UInt64) (now : Nat) (sendTo : Except SocketError Unit) :
    ((∀ state, ¬ node.Attempts targetZoneId entityId state) ∧
      ∃ error, node.dispatchMigrationTo targetZoneId entityId now sendTo = (.error error, node)) ∨
    ∃ state, node.Attempts targetZoneId entityId state ∧ ((¬ Departs state sendTo ∧ ∃ error,
          node.dispatchMigrationTo targetZoneId entityId now sendTo =
            (.error error, node.setPending targetZoneId entityId state now)) ∨
        (Departs state sendTo ∧ ∃ peer, node.dispatchMigrationTo targetZoneId entityId now sendTo =
            (.ok ⟨node.localAddr, peer, (node.migratePacket entityId state).wireBytes⟩,
              { node.setPending targetZoneId entityId state now with
                packetsSent := node.packetsSent + 1 }))) := by
  unfold dispatchMigrationTo
  cases blocked : node.isPartitioned targetZoneId with
  | true =>
    refine .inl ⟨?_, _, if_pos rfl⟩
    intro state attempts
    rw [Attempts, blocked] at attempts
    cases attempts.1
  | false =>
    rcases routed : node.route targetZoneId with _ | peer
    · refine .inl ⟨?_, _, rfl⟩
      intro state attempts
      exact attempts.2.1 routed
    rcases found : node.entities.lookup entityId with _ | state
    · refine .inl ⟨?_, _, rfl⟩
      intro state attempts
      rw [Attempts, found] at attempts
      cases attempts.2.2
    have attempts : node.Attempts targetZoneId entityId state :=
      ⟨blocked, by rw [routed]; exact Option.some_ne_none peer, found⟩
    refine .inr ⟨state, attempts, ?_⟩
    dsimp only
    rcases encoded : (node.migratePacket entityId state).encode 512 with error | bytes
    · refine .inl ⟨?_, _, rfl⟩
      intro departs
      have written : (node.migratePacket entityId state).encode 512 =
          .ok (node.migratePacket entityId state).wireBytes :=
        RealSocketPacket.encode_ok_iff.mpr ⟨Nat.add_le_add_left departs.1 23, rfl⟩
      rw [written] at encoded
      cases encoded
    rcases RealSocketPacket.encode_ok_iff.mp encoded with ⟨fits, rfl⟩
    have short : state.length ≤ 489 := by
      change 23 + state.length ≤ 512 at fits
      omega
    cases sendTo with
    | error error =>
      refine .inl ⟨?_, _, rfl⟩
      intro departs
      cases departs.2
    | ok sent => exact .inr ⟨⟨short, rfl⟩, peer, rfl⟩

variable {arrival : Arrival Address} {packet : RealSocketPacket}

theorem mem_entities_handlePacket_iff : entityId ∈ (node.handlePacket arrival packet).1.entities ↔
      entityId ∈ node.entities ∨ (packet.opcode = opMigrate ∧ packet.identifier = entityId) := by
  unfold handlePacket
  split
  · rename_i migrate
    have adopted : entityId ∈ (node.spawnEntity packet.identifier packet.payload).entities ↔
        entityId ∈ node.entities ∨ (packet.opcode = opMigrate ∧ packet.identifier = entityId) := by
      rw [spawnEntity, Finmap.mem_insert, or_comm, and_iff_right migrate, eq_comm]
    split <;> exact adopted
  rename_i notMigrate
  have nothing : entityId ∈ node.entities ↔ entityId ∈ node.entities ∨
      (packet.opcode = opMigrate ∧ packet.identifier = entityId) :=
    (or_iff_left fun here => notMigrate here.1).symm
  split <;> exact nothing

theorem mem_pendingMigrations_handlePacket_iff :
    entityId ∈ (node.handlePacket arrival packet).1.pendingMigrations ↔
      entityId ∈ node.pendingMigrations ∧
        ¬ (packet.opcode = opMigrateAck ∧ packet.identifier = entityId) := by
  have untouched : packet.opcode ≠ opMigrateAck →
      (entityId ∈ node.pendingMigrations ↔ entityId ∈ node.pendingMigrations ∧
        ¬ (packet.opcode = opMigrateAck ∧ packet.identifier = entityId)) :=
    fun notAck => (and_iff_left fun here => notAck here.1).symm
  unfold handlePacket
  split
  · rename_i migrate
    have notAck : packet.opcode ≠ opMigrateAck := by
      rw [migrate]
      decide
    split <;> exact untouched notAck
  split
  · rename_i ack
    rw [Finmap.mem_erase, and_iff_right ack, and_comm, ne_comm]
  rename_i notAck
  exact untouched notAck

theorem answers_handlePacket {datagram : Datagram Address}
    (answered : datagram ∈ (node.handlePacket arrival packet).2) :
    datagram.bytes = (node.ackPacket packet.identifier).wireBytes := by
  unfold handlePacket at answered
  split at answered
  · dsimp only at answered
    split at answered
    · cases answered
    rename_i bytes encoded
    rcases RealSocketPacket.encode_ok_iff.mp encoded with ⟨_, rfl⟩
    split at answered
    · rw [List.mem_singleton] at answered
      rw [answered]
      rfl
    cases answered
  split at answered <;> cases answered

theorem receive_cases (node : RealSocketZoneNode Address) (arrival : Arrival Address) :
    let counted := { node with packetsReceived := node.packetsReceived + 1 }
    ((∀ packet, ¬ node.LetsIn arrival packet) ∧ node.receive arrival = (0, counted, [])) ∨
      ∃ packet, node.LetsIn arrival packet ∧
        node.receive arrival = (1, counted.handlePacket arrival packet) := by
  unfold receive
  rcases decoded : RealSocketPacket.decode (arrival.bytes.take 1024) with error | packet
  · refine .inl ⟨?_, rfl⟩
    intro packet letIn
    rw [LetsIn, decoded] at letIn
    cases letIn.1
  cases blocked : node.isPartitioned packet.sequence.toUInt32 with
  | true =>
    refine .inl ⟨?_, if_pos blocked⟩
    intro other letIn
    rw [LetsIn, decoded] at letIn
    cases letIn.1
    rw [blocked] at letIn
    cases letIn.2
  | false =>
    refine .inr ⟨packet, ⟨decoded, blocked⟩, if_neg ?_⟩
    exact Bool.eq_false_iff.mp blocked

theorem mem_entities_checkMigrationTimeouts_iff {now timeout : Nat} :
    entityId ∈ (node.checkMigrationTimeouts now timeout).2.entities ↔
      entityId ∈ node.entities ∨ ∃ migration,
        node.pendingMigrations.lookup entityId = some migration ∧
          timedOut now timeout migration = true := by
  unfold checkMigrationTimeouts
  rw [Finmap.mem_union, FiniteMap.mem_select_iff, or_comm]

theorem mem_pendingMigrations_checkMigrationTimeouts_iff {now timeout : Nat} :
    entityId ∈ (node.checkMigrationTimeouts now timeout).2.pendingMigrations ↔
      ∃ migration, node.pendingMigrations.lookup entityId = some migration ∧
        timedOut now timeout migration = false := by
  unfold checkMigrationTimeouts
  rw [FiniteMap.mem_select_iff]
  simp only [Bool.not_eq_true']

theorem holds_checkMigrationTimeouts_iff {now timeout : Nat} :
    (node.checkMigrationTimeouts now timeout).2.Holds entityId ↔ node.Holds entityId := by
  rw [Holds, mem_entities_checkMigrationTimeouts_iff,
    mem_pendingMigrations_checkMigrationTimeouts_iff, Holds, @Finmap.mem_iff _ _ _ entityId
      node.pendingMigrations, or_assoc]
  apply or_congr_right
  constructor
  · intro either
    rcases either with ⟨migration, found, _⟩ | ⟨migration, found, _⟩
    · exact ⟨migration, found⟩
    exact ⟨migration, found⟩
  intro found
  rcases found with ⟨migration, found⟩
  cases late : timedOut now timeout migration with
  | true => exact .inl ⟨migration, found, late⟩
  | false => exact .inr ⟨migration, found, late⟩

end RealSocketZoneNode

end Eidolon.Server
