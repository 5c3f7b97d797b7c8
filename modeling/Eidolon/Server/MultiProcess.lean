import Eidolon.Library.ByteOrder
import Eidolon.Library.FiniteMap
import Eidolon.Library.MachineInt

/-!
# Zone nodes over sockets

Packets of the cluster and a zone node that hands entities over to other nodes.  A node
keeps the state of an entity it sends away as pending until an acknowledgment arrives,
and takes it back when that is too long in coming.

What the operating system does (whether a datagram is sent, which ones arrive, and what
time it is) is an argument of each function.
-/

namespace Eidolon.Server

open Library List

universe u

def clusterSocketMagic : UInt32 := 0xE1D05043

def opMigrate : UInt8 := 1

def opMigrateAck : UInt8 := 2

inductive ErrorKind where
  | invalidInput
  | unexpectedEof
  | invalidData
  | connectionRefused
  | notConnected
  | notFound
  | other
  deriving DecidableEq

structure SocketError where
  kind : ErrorKind
  message : String
  deriving DecidableEq

structure RealSocketPacket where
  opcode : UInt8
  identifier : UInt64
  sequence : UInt64
  payload : List UInt8
  deriving DecidableEq

namespace RealSocketPacket

variable (packet : RealSocketPacket)

def wireBytes : List UInt8 :=
  bigEndian 4 clusterSocketMagic.toNat ++ (packet.opcode :: (bigEndian 8 packet.identifier.toNat ++
        (bigEndian 8 packet.sequence.toNat ++
          (bigEndian 2 packet.payload.length.toUInt16.toNat ++ packet.payload))))

def encode (destLen : Nat) : Except SocketError (List UInt8) :=
  let totalLen := 4 + 1 + 8 + 8 + 2 + packet.payload.length
  if destLen < totalLen then
    .error ⟨.invalidInput, "Buffer too small for cluster packet"⟩
  else
    .ok packet.wireBytes

def decode (src : List UInt8) : Except SocketError RealSocketPacket :=
  if src.length < 23 then
    .error ⟨.unexpectedEof, "Packet shorter than minimum header"⟩
  else if UInt32.ofNat (ofBigEndian (src.take 4)) ≠ clusterSocketMagic then
    .error ⟨.invalidData, "Invalid cluster packet magic"⟩
  else
    let payloadLen := ofBigEndian ((src.drop 21).take 2)
    if src.length < 23 + payloadLen then
      .error ⟨.unexpectedEof, "Incomplete payload in cluster packet"⟩
    else
      .ok
        { opcode := src.getD 4 0
          identifier := UInt64.ofNat (ofBigEndian ((src.drop 5).take 8))
          sequence := UInt64.ofNat (ofBigEndian ((src.drop 13).take 8))
          payload := (src.drop 23).take payloadLen }

theorem length_wireBytes : packet.wireBytes.length = 23 + packet.payload.length := by
  simp only [wireBytes, length_append, length_cons, length_bigEndian]
  omega

theorem encode_ok_iff {packet : RealSocketPacket} {destLen : Nat} {bytes : List UInt8} :
    packet.encode destLen = .ok bytes ↔
      23 + packet.payload.length ≤ destLen ∧ packet.wireBytes = bytes := by
  unfold encode
  dsimp only
  split
  · constructor
    · intro wrote
      cases wrote
    omega
  rw [Except.ok.injEq]
  exact (and_iff_right (by omega)).symm

theorem decode_wireBytes {packet : RealSocketPacket}
    (small : packet.payload.length < 2 ^ 16) : decode packet.wireBytes = .ok packet := by
  obtain ⟨opcode, identifier, sequence, payload⟩ := packet
  let magic := bigEndian 4 clusterSocketMagic.toNat
  let head := magic ++ [opcode]
  let second := head ++ bigEndian 8 identifier.toNat
  let third := second ++ bigEndian 8 sequence.toNat
  let wire := wireBytes ⟨opcode, identifier, sequence, payload⟩
  have headLength : head.length = 5 := by
    simp only [head, magic, length_append, length_singleton, length_bigEndian]
  have secondLength : second.length = 13 := by
    simp only [second, length_append, length_bigEndian, headLength]
  have thirdLength : third.length = 21 := by
    simp only [third, length_append, length_bigEndian, secondLength]
  have lengthField : payload.length.toUInt16.toNat = payload.length :=
    Nat.mod_eq_of_lt small
  have atLength : wire = third ++ (bigEndian 2 payload.length ++ payload) := by
    simp only [wire, wireBytes, third, second, head, magic, lengthField, append_assoc,
      cons_append, nil_append]
  have atSequence : wire = second ++ (bigEndian 8 sequence.toNat ++
      (bigEndian 2 payload.length ++ payload)) := by
    rw [atLength, append_assoc]
  have atIdentifier : wire = head ++ (bigEndian 8 identifier.toNat ++
      (bigEndian 8 sequence.toNat ++ (bigEndian 2 payload.length ++ payload))) := by
    rw [atSequence, append_assoc]
  have atMagic : wire = [] ++ (magic ++ (opcode :: (bigEndian 8 identifier.toNat ++
      (bigEndian 8 sequence.toNat ++ (bigEndian 2 payload.length ++ payload))))) := by
    rw [atIdentifier]
    rfl
  have magicRead : wire.take 4 = magic := take_drop_bigEndian atMagic rfl
  have opcodeRead : wire.getD 4 0 = opcode := by
    rfl
  have identifierRead := take_drop_bigEndian atIdentifier headLength
  have sequenceRead := take_drop_bigEndian atSequence secondLength
  have lengthRead := take_drop_bigEndian atLength thirdLength
  have payloadRead : wire.drop 23 = payload := by
    rw [atLength, ← append_assoc]
    apply drop_left'
    rw [length_append, thirdLength, length_bigEndian]
  have length : wire.length = 23 + payload.length := length_wireBytes _
  change decode wire = _
  have identifierBack : ofBigEndian (bigEndian 8 identifier.toNat) = identifier.toNat :=
    ofBigEndian_bigEndian identifier.toNat_lt
  have sequenceBack : ofBigEndian (bigEndian 8 sequence.toNat) = sequence.toNat :=
    ofBigEndian_bigEndian sequence.toNat_lt
  have lengthBack : ofBigEndian (bigEndian 2 payload.length) = payload.length :=
    ofBigEndian_bigEndian small
  have magicBack : UInt32.ofNat (ofBigEndian magic) = clusterSocketMagic := by
    decide
  simp only [decode, length, magicRead, magicBack, opcodeRead, identifierRead, sequenceRead,
    lengthRead, payloadRead, identifierBack, sequenceBack, lengthBack, UInt64.ofNat_toNat,
    take_length, ne_eq, not_true_eq_false, if_false, Nat.lt_irrefl]
  rw [if_neg (by omega)]

end RealSocketPacket

structure Datagram (Address : Type u) where
  source : Address
  destination : Address
  bytes : List UInt8

structure PendingMigration where
  targetZone : UInt32
  state : List UInt8
  dispatchedAt : Nat

structure RealSocketZoneNode (Address : Type u) where
  localAddr : Address
  peerAddr : Option Address
  peerRoutes : Finmap fun _ : UInt32 => Address
  blockedZones : List UInt32
  pendingMigrations : Finmap fun _ : UInt64 => PendingMigration
  zoneId : UInt32
  entities : Finmap fun _ : UInt64 => List UInt8
  packetsReceived : UInt64
  packetsSent : UInt64

structure Arrival (Address : Type u) where
  bytes : List UInt8
  peer : Address
  answerSent : Bool

namespace RealSocketZoneNode

variable {Address : Type u}

def bind (localAddr : Address) (zoneId : UInt32) : RealSocketZoneNode Address where
  localAddr := localAddr
  peerAddr := none
  peerRoutes := ∅
  blockedZones := []
  pendingMigrations := ∅
  zoneId := zoneId
  entities := ∅
  packetsReceived := 0
  packetsSent := 0

variable (node : RealSocketZoneNode Address)

def setPeerAddr (peerAddr : Address) : RealSocketZoneNode Address :=
  { node with peerAddr := some peerAddr }

variable (targetZoneId : UInt32)

def addPeerRoute (peerAddr : Address) : RealSocketZoneNode Address :=
  { node with peerRoutes := node.peerRoutes.insert targetZoneId peerAddr }

def isPartitioned : Bool :=
  node.blockedZones.contains targetZoneId

def partitionZone : RealSocketZoneNode Address :=
  if node.isPartitioned targetZoneId then
    node
  else
    { node with blockedZones := node.blockedZones ++ [targetZoneId] }

def healZone : RealSocketZoneNode Address :=
  { node with blockedZones := node.blockedZones.filter fun zone => zone ≠ targetZoneId }

variable (entityId : UInt64) (state : List UInt8)

def spawnEntity : RealSocketZoneNode Address :=
  { node with entities := node.entities.insert entityId state }

def hasEntity : Bool :=
  decide (entityId ∈ node.entities)

def pendingMigrationCount : Nat :=
  node.pendingMigrations.keys.card

def entityCount : Nat :=
  node.entities.keys.card

def route : Option Address :=
  (node.peerRoutes.lookup targetZoneId).or node.peerAddr

def migratePacket : RealSocketPacket where
  opcode := opMigrate
  identifier := entityId
  sequence := node.zoneId.toUInt64
  payload := state

variable (now : Nat)

def setPending : RealSocketZoneNode Address :=
  { node with
    entities := node.entities.erase entityId
    pendingMigrations := node.pendingMigrations.insert entityId ⟨targetZoneId, state, now⟩ }

variable (sendTo : Except SocketError Unit)

/-- Sends an entity to another zone; what is returned is the datagram that goes out. -/
def dispatchMigrationTo : Except SocketError (Datagram Address) × RealSocketZoneNode Address :=
  if node.isPartitioned targetZoneId then
    (.error ⟨.connectionRefused,
      "Network partition active against Zone " ++ toString targetZoneId⟩, node)
  else
    match node.route targetZoneId with
    | none => (.error ⟨.notConnected, "No peer route configured for target"⟩, node)
    | some peer =>
      match node.entities.lookup entityId with
      | none => (.error ⟨.notFound, "Entity not in local zone"⟩, node)
      | some state =>
        let pending := node.setPending targetZoneId entityId state now
        -- from here on an error leaves the entity pending
        match (node.migratePacket entityId state).encode 512 with
        | .error error => (.error error, pending)
        | .ok bytes =>
          match sendTo with
          | .error error => (.error error, pending)
          | .ok () =>
            (.ok ⟨node.localAddr, peer, bytes⟩,
              { pending with packetsSent := pending.packetsSent + 1 })

def dispatchMigration : Except SocketError (Datagram Address) × RealSocketZoneNode Address :=
  node.dispatchMigrationTo (node.zoneId + 1) entityId now sendTo

def timedOut (timeout : Nat) (migration : PendingMigration) : Bool :=
  timeout ≤ now - migration.dispatchedAt

def checkMigrationTimeouts (timeout : Nat) : Nat × RealSocketZoneNode Address :=
  let rolledBack := FiniteMap.select (fun _ migration => timedOut now timeout migration)
    PendingMigration.state node.pendingMigrations
  (rolledBack.keys.card,
    { node with
      pendingMigrations := FiniteMap.select
        (fun _ migration => !timedOut now timeout migration) id node.pendingMigrations
      entities := rolledBack ∪ node.entities })

def ackPacket : RealSocketPacket where
  opcode := opMigrateAck
  identifier := entityId
  sequence := node.zoneId.toUInt64
  payload := []

def handlePacket (arrival : Arrival Address) (packet : RealSocketPacket) :
    RealSocketZoneNode Address × List (Datagram Address) :=
  if packet.opcode = opMigrate then
    let adopted := node.spawnEntity packet.identifier packet.payload
    match (adopted.ackPacket packet.identifier).encode 64 with
    | .error _ => (adopted, [])
    | .ok bytes =>
      ({ adopted with packetsSent := adopted.packetsSent + 1 },
        if arrival.answerSent then [⟨adopted.localAddr, arrival.peer, bytes⟩] else [])
  else if packet.opcode = opMigrateAck then
    ({ node with pendingMigrations := node.pendingMigrations.erase packet.identifier }, [])
  else
    (node, [])

/-- One datagram out of the socket; the count is 1 if it was processed. -/
def receive (arrival : Arrival Address) :
    Nat × RealSocketZoneNode Address × List (Datagram Address) :=
  let counted := { node with packetsReceived := node.packetsReceived + 1 }
  -- the receive buffer holds 1024 bytes
  match RealSocketPacket.decode (arrival.bytes.take 1024) with
  | .error _ => (0, counted, [])
  | .ok packet =>
    if counted.isPartitioned packet.sequence.toUInt32 then
      (0, counted, [])
    else
      (1, counted.handlePacket arrival packet)

/-- Handles the datagrams that have arrived, up to the error that ends the polling; without
one the socket has run dry. -/
def pollNetwork (node : RealSocketZoneNode Address) (arrivals : List (Arrival Address))
    (ended : Option SocketError) :
    Except SocketError Nat × RealSocketZoneNode Address × List (Datagram Address) :=
  match arrivals with
  | [] =>
    match ended with
    | none => (.ok 0, node, [])
    | some error => (.error error, node, [])
  | arrival :: later =>
    let (count, next, sent) := node.receive arrival
    let (result, final, sentLater) := next.pollNetwork later ended
    (result.map (count + ·), final, sent ++ sentLater)

end RealSocketZoneNode

end Eidolon.Server
