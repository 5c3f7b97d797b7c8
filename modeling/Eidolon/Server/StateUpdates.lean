import Eidolon.Core.Quant
import Eidolon.Net.Governor
import Eidolon.Server.Facade
import Eidolon.Spatial.Interest
import Eidolon.Spatial.Query

/-!
# State updates

The pass that tells every connected player about the entities around it.  Records of 22
bytes are collected into datagrams of at most 1200 bytes; a datagram is sent if the player's
bucket pays for it, and dropped otherwise.
-/

namespace Eidolon.Server

open Core Library List Net Spatial

/-- What an update tells of an entity. -/
structure Mobile where
  position : Vec3Fix
  velocity : Vec3Fix
  yaw : QuantizedYaw
  flags : UInt8
  deriving DecidableEq

/-- What decides who is told what. -/
structure AoiWorld where
  spatialGrid : SpatialHashGrid
  interiorCells : Finmap fun _ : UInt32 => UInt32
  densityProfile : DensityProfile
  bandwidthGovernor : BandwidthGovernor
  currentTick : UInt64

def recordLen : Nat := 22

def queryBufferLen : Nat := 2048

def clampToI16 (value : Int32) : Int16 :=
  Int16.ofInt (max (-32768) (min 32767 value.toInt))

def updateRecord (id : UInt32) (mobile : Mobile) : List UInt8 :=
  let (cellX, cellY, cellZ, coord) := QuantizedCellCoord.quantizeFromGlobal mobile.position
  bigEndian 4 id.toNat ++ bigEndian 2 cellX.toInt16.toUInt16.toNat ++
    bigEndian 2 cellZ.toInt16.toUInt16.toNat ++ bigEndian 2 cellY.toInt16.toUInt16.toNat ++
      bigEndian 2 coord.x.toNat ++ bigEndian 2 coord.z.toNat ++ bigEndian 2 coord.y.toNat ++
        [mobile.yaw.byte, mobile.flags] ++
          bigEndian 2 (clampToI16 mobile.velocity.x.toI32).toUInt16.toNat ++
            bigEndian 2 (clampToI16 mobile.velocity.z.toI32).toUInt16.toNat

theorem length_updateRecord (id : UInt32) (mobile : Mobile) :
    (updateRecord id mobile).length = recordLen := by
  simp only [updateRecord, length_append, length_bigEndian, length_cons, length_nil, recordLen]

structure StateDatagram (Peer : Type) where
  player : UInt32
  peer : Peer
  bytes : List UInt8

structure UpdateWriter where
  governor : BandwidthGovernor
  header : PacketHeader
  records : List UInt8
  sent : List (List UInt8)

namespace UpdateWriter

def start (governor : BandwidthGovernor) (currentTick : UInt64) : UpdateWriter where
  governor := governor
  header := PacketHeader.new .unreliableSequenced .stateUpdate currentTick.toUInt16 0 0
  records := []
  sent := []

variable (writer : UpdateWriter)

/-- Sends what is written, if there is anything and the player's bucket pays for it. -/
def flush (player : UInt32) : UpdateWriter :=
  if writer.records = [] then
    writer
  else
    let (paid, governor) :=
      writer.governor.consume player (headerSize + writer.records.length)
    { writer with
      governor := governor
      sent :=
        if paid then writer.sent ++ [writer.header.encoded ++ writer.records]
        else writer.sent }

def write (record : List UInt8) : UpdateWriter :=
  { writer with records := writer.records ++ record }

def next (record : List UInt8) : UpdateWriter :=
  { writer with
    header := { writer.header with sequence := writer.header.sequence + 1 }
    records := record }

end UpdateWriter

namespace EidolonApp

variable {Peer : Type} (app : EidolonApp Peer Mobile AoiWorld)

def visibleRadiusSq (profile : DensityProfile) : Fixed64 :=
  if profile = .budgetMobile then Fixed64.fromI32 2500 else Fixed64.fromI32 90000

def visibleIds (position : Vec3Fix) : List UInt32 :=
  let (result, buffer) := app.world.spatialGrid.queryRadiusMorton position
    (visibleRadiusSq app.world.densityProfile) (List.replicate queryBufferLen 0)
  buffer.take result.written

variable (governor : BandwidthGovernor) (player : ServerEntity Peer Mobile)

/-- The entity of an identifier, if it is in the same interior as the player and the
governor admits its tier. -/
def admittedTarget (visibleId : UInt32) : Option (ServerEntity Peer Mobile) :=
  if app.world.interiorCells.lookup player.id ≠ app.world.interiorCells.lookup visibleId then
    none
  else
    match KeyedList.find ServerEntity.id app.entities visibleId with
    | none => none
    | some target =>
      let tier := FrequencyTier.classify5tier
        (player.body.position.distanceSquared target.body.position)
      if governor.shouldAdmitTier player.id tier.asU8 recordLen then some target else none

def writeUpdates (player : ServerEntity Peer Mobile) : List UInt32 → UpdateWriter → UpdateWriter
  | [], writer => writer
  | visibleId :: rest, writer =>
    match app.admittedTarget writer.governor player visibleId with
    | none => writeUpdates player rest writer
    | some target =>
      let record := updateRecord target.id target.body
      if maxPacketSize < headerSize + writer.records.length + recordLen then
        let flushed := writer.flush player.id
        if flushed.governor.canSend player.id (headerSize + recordLen) then
          writeUpdates player rest (flushed.next record)
        else
          -- the player cannot afford even one more record
          flushed
      else
        writeUpdates player rest (writer.write record)

def playerUpdates : BandwidthGovernor × List (List UInt8) :=
  let writer := (app.writeUpdates player (app.visibleIds player.body.position)
    (UpdateWriter.start governor app.world.currentTick)).flush player.id
  (writer.governor, writer.sent)

def observers : List (ServerEntity Peer Mobile × Peer) :=
  app.entities.filterMap fun entity => entity.peerAddr.map fun peer => (entity, peer)

def observe (state : BandwidthGovernor × List (StateDatagram Peer))
    (observer : ServerEntity Peer Mobile × Peer) :
    BandwidthGovernor × List (StateDatagram Peer) :=
  let turn := app.playerUpdates state.1 observer.1
  (turn.1, state.2 ++ turn.2.map fun bytes => ⟨observer.1.id, observer.2, bytes⟩)

def broadcastAoiUpdates : EidolonApp Peer Mobile AoiWorld × List (StateDatagram Peer) :=
  let (governor, sent) := app.observers.foldl app.observe (app.world.bandwidthGovernor.tick, [])
  ({ app with world := { app.world with bandwidthGovernor := governor } }, sent)

end EidolonApp

end Eidolon.Server
