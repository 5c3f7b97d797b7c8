import Eidolon.Net.Packet

/-!
# Reliable actions of the client

The payloads that a connected client encodes.  A coordinate or an angle is the pattern of
its four bytes.
-/

namespace Eidolon.Client

open Library

/-- The reliable actions a client can dispatch; the first four are `send_action` with the
action types 1 to 4. -/
inductive Action where
  | attack (targetId param : UInt32)
  | castAbility (targetId abilityId : UInt32)
  | equipItem (inventorySlot equipSlot : UInt32)
  | unequipItem (equipSlot param : UInt32)
  | sendChat (channel : UInt8) (targetId : UInt32) (message : String)
  | partyCommand (cmd : UInt8) (targetAccount : UInt64)
  | placeStructure (prefabTypeId x y z yawDegrees : UInt32)
  | destroyStructure (structureId : UInt32)
  | enterInteriorCell (cellId : UInt32)
  | exitInteriorCell
  | moveInteriorItem (cellId itemInstanceId localX localY localZ yawDegrees : UInt32)
  deriving DecidableEq

def wordBytes (value : UInt32) : List UInt8 :=
  bigEndian 4 value.toNat

def sendAction (actionType : UInt8) (targetId param : UInt32) : List UInt8 :=
  actionType :: (wordBytes targetId ++ wordBytes param)

def textBytes (message : String) : List UInt8 :=
  message.toByteArray.data.toList

def sentText (message : String) : List UInt8 :=
  (textBytes message).take 256

def Action.payload : Action → List UInt8
  | attack targetId param => sendAction 1 targetId param
  | castAbility targetId abilityId => sendAction 2 targetId abilityId
  | equipItem inventorySlot equipSlot => sendAction 3 inventorySlot equipSlot
  | unequipItem equipSlot param => sendAction 4 equipSlot param
  | sendChat channel targetId message =>
    5 :: channel :: (wordBytes targetId ++
      (bigEndian 2 (min (textBytes message).length 256) ++ sentText message))
  | partyCommand cmd targetAccount => 6 :: cmd :: bigEndian 8 targetAccount.toNat
  | placeStructure prefabTypeId x y z yawDegrees =>
    6 :: (wordBytes prefabTypeId ++ (wordBytes x ++ (wordBytes y ++ (wordBytes z ++
      wordBytes yawDegrees))))
  | destroyStructure structureId => sendAction 7 structureId 0
  | enterInteriorCell cellId => sendAction 8 cellId 0
  | exitInteriorCell => sendAction 9 0 0
  | moveInteriorItem cellId itemInstanceId localX localY localZ yawDegrees =>
    10 :: (wordBytes cellId ++ (wordBytes itemInstanceId ++ (wordBytes localX ++
      (wordBytes localY ++ (wordBytes localZ ++ wordBytes yawDegrees)))))

end Eidolon.Client
