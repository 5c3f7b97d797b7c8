import Eidolon.Core.Item
import Eidolon.Net.Auth

/-!
# Dispatch of reliable payloads

What the server takes the payload of a reliable message for: first by its exact length,
then by its first byte and a least length.
-/

namespace Eidolon.Server

open Core Library Net

inductive Request where
  | challenge (request : ConnectChallengeRequest)
  | finalize (request : ConnectFinalizeRequest)
  | melee (targetId param : UInt32)
  | castAbility (targetId abilityId : UInt32)
  | equipItem (inventorySlot : UInt32) (slot : EquipmentSlot)
  | unequipItem (slot : EquipmentSlot)
  | chat (channel : UInt8) (targetId : UInt32) (text : List UInt8)
  | party (command : UInt8) (targetAccount : UInt64)
  deriving DecidableEq

variable (payload : List UInt8)

def word (offset : Nat) : UInt32 :=
  UInt32.ofNat (ofBigEndian ((payload.drop offset).take 4))

/-- The arms on the first byte of a payload that is no handshake message; `none` is a
payload that is ignored. -/
def dispatchAction : Option Request :=
  match payload.head? with
  | none => none
  | some actionType =>
    if actionType = 1 ∧ 9 ≤ payload.length then
      some (.melee (word payload 1) (word payload 5))
    else if actionType = 2 ∧ 9 ≤ payload.length then
      some (.castAbility (word payload 1) (word payload 5))
    else if actionType = 3 ∧ 9 ≤ payload.length then
      (EquipmentSlot.fromU8 (word payload 5).toUInt8).map (.equipItem (word payload 1))
    else if actionType = 4 ∧ 9 ≤ payload.length then
      (EquipmentSlot.fromU8 (word payload 1).toUInt8).map .unequipItem
    else if actionType = 5 ∧ 8 ≤ payload.length then
      let textLen := ofBigEndian ((payload.drop 6).take 2)
      if 8 + textLen ≤ payload.length then
        some (.chat (payload.getD 1 0) (word payload 2) ((payload.drop 8).take textLen))
      else none
    else if actionType = 6 ∧ 10 ≤ payload.length then
      let command := payload.getD 1 0
      -- 1 is an invitation, 2 accepts one, 3 leaves the party
      if command = 1 ∨ command = 2 ∨ command = 3 then
        some (.party command (UInt64.ofNat (ofBigEndian ((payload.drop 2).take 8))))
      else none
    else none

def dispatchReliable : Option Request :=
  if payload.length = challengeReqLen then
    (ConnectChallengeRequest.readFrom payload).toOption.map .challenge
  else if payload.length = finalizeReqLen then
    (ConnectFinalizeRequest.readFrom payload).toOption.map .finalize
  else
    dispatchAction payload

end Eidolon.Server
