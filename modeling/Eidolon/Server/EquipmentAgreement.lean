import Eidolon.Server.HandshakeSoundness
import Eidolon.World.TransactionAtomicity

/-!
# Agreement of the two copies of a player's equipment

The account and the entity of a player each have a copy of its equipment.  A request is
tried on the account, and whatever comes of it the entity is changed and the change is
announced.  The copies stay equal and the announcements true exactly in the runs without
an equip request that fails on an empty slot and without an unequip request that fails on
a full inventory.
-/

namespace Eidolon.World

open Core Library List Option

namespace EquipmentContainer

variable (equipment : EquipmentContainer)

def put (slot : EquipmentSlot) (item : Option UInt32) : EquipmentContainer where
  slots := equipment.slots.set slot.asU8.toNat item

@[simp]
theorem get_put (slot : EquipmentSlot) (item : Option UInt32) :
    (equipment.put slot item).get slot = item := by
  rw [get, put, SlotArray.get?_set_self slot.asU8_lt]

theorem put_get {equipment : EquipmentContainer} {slot : EquipmentSlot} {item : Option UInt32}
    (worn : equipment.get slot = item) : equipment.put slot item = equipment :=
  set_eq_self_iff.mpr worn

theorem equip_of_worn {equipment : EquipmentContainer} {slot : EquipmentSlot} {itemId : UInt32}
    (worn : equipment.get slot = some itemId) : (equipment.equip slot itemId).2 = equipment := by
  by_cases equippable : Equippable slot itemId
  · rw [equip_of_equippable equipment equippable]
    exact put_get worn
  obtain ⟨error, failed⟩ := equipment.equip_of_not_equippable equippable
  rw [failed]

end EquipmentContainer

namespace AccountState

def CanEquip (account : AccountState) (index : Nat) (slot : EquipmentSlot) : Prop :=
  ∃ item, account.inventory.get? index = some item ∧ EquipmentContainer.Equippable slot item.itemId

variable {account : AccountState} {slot : EquipmentSlot}

theorem equipment_equipItem_of_refused {index : Nat} (refused : ¬ account.CanEquip index slot) :
    (account.equipItem index slot).2.equipment = account.equipment := by
  obtain ⟨error, failed⟩ := equipItem_of_refused refused
  rw [failed]

theorem equipment_unequipItem_of_worn {itemId : UInt32}
    (worn : account.equipment.get slot = some itemId)
    (cleared : account.HasRoomFor itemId ∨ ¬ EquipmentContainer.Equippable slot itemId) :
    (account.unequipItem slot).2.equipment = account.equipment.put slot none := by
  let bare : AccountState :=
    { account with
      equipment := { slots := account.equipment.slots.set slot.asU8.toNat none } }
  by_cases room : account.HasRoomFor itemId
  · have bareRoom : bare.HasRoomFor itemId := room
    obtain ⟨grown, added, sameEquipment, _⟩ := addItem_of_room bareRoom
    have unequipped : account.unequipItem slot =
        (.ok itemId, { grown with stateVersion := grown.stateVersion + 1 }) := by
      simp only [unequipItem, EquipmentContainer.unequip, worn]
      rw [added]
    rw [unequipped]
    exact sameEquipment
  have refused : bare.addItem itemId 1 = (.error (.transactionAborted "Inventory is full"), bare) :=
    addItem_of_noRoom room
  have notEquippable := cleared.resolve_left room
  obtain ⟨error, failed⟩ := bare.equipment.equip_of_not_equippable notEquippable
  have unequipped : (account.unequipItem slot).2 = bare := by
    simp only [unequipItem, EquipmentContainer.unequip, worn]
    rw [refused]
    simp only [failed]
  rw [unequipped]
  rfl

theorem equipment_unequipItem_of_kept {itemId : UInt32}
    (worn : account.equipment.get slot = some itemId) (noRoom : ¬ account.HasRoomFor itemId)
    (equippable : EquipmentContainer.Equippable slot itemId) :
    (account.unequipItem slot).2.equipment = account.equipment := by
  obtain ⟨error, changed, result, same⟩ := unequipItem_of_noRoom worn noRoom
  rw [result]
  exact congrArg AccountHoldings.equipment (same.mpr equippable)

theorem equipment_unequipItem_of_bare (bare : account.equipment.get slot = none) :
    (account.unequipItem slot).2.equipment = account.equipment := by
  obtain ⟨error, failed⟩ := unequipItem_of_bare bare
  rw [failed]

end AccountState

end Eidolon.World

namespace Eidolon.Server

open Core Library List Net Option World

variable {Peer Body World : Type} [DecidableEq Peer]

namespace EidolonApp

variable (app : EidolonApp Peer Body World)

/-- Every entity with an account has the equipment of the account. -/
def InStep : Prop :=
  ∀ entity ∈ app.entities, ∀ accountId account, entity.accountId = some accountId →
    app.accounts.lookup accountId = some account → entity.equipment = account.equipment

/-- The players came through the handshake, and their accounts are registered. -/
structure Connected (app : EidolonApp Peer Body World) : Prop extends app.Joined where
  registered : ∀ entity ∈ app.entities, ∀ accountId, entity.accountId = some accountId →
    ∃ account, app.accounts.lookup accountId = some account

/-- An announced equipment change names what the account of the player wears in the slot,
or 0 when the slot is empty. -/
def Announced (app : EidolonApp Peer Body World) : Reply Peer → Prop
  | .equipmentChanged entityId slot itemId =>
    ∃ player ∈ app.entities, player.id = entityId ∧
      ∃ accountId account named, player.accountId = some accountId ∧
        app.accounts.lookup accountId = some account ∧
        EquipmentSlot.fromU8 slot = some named ∧
        itemId = (account.equipment.get named).getD 0
  | _ => True

def PlayerAccount (peer : Peer) (account : AccountState) :
    Prop :=
  ∃ player accountId, app.playerOf peer = some player ∧ player.accountId = some accountId ∧
    app.accounts.lookup accountId = some account

private def adjust (peer : Peer) (player : ServerEntity Peer Body) (accountId : UInt64)
    (changed : AccountState) (equipment : EquipmentContainer) : EidolonApp Peer Body World :=
  { app with accounts := app.accounts.insert accountId changed }.setPlayer peer
    { player with equipment := equipment }

section Adjust

variable {app : EidolonApp Peer Body World} {peer : Peer} {player : ServerEntity Peer Body}
variable {accountId : UInt64} {account changed : AccountState} {equipment : EquipmentContainer}

private theorem ids_adjust (found : app.playerOf peer = some player) :
    (app.adjust peer player accountId changed equipment).ids = app.ids :=
  KeyedList.map_replace_of_find found rfl

private theorem player_mem_adjust (found : app.playerOf peer = some player) :
    { player with equipment := equipment } ∈
      (app.adjust peer player accountId changed equipment).entities :=
  KeyedList.mem_replace_of_find found

section

variable (connected : app.Connected)
include connected

private theorem mem_adjust (found : app.playerOf peer = some player)
    {entity : ServerEntity Peer Body}
    (here : entity ∈ (app.adjust peer player accountId changed equipment).entities) :
    entity = { player with equipment := equipment } ∨
      (entity ∈ app.entities ∧ entity.id ≠ player.id) := by
  by_cases isPlayer : entity = { player with equipment := equipment }
  · exact .inl isPlayer
  rcases KeyedList.mem_of_mem_replace here with same | wasThere
  · exact absurd same isPlayer
  refine .inr ⟨wasThere, fun sameId => isPlayer ?_⟩
  have distinct : (app.adjust peer player accountId changed equipment).ids.Nodup := by
    rw [ids_adjust found]
    exact connected.distinct
  exact inj_on_of_nodup_map distinct here (player_mem_adjust found) sameId

private theorem connected_adjust (found : app.playerOf peer = some player) :
    (app.adjust peer player accountId changed equipment).Connected := by
  have joined : (app.adjust peer player accountId changed equipment).Joined :=
    connected.toJoined.of_identities (identities_setPlayer found equipment)
  refine ⟨joined, ?_⟩
  intro entity here other named
  by_cases same : other = accountId
  · exact ⟨changed, by rw [same]; exact Finmap.lookup_insert app.accounts⟩
  have lookupKept : (app.adjust peer player accountId changed equipment).accounts.lookup other =
      app.accounts.lookup other := Finmap.lookup_insert_of_ne app.accounts same
  rw [lookupKept]
  rcases mem_adjust connected found here with rfl | ⟨wasThere, _⟩
  · exact connected.registered player (KeyedList.mem_of_find found) other named
  exact connected.registered entity wasThere other named

private theorem inStep_adjust_iff (inStep : app.InStep) (found : app.playerOf peer = some player)
    (owned : player.accountId = some accountId) :
    (app.adjust peer player accountId changed equipment).InStep ↔
      equipment = changed.equipment := by
  have playerHere : player ∈ app.entities := KeyedList.mem_of_find found
  constructor
  · intro after
    exact after _ (player_mem_adjust found) accountId changed owned
      (Finmap.lookup_insert app.accounts)
  intro same entity here other otherAccount named lookup
  rcases mem_adjust connected found here with rfl | ⟨wasThere, notPlayer⟩
  · have sameAccount : other = accountId := by
      rw [owned] at named
      cases named
      rfl
    subst sameAccount
    rw [show (app.adjust peer player other changed equipment).accounts.lookup other =
      some changed from Finmap.lookup_insert app.accounts, some.injEq] at lookup
    rw [← lookup]
    exact same
  -- another entity has another account
  have different : other ≠ accountId := by
    intro sameAccount
    apply notPlayer
    rw [connected.keyed entity wasThere other named,
      connected.keyed player playerHere accountId owned, sameAccount]
  rw [show (app.adjust peer player accountId changed equipment).accounts.lookup other =
    app.accounts.lookup other from Finmap.lookup_insert_of_ne app.accounts different] at lookup
  exact inStep entity wasThere other otherAccount named lookup

private theorem announced_adjust_iff (found : app.playerOf peer = some player)
    (owned : player.accountId = some accountId) (slot : EquipmentSlot) (itemId : UInt32) :
    (app.adjust peer player accountId changed equipment).Announced
        (.equipmentChanged player.id slot.asU8 itemId) ↔
      itemId = (changed.equipment.get slot).getD 0 := by
  have ownLookup : (app.adjust peer player accountId changed equipment).accounts.lookup
      accountId = some changed := Finmap.lookup_insert app.accounts
  constructor
  · rintro ⟨entity, here, sameId, other, otherAccount, named, otherOwned, lookup, slotNamed, worn⟩
    rcases mem_adjust connected found here with rfl | ⟨_, notPlayer⟩
    · rw [owned] at otherOwned
      cases otherOwned
      rw [ownLookup] at lookup
      cases lookup
      rw [EquipmentSlot.fromU8_asU8] at slotNamed
      cases slotNamed
      exact worn
    exact absurd sameId notPlayer
  intro worn
  exact ⟨_, player_mem_adjust found, rfl, accountId, changed, slot, owned, ownLookup,
    EquipmentSlot.fromU8_asU8 slot, worn⟩

end

private theorem equipItem_eq (found : app.playerOf peer = some player)
    (owned : player.accountId = some accountId)
    (lookup : app.accounts.lookup accountId = some account) (inventorySlot : UInt32)
    (slot : EquipmentSlot) :
    app.equipItem peer inventorySlot slot =
      (app.adjust peer player accountId (account.equipItem inventorySlot.toNat slot).2
        (player.equipment.equip slot (((account.equipItem inventorySlot.toNat slot).2.equipment.get
          slot).getD (max inventorySlot 1))).2,
        [.equipmentChanged player.id slot.asU8
          (((account.equipItem inventorySlot.toNat slot).2.equipment.get slot).getD
            (max inventorySlot 1))]) := by
  have onAccount : equipOnAccount app.accounts player.accountId inventorySlot slot =
      (app.accounts.insert accountId (account.equipItem inventorySlot.toNat slot).2,
        ((account.equipItem inventorySlot.toNat slot).2.equipment.get slot).getD
          (max inventorySlot 1)) := by
    rw [owned]
    simp only [equipOnAccount, lookup]
  simp only [equipItem, found, onAccount]
  rfl

private theorem unequipItem_eq (found : app.playerOf peer = some player)
    (owned : player.accountId = some accountId)
    (lookup : app.accounts.lookup accountId = some account) (slot : EquipmentSlot) :
    app.unequipItem peer slot = (app.adjust peer player accountId (account.unequipItem slot).2
        (player.equipment.put slot none),
        [.equipmentChanged player.id slot.asU8 0]) := by
  have onAccount : unequipOnAccount app.accounts player.accountId slot =
      app.accounts.insert accountId (account.unequipItem slot).2 := by
    rw [owned]
    simp only [unequipOnAccount, lookup]
  simp only [unequipItem, found, onAccount]
  rfl

end Adjust

end EidolonApp

private theorem fallback_ne_zero (inventorySlot : UInt32) : max inventorySlot 1 ≠ 0 := by
  change (if inventorySlot ≤ 1 then 1 else inventorySlot) ≠ 0
  split
  · decide
  rename_i large
  intro zero
  rw [zero] at large
  exact large (by decide)

variable (account : AccountState)

/-- After an equip request the copies agree and the announcement is true unless the request
failed on an empty slot. -/
private theorem equip_agrees_iff (inventorySlot : UInt32) (slot : EquipmentSlot) :
    ((account.equipment.equip slot
        (((account.equipItem inventorySlot.toNat slot).2.equipment.get slot).getD
          (max inventorySlot 1))).2 =
        (account.equipItem inventorySlot.toNat slot).2.equipment ∧
      ((account.equipItem inventorySlot.toNat slot).2.equipment.get slot).getD
          (max inventorySlot 1) =
        ((account.equipItem inventorySlot.toNat slot).2.equipment.get slot).getD 0) ↔
    (account.CanEquip inventorySlot.toNat slot ∨ account.equipment.get slot ≠ none) := by
  by_cases able : account.CanEquip inventorySlot.toNat slot
  · refine iff_of_true ?_ (.inl able)
    obtain ⟨item, held, equippable⟩ := able
    have worn : (account.equipItem inventorySlot.toNat slot).2.equipment =
        account.equipment.put slot (some item.itemId) := by
      rw [AccountState.equipItem_of_equippable held equippable]
      rfl
    rw [worn, EquipmentContainer.get_put, getD_some, EquipmentContainer.equip_of_equippable _ equippable]
    exact ⟨rfl, rfl⟩
  rw [AccountState.equipment_equipItem_of_refused able]
  rcases worn : account.equipment.get slot with _ | itemId
  · refine iff_of_false ?_ (by simp [able])
    rintro ⟨_, same⟩
    exact fallback_ne_zero inventorySlot same
  refine iff_of_true ?_ (.inr (by simp))
  exact ⟨EquipmentContainer.equip_of_worn worn, rfl⟩

/-- After an unequip request the copies agree and the announcement is true unless the item
found no room and stayed equipped. -/
private theorem unequip_agrees_iff (slot : EquipmentSlot) :
    (account.equipment.put slot none = (account.unequipItem slot).2.equipment ∧
      0 = ((account.unequipItem slot).2.equipment.get slot).getD 0) ↔
    (∀ itemId, account.equipment.get slot = some itemId →
      account.HasRoomFor itemId ∨ ¬ EquipmentContainer.Equippable slot itemId) := by
  rcases worn : account.equipment.get slot with _ | itemId
  · refine iff_of_true ?_ (fun itemId equipped => nomatch equipped)
    rw [AccountState.equipment_unequipItem_of_bare worn, worn]
    exact ⟨EquipmentContainer.put_get worn, rfl⟩
  by_cases cleared : account.HasRoomFor itemId ∨ ¬ EquipmentContainer.Equippable slot itemId
  · refine iff_of_true ?_ (fun other equipped => by cases equipped; exact cleared)
    rw [AccountState.equipment_unequipItem_of_worn worn cleared, EquipmentContainer.get_put]
    exact ⟨rfl, rfl⟩
  refine iff_of_false ?_ (fun allCleared => cleared (allCleared itemId rfl))
  rintro ⟨same, _⟩
  rw [not_or, not_not] at cleared
  rw [AccountState.equipment_unequipItem_of_kept worn cleared.1 cleared.2] at same
  have emptied : (account.equipment.put slot none).get slot = none :=
    EquipmentContainer.get_put _ slot none
  rw [same, worn] at emptied
  cases emptied

section Steps

variable (hmacSha256 : List UInt8 → List UInt8 → FixedBytes 32)
variable (gameplay : Gameplay Peer Body World)

/-- An equip or unequip request, or a reliable payload that the dispatch ignores. -/
def EquipmentPacket (event : Event Peer) : Prop :=
  ∃ peer bytes payload, event = .datagram peer bytes ∧
    payloadOf bytes = some (.reliableMessage, payload) ∧
    ∀ request, dispatchReliable payload = some request →
      (∃ inventorySlot slot, request = .equipItem inventorySlot slot) ∨
        ∃ slot, request = .unequipItem slot

/-- After the event the two copies agree and every announced equipment change is true. -/
structure AgreeingStep (app : EidolonApp Peer Body World) (event : Event Peer) : Prop where
  inStep : (app.step hmacSha256 gameplay event).InStep
  announced : ∀ reply ∈ (app.handle hmacSha256 gameplay event).2,
    (app.step hmacSha256 gameplay event).Announced reply

end Steps

/-- An equip request moves an item that may be worn in the slot, or finds the slot occupied;
an unequip request finds the slot empty, or room for the item in the inventory, or an item
that could not be equipped there again. -/
def FairFor (account : AccountState) : Request → Prop
  | .equipItem inventorySlot slot =>
    account.CanEquip inventorySlot.toNat slot ∨ account.equipment.get slot ≠ none
  | .unequipItem slot =>
    ∀ itemId, account.equipment.get slot = some itemId →
      account.HasRoomFor itemId ∨ ¬ EquipmentContainer.Equippable slot itemId
  | _ => True

variable (app : EidolonApp Peer Body World)

def FairRequest (event : Event Peer) : Prop :=
  ∀ peer bytes request account, event = .datagram peer bytes →
    requestOf bytes = some request → app.PlayerAccount peer account → FairFor account request

variable {hmacSha256 : List UInt8 → List UInt8 → FixedBytes 32}
variable {gameplay : Gameplay Peer Body World}

private inductive Outcome (hmacSha256 : List UInt8 → List UInt8 → FixedBytes 32)
    (gameplay : Gameplay Peer Body World) (app : EidolonApp Peer Body World)
    (event : Event Peer) : Prop
  | equip (peer : Peer) (bytes : List UInt8) (inventorySlot : UInt32) (slot : EquipmentSlot)
      (received : event = .datagram peer bytes)
      (requested : requestOf bytes = some (.equipItem inventorySlot slot))
      (result : app.handle hmacSha256 gameplay event = app.equipItem peer inventorySlot slot)
  | unequip (peer : Peer) (bytes : List UInt8) (slot : EquipmentSlot)
      (received : event = .datagram peer bytes)
      (requested : requestOf bytes = some (.unequipItem slot))
      (result : app.handle hmacSha256 gameplay event = app.unequipItem peer slot)
  | ignored (peer : Peer) (bytes : List UInt8) (received : event = .datagram peer bytes)
      (requested : requestOf bytes = none)
      (result : app.handle hmacSha256 gameplay event = (app, []))

variable {event : Event Peer}

private theorem outcome_of_packet (packet : EquipmentPacket event) :
    Outcome hmacSha256 gameplay app event := by
  obtain ⟨peer, bytes, payload, rfl, carried, equipment⟩ := packet
  have requested : requestOf bytes = dispatchReliable payload := by
    rw [requestOf, carried]
  rcases decoded : dispatchReliable payload with _ | request
  · exact .ignored peer bytes rfl (requested.trans decoded)
      (by simp only [EidolonApp.handle, carried, decoded])
  rcases equipment request decoded with ⟨inventorySlot, slot, rfl⟩ | ⟨slot, rfl⟩
  · exact .equip peer bytes inventorySlot slot rfl (requested.trans decoded)
      (by simp only [EidolonApp.handle, carried, decoded])
  exact .unequip peer bytes slot rfl (requested.trans decoded)
    (by simp only [EidolonApp.handle, carried, decoded])

variable {app : EidolonApp Peer Body World} {peer : Peer} {player : ServerEntity Peer Body}

private theorem account_of_player (connected : app.Connected)
    (found : app.playerOf peer = some player) :
    ∃ accountId account, player.accountId = some accountId ∧
      app.accounts.lookup accountId = some account := by
  have here : player ∈ app.entities := KeyedList.mem_of_find found
  have peered : player.peerAddr = some peer := KeyedList.key_of_find found
  obtain ⟨accountId, owned⟩ := connected.joined player here (by rw [peered]; simp)
  obtain ⟨account, lookup⟩ := connected.registered player here accountId owned
  exact ⟨accountId, account, owned, lookup⟩

theorem connected_step (connected : app.Connected) (packet : EquipmentPacket event) :
    (app.step hmacSha256 gameplay event).Connected := by
  have outcome : Outcome hmacSha256 gameplay app event := outcome_of_packet app packet
  rcases outcome with ⟨peer, bytes, inventorySlot, slot, _, _, result⟩ |
    ⟨peer, bytes, slot, _, _, result⟩ | ⟨_, _, _, _, result⟩
  · rw [EidolonApp.step, result]
    rcases found : app.playerOf peer with _ | player
    · simp only [EidolonApp.equipItem, found]
      exact connected
    obtain ⟨accountId, account, owned, lookup⟩ := account_of_player connected found
    rw [EidolonApp.equipItem_eq found owned lookup]
    exact EidolonApp.connected_adjust connected found
  · rw [EidolonApp.step, result]
    rcases found : app.playerOf peer with _ | player
    · simp only [EidolonApp.unequipItem, found]
      exact connected
    obtain ⟨accountId, account, owned, lookup⟩ := account_of_player connected found
    rw [EidolonApp.unequipItem_eq found owned lookup]
    exact EidolonApp.connected_adjust connected found
  rw [EidolonApp.step, result]
  exact connected

private theorem agreeingStep_adjust_iff (connected : app.Connected) (inStep : app.InStep)
    {accountId : UInt64} {changed : AccountState} {equipment : EquipmentContainer}
    {slot : EquipmentSlot} {itemId : UInt32} (found : app.playerOf peer = some player)
    (owned : player.accountId = some accountId)
    (result : app.handle hmacSha256 gameplay event =
      (app.adjust peer player accountId changed equipment,
        [.equipmentChanged player.id slot.asU8 itemId])) :
    AgreeingStep hmacSha256 gameplay app event ↔
      (equipment = changed.equipment ∧ itemId = (changed.equipment.get slot).getD 0) := by
  have copies : (app.adjust peer player accountId changed equipment).InStep ↔
      equipment = changed.equipment :=
    EidolonApp.inStep_adjust_iff connected inStep found owned
  have told : (app.adjust peer player accountId changed equipment).Announced
      (.equipmentChanged player.id slot.asU8 itemId) ↔
        itemId = (changed.equipment.get slot).getD 0 :=
    EidolonApp.announced_adjust_iff connected found owned slot itemId
  constructor
  · rintro ⟨after, announced⟩
    rw [EidolonApp.step, result] at after announced
    exact ⟨copies.mp after, told.mp (announced _ (mem_singleton.mpr rfl))⟩
  rintro ⟨same, worn⟩
  refine ⟨?_, ?_⟩
  · rw [EidolonApp.step, result]
    exact copies.mpr same
  intro reply sent
  rw [result] at sent
  rw [EidolonApp.step, result, mem_singleton.mp sent]
  exact told.mpr worn

private theorem agreeingStep_of_idle (inStep : app.InStep)
    (result : app.handle hmacSha256 gameplay event = (app, [])) :
    AgreeingStep hmacSha256 gameplay app event := by
  refine ⟨?_, ?_⟩
  · rw [EidolonApp.step, result]
    exact inStep
  intro reply sent
  rw [result] at sent
  cases sent

private theorem fairRequest_iff {bytes : List UInt8} {request : Request} {accountId : UInt64}
    {account : AccountState} (requested : requestOf bytes = some request)
    (found : app.playerOf peer = some player) (owned : player.accountId = some accountId)
    (lookup : app.accounts.lookup accountId = some account) :
    FairRequest app (.datagram peer bytes) ↔ FairFor account request := by
  constructor
  · intro fair
    exact fair peer bytes request account rfl requested ⟨player, accountId, found, owned, lookup⟩
  rintro fair _ _ other otherAccount ⟨rfl, rfl⟩ otherRequested
    ⟨otherPlayer, otherId, otherFound, otherOwned, otherLookup⟩
  rw [found, some.injEq] at otherFound
  rw [← otherFound, owned, some.injEq] at otherOwned
  rw [← otherOwned, lookup, some.injEq] at otherLookup
  rw [requested, some.injEq] at otherRequested
  rw [← otherLookup, ← otherRequested]
  exact fair

private theorem fairRequest_of_noPlayer (absent : app.playerOf peer = none) (bytes : List UInt8) :
    FairRequest app (.datagram peer bytes) := by
  rintro _ _ _ _ ⟨rfl, rfl⟩ _ ⟨player, _, found, _⟩
  rw [absent] at found
  cases found

theorem agreeingStep_iff (connected : app.Connected) (inStep : app.InStep)
    (packet : EquipmentPacket event) :
    AgreeingStep hmacSha256 gameplay app event ↔ FairRequest app event := by
  have outcome : Outcome hmacSha256 gameplay app event := outcome_of_packet app packet
  rcases outcome with ⟨peer, bytes, inventorySlot, slot, rfl, requested, result⟩ |
    ⟨peer, bytes, slot, rfl, requested, result⟩ | ⟨peer, bytes, rfl, requested, result⟩
  · rcases found : app.playerOf peer with _ | player
    · simp only [EidolonApp.equipItem, found] at result
      exact iff_of_true (agreeingStep_of_idle inStep result) (fairRequest_of_noPlayer found bytes)
    obtain ⟨accountId, account, owned, lookup⟩ := account_of_player connected found
    have same := inStep player (KeyedList.mem_of_find found) accountId account owned lookup
    rw [EidolonApp.equipItem_eq found owned lookup] at result
    rw [fairRequest_iff requested found owned lookup,
      agreeingStep_adjust_iff connected inStep found owned result, same]
    exact equip_agrees_iff account inventorySlot slot
  · rcases found : app.playerOf peer with _ | player
    · simp only [EidolonApp.unequipItem, found] at result
      exact iff_of_true (agreeingStep_of_idle inStep result) (fairRequest_of_noPlayer found bytes)
    obtain ⟨accountId, account, owned, lookup⟩ := account_of_player connected found
    have same := inStep player (KeyedList.mem_of_find found) accountId account owned lookup
    rw [EidolonApp.unequipItem_eq found owned lookup] at result
    rw [fairRequest_iff requested found owned lookup,
      agreeingStep_adjust_iff connected inStep found owned result, same]
    exact unequip_agrees_iff account slot
  refine iff_of_true (agreeingStep_of_idle inStep result) ?_
  rintro _ _ other _ ⟨rfl, rfl⟩ otherRequested
  rw [requested] at otherRequested
  cases otherRequested

/-- The copies agree and the announcements are true throughout a run of equip and unequip
requests exactly if every request is fair in the state it arrives in. -/
theorem equipment_agrees_iff (hmacSha256 : List UInt8 → List UInt8 → FixedBytes 32)
    (gameplay : Gameplay Peer Body World) {app : EidolonApp Peer Body World}
    (connected : app.Connected) (inStep : app.InStep) {events : List (Event Peer)}
    (packets : ∀ event ∈ events, EquipmentPacket event) :
    EachStep (EidolonApp.step hmacSha256 gameplay) (AgreeingStep hmacSha256 gameplay) app events ↔
      EachStep (EidolonApp.step hmacSha256 gameplay) FairRequest app events := by
  have assumed : EachStep (EidolonApp.step hmacSha256 gameplay)
      (fun _ event => EquipmentPacket event) app events :=
    eachStep_of_forall packets app
  have preserved : ∀ (app : EidolonApp Peer Body World) event,
      app.Connected ∧ app.InStep → EquipmentPacket event →
      AgreeingStep hmacSha256 gameplay app event →
      (app.step hmacSha256 gameplay event).Connected ∧
        (app.step hmacSha256 gameplay event).InStep := by
    rintro app event ⟨connected, _⟩ packet agreeing
    exact ⟨connected_step connected packet, agreeing.inStep⟩
  have exactly : ∀ (app : EidolonApp Peer Body World) event,
      app.Connected ∧ app.InStep → EquipmentPacket event →
      (AgreeingStep hmacSha256 gameplay app event ↔ FairRequest app event) := by
    rintro app event ⟨connected, inStep⟩ packet
    exact agreeingStep_iff connected inStep packet
  exact eachStep_iff_of_invariant preserved exactly ⟨connected, inStep⟩ assumed

private def hero : ServerEntity Unit Unit where
  id := 1
  equipment := EquipmentContainer.new
  peerAddr := some ()
  accountId := some 1
  sessionId := some (sessionIdOf 1)
  body := ()

private def heroApp : EidolonApp Unit Unit Unit where
  entities := [hero]
  accounts := Finmap.singleton 1 account
  serverSecret := []
  serverNonce := FixedBytes.replicate nonceLen 0
  world := ()

private theorem connected_heroApp : (heroApp account).Connected := by
  refine ⟨⟨nodup_singleton _, ?_, ?_⟩, ?_⟩
  · intro entity here _
    rw [mem_singleton.mp here]
    exact ⟨1, rfl⟩
  · intro entity here accountId owned
    rw [mem_singleton.mp here] at owned ⊢
    cases owned
    rfl
  intro entity here accountId owned
  rw [mem_singleton.mp here] at owned
  cases owned
  exact ⟨account, Finmap.lookup_singleton_eq⟩

private theorem inStep_heroApp {account : AccountState}
    (bare : account.equipment = EquipmentContainer.new) : (heroApp account).InStep := by
  intro entity here accountId other owned lookup
  rw [mem_singleton.mp here] at owned ⊢
  cases owned
  rw [show (heroApp account).accounts.lookup 1 = some account from Finmap.lookup_singleton_eq,
    some.injEq] at lookup
  rw [← lookup, bare]
  rfl

private def reliable (payload : List UInt8) : List UInt8 :=
  (PacketHeader.new .reliableOrdered .reliableMessage 1 0 0).encoded ++ payload

/-- The request to equip the item of an inventory slot in the main hand. -/
private def wieldRequest (high low : UInt8) : List UInt8 :=
  reliable [3, 0, 0, high, low, 0, 0, 0, 2]

private def swordOwner : AccountState :=
  { AccountState.new 1 with
    inventory := (SlotArray.empty _ _).set 0 (some { itemId := 1001, quantity := 1 }) }

private theorem packet_wield {high low : UInt8} {payload : List UInt8} (inventorySlot : UInt32)
    (carried : payloadOf (wieldRequest high low) = some (.reliableMessage, payload))
    (decoded : dispatchReliable payload = some (.equipItem inventorySlot .mainHand)) :
    EquipmentPacket (.datagram () (wieldRequest high low)) := by
  refine ⟨(), _, payload, rfl, carried, ?_⟩
  intro request other
  rw [decoded] at other
  cases other
  exact .inl ⟨inventorySlot, .mainHand, rfl⟩

private theorem fairFor_swordOwner : FairFor swordOwner (.equipItem 0 .mainHand) := by
  refine .inl ⟨{ itemId := 1001, quantity := 1 }, ?_, ?_⟩
  · decide
  exact ⟨_, _, rfl, rfl, rfl⟩

theorem equipment_agrees_iff_longsword :
    EachStep (EidolonApp.step plainHash idle) (AgreeingStep plainHash idle)
      (heroApp swordOwner) [.datagram () (wieldRequest 0 0)] := by
  have packets : ∀ event ∈ [Event.datagram () (wieldRequest 0 0)], EquipmentPacket event := by
    intro event here
    rw [mem_singleton.mp here]
    exact packet_wield 0 rfl rfl
  apply (equipment_agrees_iff plainHash idle (connected_heroApp swordOwner) (inStep_heroApp rfl)
    packets).mpr
  refine ⟨?_, trivial⟩
  have requested : requestOf (wieldRequest 0 0) = some (.equipItem 0 .mainHand) := by
    rfl
  have found : (heroApp swordOwner).playerOf () = some hero := by
    rfl
  exact (fairRequest_iff requested found rfl Finmap.lookup_singleton_eq).mpr fairFor_swordOwner

/-- An equip request for inventory slot 1001, which does not exist, makes the entity wear
item 1001 while its account wears nothing. -/
theorem not_equipment_agrees_slot1001 :
    ¬ EachStep (EidolonApp.step plainHash idle) (AgreeingStep plainHash idle)
        (heroApp (AccountState.new 1)) [.datagram () (wieldRequest 0x03 0xE9)] := by
  rintro ⟨agreeing, _⟩
  have packet : EquipmentPacket (.datagram () (wieldRequest 0x03 0xE9)) :=
    packet_wield 1001 rfl rfl
  have fair := (agreeingStep_iff (connected_heroApp _) (inStep_heroApp rfl) packet).mp agreeing
  have requested : requestOf (wieldRequest 0x03 0xE9) = some (.equipItem 1001 .mainHand) := by
    rfl
  have found : (heroApp (AccountState.new 1)).playerOf () = some hero := by
    rfl
  rcases (fairRequest_iff requested found rfl Finmap.lookup_singleton_eq).mp fair with
    ⟨item, held, _⟩ | occupied
  · cases held
  exact occupied rfl

end Eidolon.Server
