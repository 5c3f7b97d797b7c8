import Eidolon.World.TransactionCommits

/-!
# Conservation of units

An operation on items should move units between inventories and worn equipment and neither
make nor lose any.  A worn item is one unit and a stack stops growing at the largest quantity,
so it does when only single items are equipped and every stack has room for what joins it.
-/

namespace Eidolon.World

open Core Library Option

def stackUnits (itemId : UInt32) (item : InventoryItem) : Nat :=
  if item.itemId = itemId then item.quantity.toNat else 0

def wornUnits (itemId worn : UInt32) : Nat :=
  if worn = itemId then 1 else 0

namespace AccountState

variable {account : AccountState}

def units (itemId : UInt32) (account : AccountState) : Nat :=
  account.inventory.total (stackUnits itemId) + account.equipment.slots.total (wornUnits itemId)

def StackHolds (account : AccountState) (itemId quantity : UInt32) : Prop :=
  ∀ index item, account.findItem? itemId = some (index, item) →
    item.quantity.toNat + quantity.toNat < 2 ^ 32

/-- The units that join: as many as the stack holds, or all when they start a new one. -/
def joined (account : AccountState) (itemId quantity : UInt32) : Nat :=
  match account.findItem? itemId with
  | some (_, item) => min (item.quantity.toNat + quantity.toNat) (2 ^ 32 - 1) - item.quantity.toNat
  | none => quantity.toNat

variable {itemId : UInt32}

theorem joined_eq_iff {quantity : UInt32} :
    account.joined itemId quantity = quantity.toNat ↔ account.StackHolds itemId quantity := by
  rw [joined, StackHolds]
  rcases found : account.findItem? itemId with _ | ⟨index, item⟩
  · exact iff_of_true rfl (fun index item here => by cases here)
  have itemBound := item.quantity.toNat_lt
  constructor
  · intro all other otherItem here
    cases here
    dsimp only at all
    omega
  intro room
  have fits := room index item rfl
  dsimp only
  omega

theorem stackUnits_named {item : InventoryItem} (named : item.itemId = itemId)
    (other quantity : UInt32) :
    stackUnits other { item with quantity := quantity } =
      if itemId = other then quantity.toNat else 0 := by
  rw [stackUnits, named]

theorem units_set {index : Nat} (inside : index < maxInventorySlots)
    (stack : Option InventoryItem) (stateVersion : UInt64) (itemId : UInt32) :
    units itemId
          { account with
            inventory := account.inventory.set index stack
            stateVersion := stateVersion } +
        ((account.inventory.get? index).map (stackUnits itemId)).getD 0 =
      account.units itemId + (stack.map (stackUnits itemId)).getD 0 := by
  have written := account.inventory.total_set (stackUnits itemId) inside stack
  rw [units, units]
  dsimp only
  omega

theorem units_of_removeItem {removed : AccountState} {quantity : UInt32}
    (removal : account.removeItem itemId quantity = (.ok (), removed)) (other : UInt32) :
    removed.units other + (if itemId = other then quantity.toNat else 0) = account.units other := by
  rcases found : account.findItem? itemId with _ | ⟨index, item⟩
  · rw [removeItem_of_absent found] at removal
    cases removal
  obtain ⟨held, named, _⟩ := findItem?_eq_some found
  by_cases short : item.quantity < quantity
  · rw [removeItem_of_lt found short] at removal
    cases removal
  rw [removeItem_of_le found short] at removal
  cases removal
  have left : (item.quantity - quantity).toNat + quantity.toNat = item.quantity.toNat := by
    have covered := UInt32.le_iff_toNat_le.mp (UInt32.not_lt.mp short)
    rw [UInt32.toNat_sub_of_le _ _ (UInt32.not_lt.mp short)]
    omega
  have remaining : ((if item.quantity - quantity = 0 then none
        else some { item with quantity := item.quantity - quantity }).map
          (stackUnits other)).getD 0 =
        if itemId = other then (item.quantity - quantity).toNat else 0 := by
    by_cases whole : item.quantity - quantity = 0
    · rw [whole]
      simp
    rw [if_neg whole, map_some, getD_some, stackUnits_named named]
  have written := @units_set account _ (SlotArray.lt_of_get? held)
    (if item.quantity - quantity = 0 then none
      else some { item with quantity := item.quantity - quantity })
    (account.stateVersion + 1) other
  rw [held, remaining, map_some, getD_some, stackUnits_named named other item.quantity] at written
  by_cases same : itemId = other
  · rw [if_pos same, if_pos same] at written
    rw [if_pos same]
    omega
  rw [if_neg same, if_neg same] at written
  rw [if_neg same]
  omega

theorem units_of_addItem {grown : AccountState} {quantity : UInt32}
    (addition : account.addItem itemId quantity = (.ok (), grown)) (other : UInt32) :
    grown.units other =
      account.units other + (if itemId = other then account.joined itemId quantity else 0) := by
  cases found : account.findItem? itemId with
  | none =>
    rcases free : account.inventory.firstEmpty? with _ | index
    · rw [addItem_of_noRoom (by simp [HasRoomFor, found, free])] at addition
      cases addition
    rw [addItem_of_empty found free] at addition
    cases addition
    have written := @units_set account _ (SlotArray.firstEmpty?_eq_some free).1
      (some { itemId := itemId, quantity := quantity }) (account.stateVersion + 1) other
    rw [SlotArray.firstEmpty?_get? free] at written
    rw [joined, found]
    exact written
  | some place =>
    rcases place with ⟨index, item⟩
    obtain ⟨held, named, _⟩ := findItem?_eq_some found
    rw [addItem_of_found found] at addition
    cases addition
    have written := @units_set account _ (SlotArray.lt_of_get? held)
      (some { item with quantity := saturatingAdd32 item.quantity quantity })
      (account.stateVersion + 1) other
    have bound := item.quantity.toNat_lt
    rw [held, map_some, getD_some, map_some, getD_some,
      stackUnits_named named other item.quantity, stackUnits_named named,
      toNat_saturatingAdd32] at written
    rw [joined, found]
    by_cases same : itemId = other
    · rw [if_pos same, if_pos same] at written
      rw [if_pos same]
      dsimp only
      omega
    rw [if_neg same, if_neg same] at written
    rw [if_neg same]
    omega

theorem units_debitCurrency (amount : UInt64) (isPremium : Bool) (other : UInt32) :
    (account.debitCurrency amount isPremium).2.units other = account.units other := by
  rw [debitCurrency]
  split
  · split <;> rfl
  split <;> rfl

theorem units_creditCurrency (amount : UInt64) (isPremium : Bool) (other : UInt32) :
    (account.creditCurrency amount isPremium).units other = account.units other := by
  cases isPremium with
  | _ => rfl

theorem units_of_equipItem {changed : AccountState} {index : Nat} {slot : EquipmentSlot}
    (equipped : account.equipItem index slot = (.ok (), changed)) :
    ∃ item, account.inventory.get? index = some item ∧
      ∀ other, changed.units other + stackUnits other item =
        account.units other + wornUnits other item.itemId := by
  by_cases accepted : ∃ item, account.inventory.get? index = some item ∧
      EquipmentContainer.Equippable slot item.itemId
  · obtain ⟨item, held, equippable⟩ := accepted
    rw [equipItem_of_equippable held equippable] at equipped
    cases equipped
    refine ⟨item, held, ?_⟩
    intro other
    have inventory := account.inventory.total_set (stackUnits other) (SlotArray.lt_of_get? held)
      ((account.equipment.get slot).map fun previousId => { itemId := previousId, quantity := 1 })
    have worn := account.equipment.slots.total_set (wornUnits other) slot.asU8_lt (some item.itemId)
    -- what was worn before becomes one unit in the slot
    have swapped : (((account.equipment.get slot).map fun previousId =>
        ({ itemId := previousId, quantity := 1 } : InventoryItem)).map (stackUnits other)).getD 0 =
          ((account.equipment.slots.get? slot.asU8.toNat).map (wornUnits other)).getD 0 := by
      rw [Option.map_map]
      rfl
    rw [held, map_some, getD_some] at inventory
    rw [map_some, getD_some] at worn
    rw [units, units]
    dsimp only
    omega
  obtain ⟨error, refused⟩ := equipItem_of_refused accepted
  rw [refused] at equipped
  cases equipped

theorem units_of_unequipItem {changed : AccountState} {slot : EquipmentSlot}
    (unequipped : account.unequipItem slot = (.ok itemId, changed)) :
    account.equipment.get slot = some itemId ∧
      ∀ other, changed.units other + (if itemId = other then 1 else 0) =
        account.units other + (if itemId = other then account.joined itemId 1 else 0) := by
  rw [unequipItem, EquipmentContainer.unequip] at unequipped
  rcases worn : account.equipment.get slot with _ | wornId
  · rw [worn] at unequipped
    cases unequipped
  rw [worn] at unequipped
  dsimp only at unequipped
  split at unequipped
  · cases unequipped
  rename_i grown addition
  cases unequipped
  refine ⟨rfl, ?_⟩
  intro other
  have taken := account.equipment.slots.total_set (wornUnits other) slot.asU8_lt none
  have joins := units_of_addItem addition other
  have worn' : account.equipment.slots.get? slot.asU8.toNat = some itemId := worn
  rw [worn', map_some, getD_some, map_none, getD_none, wornUnits] at taken
  have sameJoined : joined
      { account with
        equipment := { slots := account.equipment.slots.set slot.asU8.toNat none } }
      itemId 1 = account.joined itemId 1 := rfl
  rw [sameJoined] at joins
  have version : units other { grown with stateVersion := grown.stateVersion + 1 } =
      grown.units other := rfl
  rw [version, joins]
  rw [units, units]
  dsimp only
  omega

end AccountState

namespace Accounts

def units (itemId : UInt32) (accounts : Accounts) : Nat :=
  FiniteMap.total (AccountState.units itemId) accounts

end Accounts

/-- Only single items are equipped, and every stack has room for what joins it. -/
def UnitsFit (accounts : Accounts) (op : TransactionOp) : Prop :=
  match op with
  | .itemTransfer _ toAccount itemId quantity =>
    ∀ target, accounts.lookup toAccount = some target → target.StackHolds itemId quantity
  | .equipItem accountId inventorySlot _ =>
    ∀ account, accounts.lookup accountId = some account →
      ∀ item, account.inventory.get? inventorySlot.toNat = some item → item.quantity = 1
  | .unequipItem accountId equipSlot =>
    ∀ account, accounts.lookup accountId = some account →
      ∀ slot, EquipmentSlot.fromU8 equipSlot = some slot →
        ∀ itemId, account.equipment.get slot = some itemId → account.StackHolds itemId 1
  | _ => True

namespace Accounts

variable {accounts after : Accounts} {token : LockToken} {record : MutationRecord}

theorem units_itemTransfer_iff {fromAccount toAccount : UInt64} {itemId quantity : UInt32}
    (committed : accounts.itemTransfer token fromAccount toAccount itemId quantity =
      (.ok record, after)) :
    (∀ other, after.units other = accounts.units other) ↔
      UnitsFit accounts (.itemTransfer fromAccount toAccount itemId quantity) := by
  obtain ⟨source, removed, target, grown, apart, found, removal, targetFound, addition, rfl⟩ :=
    itemTransfer_committed committed
  have changed : ∀ other,
      Accounts.units other ((accounts.insert fromAccount removed).insert toAccount grown) +
          (if itemId = other then quantity.toNat else 0) =
        accounts.units other + (if itemId = other then target.joined itemId quantity else 0) := by
    intro other
    have written := @total_insert_insert _ (AccountState.units other) _ _ _ removed _ grown
      apart found targetFound
    have taken := AccountState.units_of_removeItem removal other
    have joins := AccountState.units_of_addItem addition other
    rw [units, units]
    omega
  have condition : UnitsFit accounts (.itemTransfer fromAccount toAccount itemId quantity) ↔
      target.StackHolds itemId quantity := by
    constructor
    · intro fits
      exact fits target targetFound
    intro holds other otherFound
    rw [targetFound, some.injEq] at otherFound
    rw [← otherFound]
    exact holds
  rw [condition, ← AccountState.joined_eq_iff]
  constructor
  · intro same
    have atItem := changed itemId
    rw [same itemId, if_pos rfl, if_pos rfl] at atItem
    omega
  intro all other
  have atOther := changed other
  rw [all] at atOther
  omega

variable {accountId : UInt64}

theorem units_equipItem_iff {inventorySlot equipSlot : UInt8}
    (committed : accounts.equipItem token accountId inventorySlot equipSlot = (.ok record, after)) :
    (∀ other, after.units other = accounts.units other) ↔
      UnitsFit accounts (.equipItem accountId inventorySlot equipSlot) := by
  obtain ⟨slot, account, worn, _, found, equipped, rfl⟩ := equipItem_committed committed
  obtain ⟨item, held, moved⟩ := AccountState.units_of_equipItem equipped
  have changed : ∀ other,
      Accounts.units other (accounts.insert accountId worn) + stackUnits other item =
        accounts.units other + wornUnits other item.itemId := by
    intro other
    have written := FiniteMap.total_insert (AccountState.units other) found worn
    have movedHere := moved other
    rw [units, units]
    omega
  have condition : UnitsFit accounts (.equipItem accountId inventorySlot equipSlot) ↔
      item.quantity = 1 := by
    constructor
    · intro fits
      exact fits account found item held
    intro single other otherFound otherItem otherHeld
    rw [found, some.injEq] at otherFound
    rw [← otherFound, held, some.injEq] at otherHeld
    rw [← otherHeld]
    exact single
  rw [condition]
  constructor
  · intro same
    have atItem := changed item.itemId
    rw [same item.itemId, stackUnits, wornUnits, if_pos rfl, if_pos rfl] at atItem
    apply UInt32.toNat_inj.mp
    rw [UInt32.toNat_one]
    omega
  intro single other
  have atOther := changed other
  rw [stackUnits, wornUnits, single, UInt32.toNat_one] at atOther
  omega

theorem units_unequipItem_iff {equipSlot : UInt8}
    (committed : accounts.unequipItem token accountId equipSlot = (.ok record, after)) :
    (∀ other, after.units other = accounts.units other) ↔
      UnitsFit accounts (.unequipItem accountId equipSlot) := by
  obtain ⟨slot, account, itemId, bare, named, found, unequipped, rfl⟩ :=
    unequipItem_committed committed
  obtain ⟨worn, moved⟩ := AccountState.units_of_unequipItem unequipped
  have changed : ∀ other,
      Accounts.units other (accounts.insert accountId bare) + (if itemId = other then 1 else 0) =
        accounts.units other + (if itemId = other then account.joined itemId 1 else 0) := by
    intro other
    have written := FiniteMap.total_insert (AccountState.units other) found bare
    have movedHere := moved other
    rw [units, units]
    omega
  have condition : UnitsFit accounts (.unequipItem accountId equipSlot) ↔
      account.StackHolds itemId 1 := by
    constructor
    · intro fits
      exact fits account found slot named itemId worn
    intro holds other otherFound otherSlot otherNamed otherId otherWorn
    rw [found, some.injEq] at otherFound
    rw [named, some.injEq] at otherNamed
    rw [← otherFound, ← otherNamed, worn, some.injEq] at otherWorn
    rw [← otherFound, ← otherWorn]
    exact holds
  rw [condition, ← AccountState.joined_eq_iff, UInt32.toNat_one]
  constructor
  · intro same
    have atItem := changed itemId
    rw [same itemId, if_pos rfl, if_pos rfl] at atItem
    omega
  intro all other
  have atOther := changed other
  rw [all] at atOther
  omega

theorem units_currencySpend {amount : UInt64} {isPremium : Bool}
    (committed : accounts.currencySpend token accountId amount isPremium = (.ok record, after))
    (other : UInt32) : after.units other = accounts.units other := by
  obtain ⟨account, debited, found, debit, rfl⟩ := currencySpend_committed committed
  have same := @AccountState.units_debitCurrency account amount isPremium other
  have written := FiniteMap.total_insert (AccountState.units other) found debited
  rw [debit] at same
  dsimp only at same
  rw [units, units]
  omega

theorem units_currencyTransfer {fromAccount toAccount amount : UInt64} {isPremium : Bool}
    (committed : accounts.currencyTransfer token fromAccount toAccount amount isPremium =
      (.ok record, after)) (other : UInt32) : after.units other = accounts.units other := by
  obtain ⟨source, debited, target, apart, found, debit, targetFound, rfl⟩ :=
    currencyTransfer_committed committed
  have debitedUnits := @AccountState.units_debitCurrency source amount isPremium other
  have creditedUnits := @AccountState.units_creditCurrency target amount isPremium other
  have written := @total_insert_insert _ (AccountState.units other) _ _ _ debited _
    (target.creditCurrency amount isPremium) apart found targetFound
  rw [debit] at debitedUnits
  dsimp only at debitedUnits
  rw [units, units]
  omega

theorem units_of_committed_iff {op : TransactionOp}
    (committed : accounts.mutate token op = (.ok record, after)) :
    (∀ other, after.units other = accounts.units other) ↔ UnitsFit accounts op := by
  cases op with
  | currencySpend accountId amount isPremium =>
    exact iff_of_true (units_currencySpend committed) trivial
  | currencyTransfer fromAccount toAccount amount isPremium =>
    exact iff_of_true (units_currencyTransfer committed) trivial
  | itemTransfer fromAccount toAccount itemId quantity => exact units_itemTransfer_iff committed
  | equipItem accountId inventorySlot equipSlot => exact units_equipItem_iff committed
  | unequipItem accountId equipSlot => exact units_unequipItem_iff committed

end Accounts

namespace TransactionManager

variable {cap : Nat}

/-- A transaction that commits keeps the units of all items exactly if they fit. -/
theorem units_conserved_iff (manager : TransactionManager) (journal : WriteAheadJournal cap)
    (call : TransactionCall) {lsn : UInt64}
    (committed : (manager.execute journal call).1 = .ok lsn) :
    (∀ itemId, (manager.execute journal call).2.1.accounts.units itemId =
        manager.accounts.units itemId) ↔
      UnitsFit manager.accounts call.op := by
  obtain ⟨record, mutated⟩ := mutate_of_committed committed
  exact Accounts.units_of_committed_iff mutated

private def swordOwner (quantity : UInt32) : TransactionManager :=
  ((new.registerAccount
    { AccountState.new 1001 with
      inventory := (SlotArray.empty _ _).set 0
        (some { itemId := 1001, quantity := quantity }) }).acquireLock
      1001 lockInventory 555 10 50 false).2

private def equipSword : TransactionCall where
  txId := 1
  op := .equipItem 1001 0 EquipmentSlot.mainHand.asU8
  callerSessionId := 555
  sourceToken := ⟨1001, lockInventory, 1, 555, 10, 50⟩
  currentTick := 12

theorem units_conserved_iff_single_sword :
    ((swordOwner 1).execute (WriteAheadJournal.new 4) equipSword).1 = .ok 1 ∧ ∀ itemId,
        ((swordOwner 1).execute (WriteAheadJournal.new 4) equipSword).2.1.accounts.units itemId =
          (swordOwner 1).accounts.units itemId := by
  have committed : ((swordOwner 1).execute (WriteAheadJournal.new 4) equipSword).1 = .ok 1 := by
    decide +kernel
  refine ⟨committed, (@units_conserved_iff 4 _ _ _ 1 committed).mpr ?_⟩
  intro account found item held
  have stack : ((swordOwner 1).accounts.lookup 1001).bind (fun account =>
      account.inventory.get? 0) = some { itemId := 1001, quantity := 1 } := by
    decide +kernel
  rw [found] at stack
  have same : some item = some { itemId := 1001, quantity := 1 } := held.symm.trans stack
  rw [some.inj same]

/-- Of three swords in a slot one is worn afterwards and the others are gone. -/
theorem not_units_conserved_three_swords :
    ¬ ∀ (cap : Nat) (manager : TransactionManager) (journal : WriteAheadJournal cap)
      (call : TransactionCall) (lsn : UInt64), (manager.execute journal call).1 = .ok lsn →
        ∀ itemId, (manager.execute journal call).2.1.accounts.units itemId =
          manager.accounts.units itemId := by
  intro always
  have same := always 4 (swordOwner 3) (WriteAheadJournal.new 4) equipSword 1
    (by decide +kernel) 1001
  revert same
  decide +kernel

end TransactionManager

end Eidolon.World
