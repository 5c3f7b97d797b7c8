import Mathlib.Data.UInt
import Eidolon.World.Transaction

/-!
# Failed transactions

What a failed transaction leaves behind.  An arm of `execute_transaction` that fails by
itself, or whose closing `journal.append` finds the ring buffer full, has to leave the
holdings of every account as they were.
-/

namespace Eidolon.World

open Core Library Option

structure AccountHoldings where
  premiumCurrency : UInt64
  freeCurrency : UInt64
  inventory : SlotArray maxInventorySlots InventoryItem
  equipment : EquipmentContainer
  deriving DecidableEq

namespace EquipmentContainer

def Equippable (slot : EquipmentSlot) (itemId : UInt32) : Prop :=
  ∃ definition allowedSlot, getItemDefinition itemId = some definition ∧
      definition.equipSlot = some allowedSlot ∧ isCompatible slot allowedSlot = true

variable {slot : EquipmentSlot} (equipment : EquipmentContainer)

theorem equip_of_equippable {itemId : UInt32} (equippable : Equippable slot itemId) :
    equipment.equip slot itemId = (.ok (equipment.get slot),
        { slots := equipment.slots.set slot.asU8.toNat (some itemId) }) := by
  rcases equippable with ⟨definition, allowedSlot, defined, allowed, compatible⟩
  simp only [equip, defined, allowed, compatible, if_true]

theorem equip_of_not_equippable {itemId : UInt32} (notEquippable : ¬ Equippable slot itemId) :
    ∃ error, equipment.equip slot itemId = (.error error, equipment) := by
  rcases defined : getItemDefinition itemId with _ | definition
  · exact ⟨.itemNotFound itemId, by simp only [equip, defined]⟩
  rcases allowed : definition.equipSlot with _ | allowedSlot
  · exact ⟨.transactionAborted "Item cannot be equipped", by
      simp only [equip, defined, allowed]⟩
  have incompatible : ¬ isCompatible slot allowedSlot = true := by
    intro compatible
    exact notEquippable ⟨definition, allowedSlot, defined, allowed, compatible⟩
  exact ⟨.transactionAborted "Incompatible equipment slot", by
    simp only [equip, defined, allowed, if_neg incompatible]⟩

theorem set_eq_self_iff {equipment : EquipmentContainer} {value : Option UInt32} :
    { slots := equipment.slots.set slot.asU8.toNat value } = equipment ↔
      equipment.get slot = value := by
  rw [get, ← SlotArray.set_eq_self_iff slot.asU8_lt]
  constructor
  · intro same
    exact congrArg EquipmentContainer.slots same
  intro same
  rw [same]

end EquipmentContainer

namespace AccountState

variable (account : AccountState)

def holdings : AccountHoldings where
  premiumCurrency := account.premiumCurrency
  freeCurrency := account.freeCurrency
  inventory := account.inventory
  equipment := account.equipment

def HasRoomFor (itemId : UInt32) : Prop :=
  (account.findItem? itemId).isSome = true ∨ account.inventory.firstEmpty?.isSome = true

/-- Whether a stack that `remove_item` took out of a slot as a whole is put back by
`add_item` somewhere else. -/
def ReturnsElsewhere (index : Nat) (itemId : UInt32) : Prop :=
  (∃ other held, other ≠ index ∧ account.inventory.get? other = some held ∧ held.itemId = itemId) ∨
  ∃ earlier, earlier < index ∧ account.inventory.get? earlier = none

variable {account : AccountState}

theorem debitCurrency_of_lt {amount : UInt64} {isPremium : Bool}
    (short : account.balance isPremium < amount) :
    account.debitCurrency amount isPremium =
      (.error (.insufficientBalance amount (account.balance isPremium)), account) := by
  cases isPremium with
  | _ => exact if_pos short

theorem debitCurrency_of_le {amount : UInt64} {isPremium : Bool}
    (enough : ¬ account.balance isPremium < amount) :
    ∃ debited, account.debitCurrency amount isPremium = (.ok (), debited) ∧
      (debited.holdings = account.holdings ↔ amount = 0) := by
  cases isPremium with
  | _ =>
    refine ⟨_, if_neg enough, ?_⟩
    simp [holdings]

theorem holdings_creditCurrency_zero (account : AccountState) (isPremium : Bool) :
    (account.creditCurrency 0 isPremium).holdings = account.holdings := by
  have same : ∀ currency : UInt64, saturatingAdd64 currency 0 = currency := by
    intro currency
    have bound := currency.toNat_lt
    apply UInt64.toNat_inj.mp
    rw [toNat_saturatingAdd64, UInt64.toNat_zero]
    omega
  cases isPremium with
  | _ => simp [creditCurrency, holdings, same]

variable {itemId : UInt32} {index : Nat} {item : InventoryItem}

theorem findItem?_eq_some (found : account.findItem? itemId = some (index, item)) :
    account.inventory.get? index = some item ∧ item.itemId = itemId ∧
      ∀ earlier, earlier < index → ∀ other,
        account.inventory.get? earlier = some other → other.itemId ≠ itemId := by
  rcases SlotArray.findFirst?_eq_some found with ⟨held, passes, first⟩
  refine ⟨held, of_decide_eq_true passes, ?_⟩
  intro earlier before other otherHeld
  exact of_decide_eq_false (first earlier before other otherHeld)

theorem findItem?_of_first (held : account.inventory.get? index = some item)
    (same : item.itemId = itemId)
    (first : ∀ earlier, earlier < index → ∀ other,
      account.inventory.get? earlier = some other → other.itemId ≠ itemId) :
    account.findItem? itemId = some (index, item) := by
  apply SlotArray.findFirst?_of_first held (decide_eq_true same)
  intro earlier before other otherHeld
  exact decide_eq_false (first earlier before other otherHeld)

theorem findItem?_eq_none_iff : account.findItem? itemId = none ↔
      ∀ index held, account.inventory.get? index = some held → held.itemId ≠ itemId := by
  rw [findItem?, SlotArray.findFirst?_eq_none_iff]
  constructor
  · intro absent index held isHeld
    exact of_decide_eq_false (absent held (SlotArray.mem_entries_of_get? isHeld))
  intro absent held member
  rcases SlotArray.mem_entries_iff_get?.mp member with ⟨index, isHeld⟩
  exact decide_eq_false (absent index held isHeld)

variable {quantity : UInt32}

theorem any_entries_of_findItem? (found : account.findItem? itemId = some (index, item))
    (enough : ¬ item.quantity < quantity) :
    (account.inventory.entries.any fun held =>
      decide (held.itemId = itemId) && decide (quantity ≤ held.quantity)) = true := by
  rcases findItem?_eq_some found with ⟨held, same, _⟩
  rw [List.any_eq_true]
  refine ⟨item, SlotArray.mem_entries_of_get? held, ?_⟩
  simp [same, UInt32.not_lt.mp enough]

theorem addItem_of_found (found : account.findItem? itemId = some (index, item)) :
    account.addItem itemId quantity = (.ok (),
        { account with
          inventory := account.inventory.set index
            (some { item with quantity := saturatingAdd32 item.quantity quantity })
          stateVersion := account.stateVersion + 1 }) := by
  simp only [addItem, found]

theorem addItem_of_empty (absent : account.findItem? itemId = none)
    (free : account.inventory.firstEmpty? = some index) :
    account.addItem itemId quantity = (.ok (),
        { account with
          inventory := account.inventory.set index (some { itemId := itemId, quantity := quantity })
          stateVersion := account.stateVersion + 1 }) := by
  simp only [addItem, absent, free]

theorem addItem_of_noRoom (noRoom : ¬ account.HasRoomFor itemId) : account.addItem itemId quantity =
      (.error (.transactionAborted "Inventory is full"), account) := by
  simp only [HasRoomFor, not_or, not_isSome_iff_eq_none] at noRoom
  simp only [addItem, noRoom.1, noRoom.2]

theorem addItem_of_room {account : AccountState} {itemId quantity : UInt32}
    (room : account.HasRoomFor itemId) :
    ∃ grown, account.addItem itemId quantity = (.ok (), grown) ∧
      grown.equipment = account.equipment ∧ (quantity = 0 → (grown.holdings = account.holdings ↔
          (account.findItem? itemId).isSome = true)) := by
  cases found : account.findItem? itemId with
  | some place =>
    rcases place with ⟨index, item⟩
    refine ⟨_, addItem_of_found found, rfl, ?_⟩
    intro none
    rcases findItem?_eq_some found with ⟨held, _, _⟩
    have inside := SlotArray.lt_of_get? held
    have sameQuantity : saturatingAdd32 item.quantity quantity = item.quantity := by
      apply UInt32.toNat_inj.mp
      have bound := item.quantity.toNat_lt
      rw [toNat_saturatingAdd32, none, UInt32.toNat_zero]
      omega
    simp [holdings, SlotArray.set_eq_self_iff inside, held, sameQuantity]
  | none =>
    rcases free : account.inventory.firstEmpty? with _ | index
    · simp [HasRoomFor, found, free] at room
    refine ⟨_, addItem_of_empty found free, rfl, ?_⟩
    have inside := (SlotArray.firstEmpty?_eq_some free).1
    simp [holdings, SlotArray.set_eq_self_iff inside, SlotArray.firstEmpty?_get? free]

theorem removeItem_of_absent (absent : account.findItem? itemId = none) :
    account.removeItem itemId quantity = (.error (.itemNotFound itemId), account) := by
  simp only [removeItem, absent]

section

variable (found : account.findItem? itemId = some (index, item))
include found

theorem removeItem_of_lt (short : item.quantity < quantity) : account.removeItem itemId quantity =
      (.error (.insufficientBalance quantity.toUInt64 item.quantity.toUInt64), account) := by
  simp only [removeItem, found, if_pos short]

theorem removeItem_of_le (enough : ¬ item.quantity < quantity) :
    account.removeItem itemId quantity = (.ok (),
        { account with
          inventory := account.inventory.set index (if item.quantity - quantity = 0 then none
              else some { item with quantity := item.quantity - quantity })
          stateVersion := account.stateVersion + 1 }) := by
  simp only [removeItem, found, if_neg enough]

theorem holdings_removeItem_iff {removed : AccountState} (enough : ¬ item.quantity < quantity)
    (result : account.removeItem itemId quantity = (.ok (), removed)) :
    removed.holdings = account.holdings ↔ quantity = 0 ∧ item.quantity ≠ 0 := by
  rw [removeItem_of_le found enough] at result
  cases result
  rcases findItem?_eq_some found with ⟨held, _, _⟩
  have inside := SlotArray.lt_of_get? held
  by_cases whole : item.quantity - quantity = 0
  · have same := sub_eq_zero.mp whole
    simp only [holdings, whole, if_true, AccountHoldings.mk.injEq, true_and, and_true]
    rw [SlotArray.set_eq_self_iff inside, held, same]
    simp
  simp only [holdings, whole, if_false, AccountHoldings.mk.injEq, true_and, and_true]
  rw [SlotArray.set_eq_self_iff inside, held]
  cases item with
  | mk kind stack =>
    simp only [some.injEq, InventoryItem.mk.injEq, true_and] at whole ⊢
    rw [eq_comm, sub_eq_self]
    constructor
    · intro none
      refine ⟨none, ?_⟩
      intro empty
      rw [none, empty] at whole
      exact whole (UInt32.sub_self 0)
    intro both
    exact both.1

private theorem restored_of_smaller {removed : AccountState} (enough : ¬ item.quantity < quantity)
    (someLeft : item.quantity - quantity ≠ 0)
    (result : account.removeItem itemId quantity = (.ok (), removed)) :
    (removed.addItem itemId quantity).2.holdings = account.holdings := by
  rw [removeItem_of_le found enough, if_neg someLeft] at result
  cases result
  rcases findItem?_eq_some found with ⟨held, same, first⟩
  have inside := SlotArray.lt_of_get? held
  let left : InventoryItem := { item with quantity := item.quantity - quantity }
  let removed : AccountState :=
    { account with
      inventory := account.inventory.set index (some left)
      stateVersion := account.stateVersion + 1 }
  have leftFound : removed.findItem? itemId = some (index, left) := by
    have leftHeld : removed.inventory.get? index = some left := SlotArray.get?_set_self inside _
    apply findItem?_of_first leftHeld same
    intro earlier before other otherHeld
    rw [SlotArray.get?_set_of_ne (by omega)] at otherHeld
    exact first earlier before other otherHeld
  have whole : saturatingAdd32 left.quantity quantity = item.quantity := by
    apply UInt32.toNat_inj.mp
    have bound := item.quantity.toNat_lt
    rw [UInt32.lt_iff_toNat_lt] at enough
    rw [toNat_saturatingAdd32, UInt32.toNat_sub_of_le _ _ (UInt32.le_iff_toNat_le.mpr (by omega))]
    omega
  have restored : removed.inventory.set index (some { left with quantity := item.quantity }) =
      account.inventory := by
    rw [SlotArray.set_set, SlotArray.set_eq_self_iff inside]
    exact held
  rw [addItem_of_found leftFound, whole]
  simp only [holdings, restored]
  rfl

private theorem restored_of_whole_iff {removed : AccountState} (whole : item.quantity = quantity)
    (result : account.removeItem itemId quantity = (.ok (), removed)) :
    (removed.addItem itemId quantity).2.holdings = account.holdings ↔
      ¬ account.ReturnsElsewhere index itemId := by
  have enough : ¬ item.quantity < quantity := by
    rw [whole]
    exact UInt32.lt_irrefl quantity
  rw [removeItem_of_le found enough, if_pos (sub_eq_zero.mpr whole)] at result
  cases result
  rcases findItem?_eq_some found with ⟨held, same, first⟩
  have inside := SlotArray.lt_of_get? held
  let removed : AccountState :=
    { account with
      inventory := account.inventory.set index none
      stateVersion := account.stateVersion + 1 }
  have cleared : removed.inventory.get? index = none := SlotArray.get?_set_self inside none
  -- a stack put into another slot leaves this one empty
  have notRestored : ∀ place stack, place ≠ index →
      removed.inventory.set place stack ≠ account.inventory := by
    intro place stack elsewhere restored
    rw [← restored, SlotArray.get?_set_of_ne elsewhere, cleared] at held
    cases held
  cases refound : removed.findItem? itemId with
  | some stop =>
    rcases stop with ⟨place, other⟩
    rcases findItem?_eq_some refound with ⟨otherHeld, otherSame, _⟩
    have elsewhere : place ≠ index := by
      intro here
      rw [here, cleared] at otherHeld
      cases otherHeld
    rw [SlotArray.get?_set_of_ne elsewhere.symm] at otherHeld
    rw [addItem_of_found refound]
    refine iff_of_false ?_ ?_
    · intro restored
      exact notRestored place _ elsewhere (congrArg AccountHoldings.inventory restored)
    intro settled
    exact settled (Or.inl ⟨place, other, elsewhere, otherHeld, otherSame⟩)
  | none =>
    have alone := findItem?_eq_none_iff.mp refound
    rcases free : removed.inventory.firstEmpty? with _ | place
    · exact absurd cleared (SlotArray.firstEmpty?_eq_none_iff_get?.mp free index inside)
    rcases SlotArray.firstEmpty?_eq_some_iff.mp free with ⟨_, placeFree, placeFirst⟩
    have notAfter : ¬ index < place := fun before => placeFirst index before cleared
    rw [addItem_of_empty refound free]
    by_cases here : place = index
    · subst place
      have restored : removed.inventory.set index
          (some { itemId := itemId, quantity := quantity }) = account.inventory := by
        rw [SlotArray.set_set, SlotArray.set_eq_self_iff inside, held, ← same, ← whole]
      refine iff_of_true ?_ ?_
      · simp only [holdings, restored]
        rfl
      intro elsewhere
      rcases elsewhere with ⟨other, stack, different, isHeld, kind⟩ | ⟨earlier, before, isFree⟩
      · rw [← SlotArray.get?_set_of_ne different.symm none] at isHeld
        exact alone other stack isHeld kind
      rw [← SlotArray.get?_set_of_ne (show index ≠ earlier by omega) none] at isFree
      exact placeFirst earlier before isFree
    refine iff_of_false ?_ ?_
    · intro restored
      exact notRestored place _ here (congrArg AccountHoldings.inventory restored)
    intro settled
    rw [SlotArray.get?_set_of_ne (Ne.symm here)] at placeFree
    exact settled (Or.inr ⟨place, by omega, placeFree⟩)

theorem holdings_rollback_iff {removed : AccountState} (enough : ¬ item.quantity < quantity)
    (result : account.removeItem itemId quantity = (.ok (), removed)) :
    (removed.addItem itemId quantity).2.holdings = account.holdings ↔
      ¬ (item.quantity = quantity ∧ account.ReturnsElsewhere index itemId) := by
  by_cases whole : item.quantity = quantity
  · rw [restored_of_whole_iff found whole result]
    simp [whole]
  have someLeft : item.quantity - quantity ≠ 0 := by
    rwa [Ne, sub_eq_zero]
  refine iff_of_true (restored_of_smaller found enough someLeft result) ?_
  intro both
  exact whole both.1

end

variable {slot : EquipmentSlot}

theorem equipItem_of_refused (refused : ¬ ∃ item, account.inventory.get? index = some item ∧
      EquipmentContainer.Equippable slot item.itemId) :
    ∃ error, account.equipItem index slot = (.error error, account) := by
  by_cases outside : maxInventorySlots ≤ index
  · exact ⟨.transactionAborted "Invalid inventory slot", if_pos outside⟩
  rcases held : account.inventory.get? index with _ | item
  · exact ⟨.transactionAborted "No item in inventory slot", by
      simp only [equipItem, if_neg outside, held]⟩
  have notEquippable : ¬ EquipmentContainer.Equippable slot item.itemId :=
    fun equippable => refused ⟨item, held, equippable⟩
  rcases account.equipment.equip_of_not_equippable notEquippable with ⟨error, failed⟩
  exact ⟨error, by simp only [equipItem, if_neg outside, held, failed]⟩

theorem equipItem_of_equippable (held : account.inventory.get? index = some item)
    (equippable : EquipmentContainer.Equippable slot item.itemId) :
    account.equipItem index slot = (.ok (),
        { account with
          equipment :=
            { slots := account.equipment.slots.set slot.asU8.toNat (some item.itemId) }
          inventory :=
            account.inventory.set index ((account.equipment.get slot).map fun previousId =>
                { itemId := previousId, quantity := 1 })
          stateVersion := account.stateVersion + 1 }) := by
  have notOutside : ¬ maxInventorySlots ≤ index :=
    Nat.not_le.mpr (SlotArray.lt_of_get? held)
  simp only [equipItem, if_neg notOutside, held, account.equipment.equip_of_equippable equippable]

theorem holdings_equipItem_iff {changed : AccountState}
    (held : account.inventory.get? index = some item)
    (equippable : EquipmentContainer.Equippable slot item.itemId)
    (result : account.equipItem index slot = (.ok (), changed)) :
    changed.holdings = account.holdings ↔
      account.equipment.get slot = some item.itemId ∧ item.quantity = 1 := by
  have inside := SlotArray.lt_of_get? held
  rw [equipItem_of_equippable held equippable] at result
  cases result
  simp only [holdings, AccountHoldings.mk.injEq, true_and,
    EquipmentContainer.set_eq_self_iff, SlotArray.set_eq_self_iff inside, held]
  constructor
  · intro same
    rcases same with ⟨swapped, worn⟩
    rw [worn] at swapped
    cases item
    cases swapped
    exact ⟨worn, rfl⟩
  intro both
  rcases both with ⟨worn, single⟩
  refine ⟨?_, worn⟩
  rw [worn, ← single]
  rfl

theorem unequipItem_of_bare (bare : account.equipment.get slot = none) :
    ∃ error, account.unequipItem slot = (.error error, account) := by
  refine ⟨.transactionAborted "No item equipped in slot", ?_⟩
  have same := EquipmentContainer.set_eq_self_iff.mpr bare
  simp only [unequipItem, EquipmentContainer.unequip, bare, same]

section

variable (worn : account.equipment.get slot = some itemId)
include worn

private theorem unequipped_ne :
    { slots := account.equipment.slots.set slot.asU8.toNat none } ≠ account.equipment := by
  intro same
  rw [EquipmentContainer.set_eq_self_iff, worn] at same
  cases same

theorem unequipItem_of_room (room : account.HasRoomFor itemId) :
    ∃ changed, account.unequipItem slot = (.ok itemId, changed) ∧
      changed.holdings ≠ account.holdings := by
  let bare : AccountState :=
    { account with
      equipment := { slots := account.equipment.slots.set slot.asU8.toNat none } }
  have bareRoom : bare.HasRoomFor itemId := room
  rcases addItem_of_room bareRoom with ⟨grown, added, sameEquipment, _⟩
  refine ⟨{ grown with stateVersion := grown.stateVersion + 1 }, ?_, ?_⟩
  · simp only [unequipItem, EquipmentContainer.unequip, worn]
    rw [added]
  intro same
  have restored : grown.equipment = account.equipment :=
    congrArg AccountHoldings.equipment same
  rw [sameEquipment] at restored
  exact unequipped_ne worn restored

theorem unequipItem_of_noRoom (noRoom : ¬ account.HasRoomFor itemId) :
    ∃ error changed, account.unequipItem slot = (.error error, changed) ∧
      (changed.holdings = account.holdings ↔ EquipmentContainer.Equippable slot itemId) := by
  let bare : AccountState :=
    { account with
      equipment := { slots := account.equipment.slots.set slot.asU8.toNat none } }
  have refused : bare.addItem itemId 1 = (.error (.transactionAborted "Inventory is full"), bare) :=
    addItem_of_noRoom noRoom
  by_cases equippable : EquipmentContainer.Equippable slot itemId
  · refine ⟨.transactionAborted "Inventory is full", account, ?_, iff_of_true rfl equippable⟩
    have restored : ({ slots := bare.equipment.slots.set slot.asU8.toNat (some itemId) } :
          EquipmentContainer) = account.equipment := by
      rw [SlotArray.set_set]
      exact EquipmentContainer.set_eq_self_iff.mpr worn
    simp only [unequipItem, EquipmentContainer.unequip, worn]
    rw [refused]
    simp only [bare.equipment.equip_of_equippable equippable, restored]
    rfl
  rcases bare.equipment.equip_of_not_equippable equippable with ⟨error, failed⟩
  refine ⟨.transactionAborted "Inventory is full", bare, ?_, iff_of_false ?_ equippable⟩
  · simp only [unequipItem, EquipmentContainer.unequip, worn]
    rw [refused]
    simp only [failed]
  intro same
  exact unequipped_ne worn (congrArg AccountHoldings.equipment same)

end

end AccountState

namespace Accounts

def SameHoldings (before after : Accounts) : Prop :=
  ∀ accountId, (after.lookup accountId).map AccountState.holdings =
    (before.lookup accountId).map AccountState.holdings

theorem SameHoldings.refl (accounts : Accounts) : SameHoldings accounts accounts :=
  fun _ => rfl

variable {before : Accounts}

theorem sameHoldings_insert_iff {accountId : UInt64} {account changed : AccountState}
    (held : before.lookup accountId = some account) :
    SameHoldings before (before.insert accountId changed) ↔
      changed.holdings = account.holdings := by
  constructor
  · intro same
    have here := same accountId
    rw [Finmap.lookup_insert, held] at here
    exact some.inj here
  intro same other
  by_cases here : other = accountId
  · rw [here, Finmap.lookup_insert, held, map_some, map_some, same]
  rw [Finmap.lookup_insert_of_ne _ here]

theorem sameHoldings_insert_self {accountId : UInt64} {account : AccountState}
    (held : before.lookup accountId = some account) :
    SameHoldings before (before.insert accountId account) :=
  (sameHoldings_insert_iff held).mpr rfl

theorem sameHoldings_insert_insert_iff {fromAccount toAccount : UInt64}
    {source target changedSource changedTarget : AccountState}
    (different : fromAccount ≠ toAccount) (sourceHeld : before.lookup fromAccount = some source)
    (targetHeld : before.lookup toAccount = some target) :
    SameHoldings before ((before.insert fromAccount changedSource).insert toAccount changedTarget) ↔
      changedSource.holdings = source.holdings ∧ changedTarget.holdings = target.holdings := by
  constructor
  · intro same
    have first := same fromAccount
    have second := same toAccount
    rw [Finmap.lookup_insert_of_ne _ different, Finmap.lookup_insert, sourceHeld] at first
    rw [Finmap.lookup_insert, targetHeld] at second
    exact ⟨some.inj first, some.inj second⟩
  rintro ⟨first, second⟩ other
  by_cases isTarget : other = toAccount
  · rw [isTarget, Finmap.lookup_insert, targetHeld, map_some, map_some, second]
  rw [Finmap.lookup_insert_of_ne _ isTarget]
  exact (sameHoldings_insert_iff sourceHeld).mpr first other

/-- Whatever fails, the arm by itself or the `journal.append` after it on a ring buffer
that is `full`, the holdings are as before. -/
def RollsBack (full : Prop) (before : Accounts)
    (outcome : Except WorldError MutationRecord × Accounts) : Prop :=
  match outcome.1 with
  | .error _ => SameHoldings before outcome.2
  | .ok _ => full → SameHoldings before outcome.2

section Unrestored

variable (full : Prop) (accounts : Accounts) (token : LockToken) (accountId : UInt64)

def CurrencySpendUnrestored (amount : UInt64) (isPremium : Bool) : Prop :=
  token.accountId = accountId ∧ token.lockId = lockWallet ∧ full ∧ amount ≠ 0 ∧
    ∃ account, accounts.lookup accountId = some account ∧ ¬ account.balance isPremium < amount

def CurrencyTransferUnrestored (fromAccount toAccount amount : UInt64) (isPremium : Bool) :
    Prop :=
  token.accountId = fromAccount ∧ token.lockId = lockWallet ∧ fromAccount ≠ toAccount ∧
    full ∧ amount ≠ 0 ∧ ∃ source target, accounts.lookup fromAccount = some source ∧
        accounts.lookup toAccount = some target ∧ ¬ source.balance isPremium < amount

/-- The removal succeeds, and either the target has no room and the rollback puts the
stack elsewhere, or the transfer is made on a full ring buffer and changes something. -/
def ItemTransferUnrestored (fromAccount toAccount : UInt64) (itemId quantity : UInt32) :
    Prop :=
  token.accountId = fromAccount ∧ token.lockId = lockInventory ∧ fromAccount ≠ toAccount ∧
    ∃ source target index item, accounts.lookup fromAccount = some source ∧
      accounts.lookup toAccount = some target ∧
      source.findItem? itemId = some (index, item) ∧ ¬ item.quantity < quantity ∧
      ((¬ target.HasRoomFor itemId ∧
          item.quantity = quantity ∧ source.ReturnsElsewhere index itemId) ∨
        (target.HasRoomFor itemId ∧ full ∧
          ¬ (quantity = 0 ∧ item.quantity ≠ 0 ∧ (target.findItem? itemId).isSome = true)))

def EquipItemUnrestored (inventorySlot equipSlot : UInt8) : Prop :=
  token.accountId = accountId ∧ token.lockId = lockInventory ∧ full ∧
    ∃ slot account item, EquipmentSlot.fromU8 equipSlot = some slot ∧
      accounts.lookup accountId = some account ∧
      account.inventory.get? inventorySlot.toNat = some item ∧
      EquipmentContainer.Equippable slot item.itemId ∧
      ¬ (account.equipment.get slot = some item.itemId ∧ item.quantity = 1)

def UnequipItemUnrestored (equipSlot : UInt8) : Prop :=
  token.accountId = accountId ∧ token.lockId = lockInventory ∧
    ∃ slot account itemId, EquipmentSlot.fromU8 equipSlot = some slot ∧
      accounts.lookup accountId = some account ∧
      account.equipment.get slot = some itemId ∧
      ((account.HasRoomFor itemId ∧ full) ∨
        (¬ account.HasRoomFor itemId ∧ ¬ EquipmentContainer.Equippable slot itemId))

def Unrestored : TransactionOp → Prop
  | .currencySpend accountId amount isPremium =>
    CurrencySpendUnrestored full accounts token accountId amount isPremium
  | .currencyTransfer fromAccount toAccount amount isPremium =>
    CurrencyTransferUnrestored full accounts token fromAccount toAccount amount isPremium
  | .itemTransfer fromAccount toAccount itemId quantity =>
    ItemTransferUnrestored full accounts token fromAccount toAccount itemId quantity
  | .equipItem accountId inventorySlot equipSlot =>
    EquipItemUnrestored full accounts token accountId inventorySlot equipSlot
  | .unequipItem accountId equipSlot =>
    UnequipItemUnrestored full accounts token accountId equipSlot

end Unrestored

section Arms

variable {full : Prop} {accounts : Accounts} {token : LockToken}

theorem rollsBack_refused {error : WorldError} : RollsBack full accounts (.error error, accounts) :=
  SameHoldings.refl accounts

variable {accountId : UInt64}

theorem not_unrestored_of_guarded {lockId : UInt32} {rest : Prop}
    (guarded : token.accountId ≠ accountId ∨ token.lockId ≠ lockId) :
    ¬ (token.accountId = accountId ∧ token.lockId = lockId ∧ rest) := by
  intro unrestored
  rcases unrestored with ⟨same, lock, _⟩
  exact guarded.elim (absurd same) (absurd lock)

theorem currencySpend_rollsBack_iff {amount : UInt64} {isPremium : Bool} :
    RollsBack full accounts (accounts.currencySpend token accountId amount isPremium) ↔
      ¬ CurrencySpendUnrestored full accounts token accountId amount isPremium := by
  by_cases guarded : token.accountId ≠ accountId ∨ token.lockId ≠ lockWallet
  · rw [currencySpend, if_pos guarded]
    exact iff_of_true rollsBack_refused (not_unrestored_of_guarded guarded)
  rw [currencySpend, if_neg guarded]
  rw [not_or, not_not, not_not] at guarded
  rcases held : accounts.lookup accountId with _ | account
  · refine iff_of_true rollsBack_refused ?_
    simp [CurrencySpendUnrestored, held]
  by_cases short : account.balance isPremium < amount
  · simp only [AccountState.debitCurrency_of_lt short]
    refine iff_of_true (sameHoldings_insert_self held) ?_
    simp [CurrencySpendUnrestored, held, UInt64.not_le.mpr short]
  have unrestored_iff : CurrencySpendUnrestored full accounts token accountId amount isPremium ↔
        full ∧ ¬ amount = 0 := by
    simp [CurrencySpendUnrestored, guarded, held, UInt64.not_lt.mp short]
  rcases AccountState.debitCurrency_of_le short with ⟨debited, debit, unchanged⟩
  rw [unrestored_iff, not_and, not_not]
  simp only [debit, RollsBack, sameHoldings_insert_iff held, unchanged]

theorem currencyTransfer_rollsBack_iff {fromAccount toAccount amount : UInt64} {isPremium : Bool} :
    RollsBack full accounts
        (accounts.currencyTransfer token fromAccount toAccount amount isPremium) ↔
      ¬ CurrencyTransferUnrestored full accounts token fromAccount toAccount amount
        isPremium := by
  by_cases guarded : token.accountId ≠ fromAccount ∨ token.lockId ≠ lockWallet
  · rw [currencyTransfer, if_pos guarded]
    exact iff_of_true rollsBack_refused (not_unrestored_of_guarded guarded)
  by_cases self : fromAccount = toAccount
  · rw [currencyTransfer, if_neg guarded, if_pos self]
    refine iff_of_true rollsBack_refused ?_
    intro unrestored
    exact unrestored.2.2.1 self
  rw [currencyTransfer, if_neg guarded, if_neg self]
  rw [not_or, not_not, not_not] at guarded
  rcases sourceHeld : accounts.lookup fromAccount with _ | source
  · refine iff_of_true rollsBack_refused ?_
    simp [CurrencyTransferUnrestored, sourceHeld]
  by_cases short : source.balance isPremium < amount
  · simp only [if_pos short]
    refine iff_of_true rollsBack_refused ?_
    simp [CurrencyTransferUnrestored, sourceHeld, UInt64.not_le.mpr short]
  simp only [if_neg short]
  rcases targetHeld : accounts.lookup toAccount with _ | target
  · have absent : toAccount ∉ accounts := Finmap.lookup_eq_none.mp targetHeld
    simp only [absent, not_false_eq_true, if_true]
    refine iff_of_true rollsBack_refused ?_
    simp [CurrencyTransferUnrestored, targetHeld]
  have present : toAccount ∈ accounts := Finmap.mem_of_lookup_eq_some targetHeld
  have unrestored_iff : CurrencyTransferUnrestored full accounts token fromAccount toAccount amount
        isPremium ↔ full ∧ ¬ amount = 0 := by
    simp [CurrencyTransferUnrestored, guarded, self, sourceHeld, targetHeld, UInt64.not_lt.mp short]
  rcases AccountState.debitCurrency_of_le short with ⟨debited, debit, unchanged⟩
  have stillHeld : (accounts.insert fromAccount debited).lookup toAccount = some target := by
    rw [Finmap.lookup_insert_of_ne _ (Ne.symm self), targetHeld]
  have bothUnchanged : (debited.holdings = source.holdings ∧
        (target.creditCurrency amount isPremium).holdings = target.holdings) ↔
        amount = 0 := by
    rw [unchanged]
    constructor
    · intro both
      exact both.1
    intro zero
    rw [zero]
    exact ⟨rfl, target.holdings_creditCurrency_zero isPremium⟩
  rw [unrestored_iff, not_and, not_not]
  simp only [present, not_true_eq_false, if_false, debit, stillHeld, RollsBack,
    sameHoldings_insert_insert_iff self sourceHeld targetHeld, bothUnchanged]

theorem itemTransfer_removed_rollsBack_iff {fromAccount toAccount : UInt64}
    {itemId quantity : UInt32} {source target : AccountState} {index : Nat} {item : InventoryItem}
    (passed : token.accountId = fromAccount ∧ token.lockId = lockInventory)
    (different : fromAccount ≠ toAccount) (sourceHeld : accounts.lookup fromAccount = some source)
    (targetHeld : accounts.lookup toAccount = some target)
    (found : source.findItem? itemId = some (index, item)) (enough : ¬ item.quantity < quantity) :
    RollsBack full accounts (accounts.itemTransfer token fromAccount toAccount itemId quantity) ↔
      ¬ ((¬ target.HasRoomFor itemId ∧
          item.quantity = quantity ∧ source.ReturnsElsewhere index itemId) ∨
        (target.HasRoomFor itemId ∧ full ∧ ¬ ((quantity = 0 ∧ item.quantity ≠ 0) ∧
            (target.findItem? itemId).isSome = true))) := by
  have notGuarded : ¬ (token.accountId ≠ fromAccount ∨ token.lockId ≠ lockInventory) := by
    rw [not_or, not_not, not_not]
    exact passed
  have hasItem := source.any_entries_of_findItem? found enough
  have present : toAccount ∈ accounts := Finmap.mem_of_lookup_eq_some targetHeld
  have removal : ∃ removed, source.removeItem itemId quantity = (.ok (), removed) :=
    ⟨_, AccountState.removeItem_of_le found enough⟩
  rcases removal with ⟨removed, result⟩
  have stillHeld : (accounts.insert fromAccount removed).lookup toAccount = some target := by
    rw [Finmap.lookup_insert_of_ne _ different.symm, targetHeld]
  rw [itemTransfer, if_neg notGuarded, if_neg different]
  simp only [sourceHeld, hasItem, Bool.not_true, Bool.false_eq_true, present,
    not_true_eq_false, if_false, result, stillHeld]
  by_cases room : target.HasRoomFor itemId
  · rcases @AccountState.addItem_of_room target itemId quantity room with
      ⟨grown, added, _, unchanged⟩
    have nothingMoved : ((quantity = 0 ∧ item.quantity ≠ 0) ∧ grown.holdings = target.holdings) ↔
          (quantity = 0 ∧ item.quantity ≠ 0) ∧ (target.findItem? itemId).isSome = true :=
      and_congr_right fun none => unchanged none.1
    simp only [added, RollsBack, room,
      sameHoldings_insert_insert_iff different sourceHeld targetHeld,
      AccountState.holdings_removeItem_iff found enough result, nothingMoved,
      not_true_eq_false, false_and, false_or, true_and]
    rw [not_and, not_not]
  have rolledBack : (((accounts.insert fromAccount removed).insert toAccount target).insert
        fromAccount (removed.addItem itemId quantity).2) =
        (accounts.insert fromAccount (removed.addItem itemId quantity).2).insert
          toAccount target := by
    rw [Finmap.insert_insert_of_ne _ different.symm, Finmap.insert_insert]
  simp [AccountState.addItem_of_noRoom room, Finmap.lookup_insert_of_ne _ different,
    RollsBack, rolledBack, room,
    sameHoldings_insert_insert_iff different sourceHeld targetHeld,
    AccountState.holdings_rollback_iff found enough result]

theorem itemTransfer_rollsBack_iff {fromAccount toAccount : UInt64} {itemId quantity : UInt32} :
    RollsBack full accounts (accounts.itemTransfer token fromAccount toAccount itemId quantity) ↔
      ¬ ItemTransferUnrestored full accounts token fromAccount toAccount itemId
        quantity := by
  by_cases guarded : token.accountId ≠ fromAccount ∨ token.lockId ≠ lockInventory
  · rw [itemTransfer, if_pos guarded]
    exact iff_of_true rollsBack_refused (not_unrestored_of_guarded guarded)
  by_cases self : fromAccount = toAccount
  · rw [itemTransfer, if_neg guarded, if_pos self]
    refine iff_of_true rollsBack_refused ?_
    intro unrestored
    exact unrestored.2.2.1 self
  rcases sourceHeld : accounts.lookup fromAccount with _ | source
  · simp only [itemTransfer, if_neg guarded, if_neg self, sourceHeld]
    refine iff_of_true rollsBack_refused ?_
    simp [ItemTransferUnrestored, sourceHeld]
  by_cases hasItem : (source.inventory.entries.any fun item =>
      decide (item.itemId = itemId) && decide (quantity ≤ item.quantity)) = true
  swap
  · simp only [itemTransfer, if_neg guarded, if_neg self, sourceHeld, hasItem,
      Bool.not_false, if_true]
    refine iff_of_true rollsBack_refused ?_
    intro unrestored
    rcases unrestored with
      ⟨_, _, _, other, target, index, item, otherHeld, _, found, enough, _⟩
    rw [sourceHeld] at otherHeld
    cases otherHeld
    exact hasItem (source.any_entries_of_findItem? found enough)
  rcases targetHeld : accounts.lookup toAccount with _ | target
  · have absent : toAccount ∉ accounts := Finmap.lookup_eq_none.mp targetHeld
    simp only [itemTransfer, if_neg guarded, if_neg self, sourceHeld, hasItem,
      Bool.not_true, Bool.false_eq_true, if_false, absent, not_false_eq_true, if_true]
    refine iff_of_true rollsBack_refused ?_
    simp [ItemTransferUnrestored, targetHeld]
  have present : toAccount ∈ accounts := Finmap.mem_of_lookup_eq_some targetHeld
  rcases found : source.findItem? itemId with _ | place
  · simp only [itemTransfer, if_neg guarded, if_neg self, sourceHeld, hasItem,
      Bool.not_true, Bool.false_eq_true, present, not_true_eq_false, if_false,
      AccountState.removeItem_of_absent found]
    refine iff_of_true (sameHoldings_insert_self sourceHeld) ?_
    simp [ItemTransferUnrestored, sourceHeld, found]
  rcases place with ⟨index, item⟩
  by_cases short : item.quantity < quantity
  · simp only [itemTransfer, if_neg guarded, if_neg self, sourceHeld, hasItem,
      Bool.not_true, Bool.false_eq_true, present, not_true_eq_false, if_false,
      AccountState.removeItem_of_lt found short]
    refine iff_of_true (sameHoldings_insert_self sourceHeld) ?_
    simp [ItemTransferUnrestored, sourceHeld, found, UInt32.not_le.mpr short]
  rw [not_or, not_not, not_not] at guarded
  rw [itemTransfer_removed_rollsBack_iff guarded self sourceHeld targetHeld found short]
  simp [ItemTransferUnrestored, guarded, self, sourceHeld, targetHeld, found,
    UInt32.not_lt.mp short]

theorem equipItem_rollsBack_iff {inventorySlot equipSlot : UInt8} :
    RollsBack full accounts (accounts.equipItem token accountId inventorySlot equipSlot) ↔
      ¬ EquipItemUnrestored full accounts token accountId inventorySlot equipSlot := by
  by_cases guarded : token.accountId ≠ accountId ∨ token.lockId ≠ lockInventory
  · rw [equipItem, if_pos guarded]
    exact iff_of_true rollsBack_refused (not_unrestored_of_guarded guarded)
  rw [equipItem, if_neg guarded]
  rw [not_or, not_not, not_not] at guarded
  rcases parsed : EquipmentSlot.fromU8 equipSlot with _ | slot
  · refine iff_of_true rollsBack_refused ?_
    simp [EquipItemUnrestored, parsed]
  rcases held : accounts.lookup accountId with _ | account
  · refine iff_of_true rollsBack_refused ?_
    simp [EquipItemUnrestored, held]
  have unrestored_iff : EquipItemUnrestored full accounts token accountId inventorySlot equipSlot ↔
        full ∧ ∃ item, account.inventory.get? inventorySlot.toNat = some item ∧
          EquipmentContainer.Equippable slot item.itemId ∧
          ¬ (account.equipment.get slot = some item.itemId ∧ item.quantity = 1) := by
    simp [EquipItemUnrestored, guarded, parsed, held]
  rw [unrestored_iff]
  by_cases accepted : ∃ item, account.inventory.get? inventorySlot.toNat = some item ∧
        EquipmentContainer.Equippable slot item.itemId
  · rcases accepted with ⟨item, isHeld, equippable⟩
    have equipped := AccountState.equipItem_of_equippable isHeld equippable
    have unchanged := AccountState.holdings_equipItem_iff isHeld equippable equipped
    simp only [equipped, RollsBack, sameHoldings_insert_iff held, unchanged]
    simp [isHeld, equippable]
  rcases AccountState.equipItem_of_refused accepted with ⟨error, failed⟩
  simp only [failed]
  refine iff_of_true (sameHoldings_insert_self held) ?_
  intro unrestored
  rcases unrestored with ⟨_, item, isHeld, equippable, _⟩
  exact accepted ⟨item, isHeld, equippable⟩

theorem unequipItem_rollsBack_iff {equipSlot : UInt8} :
    RollsBack full accounts (accounts.unequipItem token accountId equipSlot) ↔
      ¬ UnequipItemUnrestored full accounts token accountId equipSlot := by
  by_cases guarded : token.accountId ≠ accountId ∨ token.lockId ≠ lockInventory
  · rw [unequipItem, if_pos guarded]
    exact iff_of_true rollsBack_refused (not_unrestored_of_guarded guarded)
  rw [unequipItem, if_neg guarded]
  rw [not_or, not_not, not_not] at guarded
  rcases parsed : EquipmentSlot.fromU8 equipSlot with _ | slot
  · refine iff_of_true rollsBack_refused ?_
    simp [UnequipItemUnrestored, parsed]
  rcases held : accounts.lookup accountId with _ | account
  · refine iff_of_true rollsBack_refused ?_
    simp [UnequipItemUnrestored, held]
  -- the condition, read at the slot and the account that were found
  have unrestored_iff : UnequipItemUnrestored full accounts token accountId equipSlot ↔
        ∃ itemId, account.equipment.get slot = some itemId ∧
          ((account.HasRoomFor itemId ∧ full) ∨ (¬ account.HasRoomFor itemId ∧
              ¬ EquipmentContainer.Equippable slot itemId)) := by
    simp [UnequipItemUnrestored, guarded, parsed, held]
  rw [unrestored_iff]
  rcases worn : account.equipment.get slot with _ | itemId
  · rcases AccountState.unequipItem_of_bare worn with ⟨error, failed⟩
    simp only [failed]
    refine iff_of_true (sameHoldings_insert_self held) ?_
    intro unrestored
    rcases unrestored with ⟨itemId, found, _⟩
    cases found
  by_cases room : account.HasRoomFor itemId
  · rcases AccountState.unequipItem_of_room worn room with
      ⟨changed, unequipped, different⟩
    simp [unequipped, RollsBack, sameHoldings_insert_iff held, different, room]
  rcases AccountState.unequipItem_of_noRoom worn room with
    ⟨error, changed, failed, restored_iff⟩
  simp [failed, RollsBack, sameHoldings_insert_iff held, restored_iff, room]

theorem mutate_rollsBack_iff (op : TransactionOp) :
    RollsBack full accounts (accounts.mutate token op) ↔ ¬ Unrestored full accounts token op := by
  cases op with
  | currencyTransfer fromAccount toAccount amount isPremium => exact currencyTransfer_rollsBack_iff
  | currencySpend accountId amount isPremium => exact currencySpend_rollsBack_iff
  | itemTransfer fromAccount toAccount itemId quantity => exact itemTransfer_rollsBack_iff
  | equipItem accountId inventorySlot equipSlot => exact equipItem_rollsBack_iff
  | unequipItem accountId equipSlot => exact unequipItem_rollsBack_iff

end Arms

end Accounts

namespace TransactionManager

variable {cap : Nat} (manager : TransactionManager)

/-- If the transaction fails, the holdings of every account, the executed transactions
and the journal are as before the call. -/
def FailsCleanly (txId : UInt64) (op : TransactionOp) (callerSessionId : UInt64)
    (sourceToken : LockToken) (currentTick : UInt64) (journal : WriteAheadJournal cap) : Prop :=
  let outcome :=
    manager.executeTransaction txId op callerSessionId sourceToken currentTick journal
  ∀ error, outcome.1 = .error error → manager.accounts.SameHoldings outcome.2.1.accounts ∧
      outcome.2.1.executedTxs = manager.executedTxs ∧ outcome.2.2 = journal

/-- The transaction gets to its arm, and what the arm does there is not rolled back. -/
def FailureUnrestored (txId : UInt64) (op : TransactionOp) (callerSessionId : UInt64)
    (sourceToken : LockToken) (currentTick : UInt64) (journal : WriteAheadJournal cap) : Prop :=
  txId ∉ manager.executedTxs ∧
    manager.lockRegistry.validateMutation sourceToken callerSessionId currentTick = .ok () ∧
    manager.accounts.Unrestored (cap ≤ journal.ringBuffer.len) sourceToken op

/-- A failed transaction has changed nothing, except in exactly the listed cases. -/
theorem executeTransaction_failsCleanly_iff (manager : TransactionManager) (txId : UInt64)
    (op : TransactionOp) (callerSessionId : UInt64) (sourceToken : LockToken)
    (currentTick : UInt64) (journal : WriteAheadJournal cap) :
    manager.FailsCleanly txId op callerSessionId sourceToken currentTick journal ↔
      ¬ manager.FailureUnrestored txId op callerSessionId sourceToken currentTick
        journal := by
  by_cases duplicate : txId ∈ manager.executedTxs
  · simp [FailsCleanly, executeTransaction, FailureUnrestored, duplicate,
      Accounts.SameHoldings.refl]
  cases validated :
      manager.lockRegistry.validateMutation sourceToken callerSessionId currentTick with
  | error error =>
    simp [FailsCleanly, executeTransaction, FailureUnrestored, duplicate, validated,
      Accounts.SameHoldings.refl]
  | ok permitted =>
    have unrestored_iff :
        manager.FailureUnrestored txId op callerSessionId sourceToken currentTick journal ↔
          manager.accounts.Unrestored (cap ≤ journal.ringBuffer.len) sourceToken op := by
      simp [FailureUnrestored, duplicate, validated]
    rw [unrestored_iff, ← Accounts.mutate_rollsBack_iff]
    rcases mutated : manager.accounts.mutate sourceToken op with ⟨result, accounts⟩
    rcases result with error | record
    · simp [FailsCleanly, executeTransaction, if_neg duplicate, validated, mutated,
        Accounts.RollsBack]
    by_cases full : cap ≤ journal.ringBuffer.len
    · simp [FailsCleanly, executeTransaction, if_neg duplicate, validated, mutated,
        WriteAheadJournal.append_of_full full record.payload_short, full,
        Accounts.RollsBack]
    rcases @WriteAheadJournal.append_of_room cap journal currentTick record.accountId 0
      record.opcode record.payload full record.payload_short with ⟨lsn, appended, result⟩
    simp [FailsCleanly, executeTransaction, if_neg duplicate, validated, mutated,
      result, full, Accounts.RollsBack]

def lockedWallet : TransactionManager :=
  ((new.registerAccount { AccountState.new 1001 with premiumCurrency := 1000 }).acquireLock
    1001 lockWallet 555 10 50 false).2

def lockedWalletToken : LockToken where
  accountId := 1001
  lockId := lockWallet
  generation := 1
  holderSessionId := 555
  grantedTick := 10
  leaseDurationTicks := 50

/-- A journal whose ring buffer holds as many records as it can. -/
def fullJournal : WriteAheadJournal 1 :=
  ((WriteAheadJournal.new 1).append 11 1001 0 opCurrencyDelta []).2

/-- A spend of 700 that fails with `WalBufferFull` has been debited. -/
theorem executeTransaction_fails_after_debit :
    ¬ lockedWallet.FailsCleanly 1 (.currencySpend 1001 700 true) 555 lockedWalletToken 12
      fullJournal := by
  intro clean
  have failed : (lockedWallet.executeTransaction 1 (.currencySpend 1001 700 true) 555
        lockedWalletToken 12 fullJournal).1 = .error .walBufferFull := by
    decide +kernel
  have same := (clean _ failed).1 1001
  revert same
  decide +kernel

end TransactionManager

end Eidolon.World
