import Eidolon.Library.FiniteMap
import Eidolon.World.TransactionAtomicity

/-!
# Committed transactions

What a transaction that commits has done to the accounts, one statement for each operation.
-/

namespace Eidolon.World

open Core Library

namespace Accounts

variable {accounts after : Accounts} {token : LockToken} {record : MutationRecord}

variable {accountId : UInt64}

theorem currencySpend_committed {amount : UInt64} {isPremium : Bool}
    (committed : accounts.currencySpend token accountId amount isPremium = (.ok record, after)) :
    ∃ account debited, accounts.lookup accountId = some account ∧
      account.debitCurrency amount isPremium = (.ok (), debited) ∧
      after = accounts.insert accountId debited := by
  rw [currencySpend] at committed
  split at committed
  · cases committed
  rcases found : accounts.lookup accountId with _ | account
  · rw [found] at committed
    cases committed
  rw [found] at committed
  rcases debit : account.debitCurrency amount isPremium with ⟨result, debited⟩
  simp only [debit] at committed
  rcases result with error | done
  · cases committed
  cases committed
  exact ⟨account, debited, rfl, debit, rfl⟩

theorem currencyTransfer_committed {fromAccount toAccount amount : UInt64} {isPremium : Bool}
    (committed : accounts.currencyTransfer token fromAccount toAccount amount isPremium =
      (.ok record, after)) :
    ∃ source debited target, fromAccount ≠ toAccount ∧ accounts.lookup fromAccount = some source ∧
      source.debitCurrency amount isPremium = (.ok (), debited) ∧
      accounts.lookup toAccount = some target ∧
      after = (accounts.insert fromAccount debited).insert toAccount
        (target.creditCurrency amount isPremium) := by
  rw [currencyTransfer] at committed
  split at committed
  · cases committed
  split at committed
  · cases committed
  rename_i apart
  rcases found : accounts.lookup fromAccount with _ | source
  · rw [found] at committed
    cases committed
  rw [found] at committed
  simp only at committed
  split at committed
  · cases committed
  split at committed
  · cases committed
  rcases debit : source.debitCurrency amount isPremium with ⟨result, debited⟩
  simp only [debit] at committed
  rcases result with error | done
  · cases committed
  simp only [Finmap.lookup_insert_of_ne accounts (Ne.symm apart)] at committed
  rcases targetFound : accounts.lookup toAccount with _ | target
  · rw [targetFound] at committed
    cases committed
  rw [targetFound] at committed
  cases committed
  exact ⟨source, debited, target, apart, rfl, debit, rfl, rfl⟩

theorem itemTransfer_committed {fromAccount toAccount : UInt64} {itemId quantity : UInt32}
    (committed : accounts.itemTransfer token fromAccount toAccount itemId quantity =
      (.ok record, after)) :
    ∃ source removed target grown, fromAccount ≠ toAccount ∧
      accounts.lookup fromAccount = some source ∧
      source.removeItem itemId quantity = (.ok (), removed) ∧
      accounts.lookup toAccount = some target ∧
      target.addItem itemId quantity = (.ok (), grown) ∧
      after = (accounts.insert fromAccount removed).insert toAccount grown := by
  rw [itemTransfer] at committed
  split at committed
  · cases committed
  split at committed
  · cases committed
  rename_i apart
  rcases found : accounts.lookup fromAccount with _ | source
  · rw [found] at committed
    cases committed
  rw [found] at committed
  simp only at committed
  split at committed
  · cases committed
  split at committed
  · cases committed
  rcases removal : source.removeItem itemId quantity with ⟨result, removed⟩
  simp only [removal] at committed
  rcases result with error | done
  · cases committed
  simp only [Finmap.lookup_insert_of_ne accounts (Ne.symm apart)] at committed
  rcases targetFound : accounts.lookup toAccount with _ | target
  · rw [targetFound] at committed
    cases committed
  rw [targetFound] at committed
  rcases addition : target.addItem itemId quantity with ⟨added, grown⟩
  simp only [addition] at committed
  rcases added with error | done
  · -- the rollback ends in an error whatever it finds
    revert committed
    dsimp only
    split <;> exact fun committed => by cases committed
  cases committed
  exact ⟨source, removed, target, grown, apart, rfl, removal, rfl, addition, rfl⟩

theorem equipItem_committed {inventorySlot equipSlot : UInt8}
    (committed : accounts.equipItem token accountId inventorySlot equipSlot = (.ok record, after)) :
    ∃ slot account changed, EquipmentSlot.fromU8 equipSlot = some slot ∧
      accounts.lookup accountId = some account ∧
      account.equipItem inventorySlot.toNat slot = (.ok (), changed) ∧
      after = accounts.insert accountId changed := by
  rw [equipItem] at committed
  split at committed
  · cases committed
  rcases named : EquipmentSlot.fromU8 equipSlot with _ | slot
  · rw [named] at committed
    cases committed
  rw [named] at committed
  rcases found : accounts.lookup accountId with _ | account
  · rw [found] at committed
    cases committed
  rw [found] at committed
  rcases equipped : account.equipItem inventorySlot.toNat slot with ⟨result, changed⟩
  simp only [equipped] at committed
  rcases result with error | done
  · cases committed
  cases committed
  exact ⟨slot, account, changed, rfl, rfl, equipped, rfl⟩

theorem unequipItem_committed {equipSlot : UInt8}
    (committed : accounts.unequipItem token accountId equipSlot = (.ok record, after)) :
    ∃ slot account itemId changed, EquipmentSlot.fromU8 equipSlot = some slot ∧
      accounts.lookup accountId = some account ∧
      account.unequipItem slot = (.ok itemId, changed) ∧
      after = accounts.insert accountId changed := by
  rw [unequipItem] at committed
  split at committed
  · cases committed
  rcases named : EquipmentSlot.fromU8 equipSlot with _ | slot
  · rw [named] at committed
    cases committed
  rw [named] at committed
  rcases found : accounts.lookup accountId with _ | account
  · rw [found] at committed
    cases committed
  rw [found] at committed
  rcases unequipped : account.unequipItem slot with ⟨result, changed⟩
  simp only [unequipped] at committed
  rcases result with error | itemId
  · cases committed
  cases committed
  exact ⟨slot, account, itemId, changed, rfl, rfl, unequipped, rfl⟩

theorem total_insert_insert (weight : AccountState → Nat) {first second : UInt64}
    {firstHeld firstNew secondHeld secondNew : AccountState} (apart : first ≠ second)
    (firstFound : accounts.lookup first = some firstHeld)
    (secondFound : accounts.lookup second = some secondHeld) :
    FiniteMap.total weight ((accounts.insert first firstNew).insert second secondNew) +
        weight firstHeld + weight secondHeld =
      FiniteMap.total weight accounts + weight firstNew + weight secondNew := by
  have secondAfter : (accounts.insert first firstNew).lookup second = some secondHeld := by
    rw [Finmap.lookup_insert_of_ne _ (Ne.symm apart)]
    exact secondFound
  have firstStep := FiniteMap.total_insert weight firstFound firstNew
  have secondStep := FiniteMap.total_insert weight secondAfter secondNew
  omega

end Accounts

/-- A call of `execute_transaction`. -/
structure TransactionCall where
  txId : UInt64
  op : TransactionOp
  callerSessionId : UInt64
  sourceToken : LockToken
  currentTick : UInt64

namespace TransactionManager

variable {cap : Nat}

def execute (manager : TransactionManager) (journal : WriteAheadJournal cap)
    (call : TransactionCall) :
    Except WorldError UInt64 × TransactionManager × WriteAheadJournal cap :=
  manager.executeTransaction call.txId call.op call.callerSessionId call.sourceToken
    call.currentTick journal

theorem mutate_of_committed {manager : TransactionManager} {journal : WriteAheadJournal cap}
    {call : TransactionCall} {lsn : UInt64}
    (committed : (manager.execute journal call).1 = .ok lsn) :
    ∃ record, manager.accounts.mutate call.sourceToken call.op =
      (.ok record, (manager.execute journal call).2.1.accounts) := by
  rcases manager.executeTransaction_cases call.txId call.op call.callerSessionId
    call.sourceToken call.currentTick journal with failed | executed
  · obtain ⟨error, accounts, result⟩ := failed
    rw [execute, result] at committed
    cases committed
  obtain ⟨record, accounts, number, appended, mutated, _, result⟩ := executed
  refine ⟨record, ?_⟩
  rw [execute, result]
  exact mutated

end TransactionManager

end Eidolon.World
