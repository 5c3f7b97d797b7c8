import Mathlib.Data.Finmap
import Eidolon.Core.Lock
import Eidolon.World.DurableJournal
import Eidolon.World.Equipment

/-!
# The transaction engine

Accounts with their currencies, inventory and equipment, and the manager that executes
an operation on them under a generation lock and logs it to the write-ahead journal.

An arm of `execute_transaction` ends in `journal.append`.  Each arm is a function of its
own here, up to that call: it returns the arguments of the call, or an error, together
with the accounts as it leaves them.
-/

namespace Eidolon.World

open Core Library

def maxInventorySlots : Nat := 64

def lockWallet : UInt32 := 0

def lockInventory : UInt32 := 1

structure InventoryItem where
  itemId : UInt32
  quantity : UInt32
  deriving DecidableEq

/-- Player account state. -/
structure AccountState where
  accountId : UInt64
  premiumCurrency : UInt64
  freeCurrency : UInt64
  inventory : SlotArray maxInventorySlots InventoryItem
  equipment : EquipmentContainer
  stateVersion : UInt64
  deriving DecidableEq

namespace AccountState

def new (accountId : UInt64) : AccountState where
  accountId := accountId
  premiumCurrency := 0
  freeCurrency := 0
  inventory := SlotArray.empty _ _
  equipment := EquipmentContainer.new
  stateVersion := 1

variable (account : AccountState)

def balance (isPremium : Bool) : UInt64 :=
  if isPremium then account.premiumCurrency else account.freeCurrency

def creditCurrency (amount : UInt64) (isPremium : Bool) :
    AccountState :=
  let credited :=
    if isPremium then
      { account with premiumCurrency := saturatingAdd64 account.premiumCurrency amount }
    else
      { account with freeCurrency := saturatingAdd64 account.freeCurrency amount }
  { credited with stateVersion := account.stateVersion + 1 }

def debitCurrency (amount : UInt64) (isPremium : Bool) : Except WorldError Unit × AccountState :=
  if isPremium then
    if account.premiumCurrency < amount then
      (.error (.insufficientBalance amount account.premiumCurrency), account)
    else
      (.ok (),
        { account with
          premiumCurrency := account.premiumCurrency - amount
          stateVersion := account.stateVersion + 1 })
  else
    if account.freeCurrency < amount then
      (.error (.insufficientBalance amount account.freeCurrency), account)
    else
      (.ok (),
        { account with
          freeCurrency := account.freeCurrency - amount
          stateVersion := account.stateVersion + 1 })

def findItem? (itemId : UInt32) : Option (Nat × InventoryItem) :=
  account.inventory.findFirst? fun item => decide (item.itemId = itemId)

def addItem (itemId quantity : UInt32) : Except WorldError Unit × AccountState :=
  match account.findItem? itemId with
  | some (index, item) =>
    let stacked := { item with quantity := saturatingAdd32 item.quantity quantity }
    (.ok (),
      { account with
        inventory := account.inventory.set index (some stacked)
        stateVersion := account.stateVersion + 1 })
  | none =>
    match account.inventory.firstEmpty? with
    | some index =>
      let stack : InventoryItem := { itemId := itemId, quantity := quantity }
      (.ok (),
        { account with
          inventory := account.inventory.set index (some stack)
          stateVersion := account.stateVersion + 1 })
    | none => (.error (.transactionAborted "Inventory is full"), account)

def removeItem (itemId quantity : UInt32) : Except WorldError Unit × AccountState :=
  match account.findItem? itemId with
  | some (index, item) =>
    if item.quantity < quantity then
      (.error (.insufficientBalance quantity.toUInt64 item.quantity.toUInt64), account)
    else
      let left := { item with quantity := item.quantity - quantity }
      (.ok (),
        { account with
          inventory :=
            account.inventory.set index (if left.quantity = 0 then none else some left)
          stateVersion := account.stateVersion + 1 })
  | none => (.error (.itemNotFound itemId), account)

def equipItem (inventorySlotIdx : Nat) (slot : EquipmentSlot) :
    Except WorldError Unit × AccountState :=
  if maxInventorySlots ≤ inventorySlotIdx then
    (.error (.transactionAborted "Invalid inventory slot"), account)
  else
    match account.inventory.get? inventorySlotIdx with
    | none => (.error (.transactionAborted "No item in inventory slot"), account)
    | some item =>
      match account.equipment.equip slot item.itemId with
      | (.error error, equipment) => (.error error, { account with equipment := equipment })
      | (.ok previous, equipment) =>
        (.ok (),
          { account with
            equipment := equipment
            inventory :=
              account.inventory.set inventorySlotIdx
                (previous.map fun previousId => { itemId := previousId, quantity := 1 })
            stateVersion := account.stateVersion + 1 })

def unequipItem (slot : EquipmentSlot) : Except WorldError UInt32 × AccountState :=
  match account.equipment.unequip slot with
  | (none, equipment) =>
    (.error (.transactionAborted "No item equipped in slot"),
      { account with equipment := equipment })
  | (some itemId, equipment) =>
    match { account with equipment := equipment }.addItem itemId 1 with
    | (.error error, account) =>
      -- the result of the attempt to equip the item again is not looked at
      let (_, equipment) := account.equipment.equip slot itemId
      (.error error, { account with equipment := equipment })
    | (.ok (), account) => (.ok itemId, { account with stateVersion := account.stateVersion + 1 })

end AccountState

inductive TransactionOp where
  | currencyTransfer (fromAccount toAccount amount : UInt64) (isPremium : Bool)
  | currencySpend (accountId amount : UInt64) (isPremium : Bool)
  | itemTransfer (fromAccount toAccount : UInt64) (itemId quantity : UInt32)
  | equipItem (accountId : UInt64) (inventorySlot equipSlot : UInt8)
  | unequipItem (accountId : UInt64) (equipSlot : UInt8)
  deriving DecidableEq

inductive TransactionStatus where
  | committed (lsn : UInt64)
  | aborted
  deriving DecidableEq

abbrev Accounts := Finmap fun _ : UInt64 => AccountState

/-- The arguments of the `journal.append` that ends an arm; the entity is always 0. -/
structure MutationRecord where
  accountId : UInt64
  opcode : UInt8
  payload : List UInt8
  payload_short : payload.length ≤ maxWalPayloadLen

namespace Accounts

variable (accounts : Accounts) (token : LockToken)

def currencySpend (accountId amount : UInt64) (isPremium : Bool) :
    Except WorldError MutationRecord × Accounts :=
  if token.accountId ≠ accountId ∨ token.lockId ≠ lockWallet then
    (.error (.transactionAborted "Invalid wallet lock token"), accounts)
  else
    match accounts.lookup accountId with
    | none => (.error (.transactionAborted "Account not found"), accounts)
    | some account =>
      match account.debitCurrency amount isPremium with
      | (.error error, account) => (.error error, accounts.insert accountId account)
      | (.ok (), account) =>
        (.ok
          { accountId := accountId
            opcode := opCurrencyDelta
            payload := bigEndian 8 amount.toNat ++ [if isPremium then 1 else 0, 0]
            payload_short := by simp [maxWalPayloadLen] },
          accounts.insert accountId account)

def currencyTransfer (fromAccount toAccount amount : UInt64) (isPremium : Bool) :
    Except WorldError MutationRecord × Accounts :=
  if token.accountId ≠ fromAccount ∨ token.lockId ≠ lockWallet then
    (.error (.transactionAborted "Invalid wallet lock token"), accounts)
  else if fromAccount = toAccount then
    (.error (.transactionAborted "Cannot transfer to self"), accounts)
  else
    match accounts.lookup fromAccount with
    | none => (.error (.transactionAborted "Source account not found"), accounts)
    | some source =>
      if source.balance isPremium < amount then
        (.error (.insufficientBalance amount (source.balance isPremium)), accounts)
      else if toAccount ∉ accounts then
        (.error (.transactionAborted "Target account not registered"), accounts)
      else
        match source.debitCurrency amount isPremium with
        | (.error error, source) => (.error error, accounts.insert fromAccount source)
        | (.ok (), source) =>
          let accounts := accounts.insert fromAccount source
          match accounts.lookup toAccount with
          | none => (.error (.transactionAborted "Target account not registered"), accounts)
          | some target =>
            (.ok
              { accountId := fromAccount
                opcode := opCurrencyDelta
                payload :=
                  bigEndian 8 toAccount.toNat ++ bigEndian 8 amount.toNat ++
                    [if isPremium then 1 else 0]
                payload_short := by simp [maxWalPayloadLen] },
              accounts.insert toAccount (target.creditCurrency amount isPremium))

def itemTransfer (fromAccount toAccount : UInt64) (itemId quantity : UInt32) :
    Except WorldError MutationRecord × Accounts :=
  if token.accountId ≠ fromAccount ∨ token.lockId ≠ lockInventory then
    (.error (.transactionAborted "Invalid inventory lock token"), accounts)
  else if fromAccount = toAccount then
    (.error (.transactionAborted "Cannot transfer to self"), accounts)
  else
    match accounts.lookup fromAccount with
    | none => (.error (.transactionAborted "Source account not found"), accounts)
    | some source =>
      let hasItem := source.inventory.entries.any fun item =>
        decide (item.itemId = itemId) && decide (quantity ≤ item.quantity)
      if !hasItem then
        (.error (.itemNotFound itemId), accounts)
      else if toAccount ∉ accounts then
        (.error (.transactionAborted "Target account not registered"), accounts)
      else
        match source.removeItem itemId quantity with
        | (.error error, source) => (.error error, accounts.insert fromAccount source)
        | (.ok (), source) =>
          let accounts := accounts.insert fromAccount source
          match accounts.lookup toAccount with
          | none => (.error (.transactionAborted "Target account not registered"), accounts)
          | some target =>
            match target.addItem itemId quantity with
            | (.error error, target) =>
              let accounts := accounts.insert toAccount target
              match accounts.lookup fromAccount with
              | none => (.error error, accounts)
              | some source =>
                let (_, source) := source.addItem itemId quantity
                (.error error, accounts.insert fromAccount source)
            | (.ok (), target) =>
              (.ok
                { accountId := fromAccount
                  opcode := opInventoryMutation
                  payload :=
                    bigEndian 8 toAccount.toNat ++ bigEndian 4 itemId.toNat ++
                      bigEndian 4 quantity.toNat
                  payload_short := by simp [maxWalPayloadLen] },
                accounts.insert toAccount target)

def equipItem (accounts : Accounts) (token : LockToken) (accountId : UInt64)
    (inventorySlot equipSlot : UInt8) : Except WorldError MutationRecord × Accounts :=
  if token.accountId ≠ accountId ∨ token.lockId ≠ lockInventory then
    (.error (.transactionAborted "Invalid inventory lock token"), accounts)
  else
    match EquipmentSlot.fromU8 equipSlot with
    | none => (.error (.transactionAborted "Invalid equipment slot"), accounts)
    | some slot =>
      match accounts.lookup accountId with
      | none => (.error (.transactionAborted "Account not found"), accounts)
      | some account =>
        match account.equipItem inventorySlot.toNat slot with
        | (.error error, account) => (.error error, accounts.insert accountId account)
        | (.ok (), account) =>
          (.ok
            { accountId := accountId
              opcode := opInventoryMutation
              payload := [1, inventorySlot, equipSlot]
              payload_short := by simp [maxWalPayloadLen] },
            accounts.insert accountId account)

def unequipItem (accounts : Accounts) (token : LockToken) (accountId : UInt64)
    (equipSlot : UInt8) : Except WorldError MutationRecord × Accounts :=
  if token.accountId ≠ accountId ∨ token.lockId ≠ lockInventory then
    (.error (.transactionAborted "Invalid inventory lock token"), accounts)
  else
    match EquipmentSlot.fromU8 equipSlot with
    | none => (.error (.transactionAborted "Invalid equipment slot"), accounts)
    | some slot =>
      match accounts.lookup accountId with
      | none => (.error (.transactionAborted "Account not found"), accounts)
      | some account =>
        match account.unequipItem slot with
        | (.error error, account) => (.error error, accounts.insert accountId account)
        | (.ok itemId, account) =>
          (.ok
            { accountId := accountId
              opcode := opInventoryMutation
              payload := [2, equipSlot] ++ bigEndian 4 itemId.toNat
              payload_short := by simp [maxWalPayloadLen] },
            accounts.insert accountId account)

def mutate (accounts : Accounts) (token : LockToken) :
    TransactionOp → Except WorldError MutationRecord × Accounts
  | .currencySpend accountId amount isPremium =>
    accounts.currencySpend token accountId amount isPremium
  | .currencyTransfer fromAccount toAccount amount isPremium =>
    accounts.currencyTransfer token fromAccount toAccount amount isPremium
  | .itemTransfer fromAccount toAccount itemId quantity =>
    accounts.itemTransfer token fromAccount toAccount itemId quantity
  | .equipItem accountId inventorySlot equipSlot =>
    accounts.equipItem token accountId inventorySlot equipSlot
  | .unequipItem accountId equipSlot => accounts.unequipItem token accountId equipSlot

end Accounts

structure TransactionManager where
  lockRegistry : GenerationLockRegistry maxTrackedLocks
  accounts : Accounts
  executedTxs : Finmap fun _ : UInt64 => TransactionStatus

namespace TransactionManager

variable {cap : Nat}

def new : TransactionManager where
  lockRegistry := GenerationLockRegistry.new maxTrackedLocks
  accounts := ∅
  executedTxs := ∅

variable (manager : TransactionManager)

def registerAccount (state : AccountState) :
    TransactionManager :=
  { manager with accounts := manager.accounts.insert state.accountId state }

def acquireLock (manager : TransactionManager) (accountId : UInt64) (lockId : UInt32)
    (sessionId currentTick : UInt64) (leaseDurationTicks : UInt32) (forceTakeover : Bool) :
    Except LockError LockToken × TransactionManager :=
  let (result, lockRegistry) :=
    manager.lockRegistry.acquireLock accountId lockId sessionId currentTick
      leaseDurationTicks forceTakeover
  (result, { manager with lockRegistry := lockRegistry })

def staleSession (callerSessionId : UInt64) : LockError → WorldError
  | .sessionMismatch expected actual => .staleSessionMutation expected actual
  | .staleGeneration expected actual => .staleSessionMutation expected actual
  | _ => .staleSessionMutation 0 callerSessionId

variable (txId : UInt64) (op : TransactionOp) (callerSessionId : UInt64) (sourceToken : LockToken)

variable (currentTick : UInt64)

variable (journal : WriteAheadJournal cap)

def executeTransaction : Except WorldError UInt64 × TransactionManager × WriteAheadJournal cap :=
  if txId ∈ manager.executedTxs then
    (.error (.duplicateTransaction txId), manager, journal)
  else
    match manager.lockRegistry.validateMutation sourceToken callerSessionId currentTick with
    | .error error => (.error (staleSession callerSessionId error), manager, journal)
    | .ok () =>
      match manager.accounts.mutate sourceToken op with
      | (.error error, accounts) => (.error error, { manager with accounts := accounts }, journal)
      | (.ok record, accounts) =>
        match journal.append currentTick record.accountId 0 record.opcode record.payload with
        | (.error error, journal) => (.error error, { manager with accounts := accounts }, journal)
        | (.ok lsn, journal) =>
          (.ok lsn,
            { manager with
              accounts := accounts
              executedTxs := manager.executedTxs.insert txId (.committed lsn) },
            journal)

/-- A transaction fails with executed transactions and journal as they were, or it has
appended one record and is executed under that record's number. -/
theorem executeTransaction_cases : (∃ error accounts,
      manager.executeTransaction txId op callerSessionId sourceToken currentTick journal =
        (.error error, { manager with accounts := accounts }, journal)) ∨
    ∃ record accounts lsn appended,
      manager.accounts.mutate sourceToken op = (.ok record, accounts) ∧
      journal.append currentTick record.accountId 0 record.opcode record.payload =
        (.ok lsn, appended) ∧
      manager.executeTransaction txId op callerSessionId sourceToken currentTick journal = (.ok lsn,
          { manager with
            accounts := accounts
            executedTxs := manager.executedTxs.insert txId (.committed lsn) },
          appended) := by
  by_cases duplicate : txId ∈ manager.executedTxs
  · exact Or.inl ⟨.duplicateTransaction txId, manager.accounts, by
      simp only [executeTransaction, if_pos duplicate]⟩
  cases validated :
      manager.lockRegistry.validateMutation sourceToken callerSessionId currentTick with
  | error error =>
    exact Or.inl ⟨staleSession callerSessionId error, manager.accounts, by
      simp only [executeTransaction, if_neg duplicate, validated]⟩
  | ok permitted =>
    rcases mutated : manager.accounts.mutate sourceToken op with ⟨result, accounts⟩
    rcases result with error | record
    · exact Or.inl ⟨error, accounts, by
        simp only [executeTransaction, if_neg duplicate, validated, mutated]⟩
    rcases journal.append_cases currentTick record.accountId 0 record.opcode
      record.payload with ⟨error, failed⟩ | ⟨entry, appended, succeeded, _⟩
    · exact Or.inl ⟨error, accounts, by
        simp only [executeTransaction, if_neg duplicate, validated, mutated, failed]⟩
    exact Or.inr ⟨record, accounts, _, appended, rfl, succeeded, by
      simp only [executeTransaction, if_neg duplicate, validated, mutated, succeeded]⟩

def isTransactionDurable : Bool :=
  match manager.executedTxs.lookup txId with
  | some (.committed lsn) => journal.isFlushed lsn
  | _ => false

def executeTransactionWithDurability (durability : CommitDurability) (answers : SinkAnswers) :
    Except WorldError UInt64 × TransactionManager × WriteAheadJournal cap :=
  match manager.executeTransaction txId op callerSessionId sourceToken currentTick journal with
  | (.error error, manager, journal) => (.error error, manager, journal)
  | (.ok lsn, manager, journal) =>
    match durability with
    | .inMemoryBuffered => (.ok lsn, manager, journal)
    | .localDiskFsync | .distributedQuorum =>
      match journal.flushPending answers with
      | (.error error, journal) => (.error error, manager, journal)
      | (.ok _, journal) => (.ok lsn, manager, journal)

end TransactionManager

end Eidolon.World
