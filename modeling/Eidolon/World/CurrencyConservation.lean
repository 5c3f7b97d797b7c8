import Eidolon.Library.Run
import Eidolon.World.TransactionCommits

/-!
# Conservation of currency

The coins of all accounts and the coins that were spent should add up to the coins there were
in the beginning.  Debits are exact and credits stop at the largest balance, so this holds as
long as every transfer fits in the balance that it goes to.
-/

namespace Eidolon.World

open Core Library

namespace AccountState

variable {account : AccountState}

def coins (isPremium : Bool) (account : AccountState) : Nat :=
  (account.balance isPremium).toNat

theorem coins_of_debitCurrency {debited : AccountState} {amount : UInt64} {isPremium : Bool}
    (debit : account.debitCurrency amount isPremium = (.ok (), debited)) (currency : Bool) :
    debited.coins currency + (if currency = isPremium then amount.toNat else 0) =
      account.coins currency := by
  have exact_sub : ∀ balance : UInt64, ¬ balance < amount →
      (balance - amount).toNat + amount.toNat = balance.toNat := by
    intro balance enough
    have covered : amount.toNat ≤ balance.toNat :=
      UInt64.le_iff_toNat_le.mp (UInt64.not_lt.mp enough)
    rw [UInt64.toNat_sub_of_le _ _ (UInt64.not_lt.mp enough)]
    omega
  cases isPremium with
  | true =>
    rw [debitCurrency, if_pos rfl] at debit
    split at debit
    · cases debit
    rename_i enough
    cases debit
    cases currency with
    | true => exact exact_sub account.premiumCurrency enough
    | false => rfl
  | false =>
    rw [debitCurrency, if_neg Bool.false_ne_true] at debit
    split at debit
    · cases debit
    rename_i enough
    cases debit
    cases currency with
    | true => rfl
    | false => exact exact_sub account.freeCurrency enough

theorem coins_creditCurrency (amount : UInt64) (isPremium currency : Bool) :
    (account.creditCurrency amount isPremium).coins currency =
      if currency = isPremium then min (account.coins currency + amount.toNat) (2 ^ 64 - 1)
      else account.coins currency := by
  cases isPremium with
  | true =>
    cases currency with
    | true => exact toNat_saturatingAdd64 account.premiumCurrency amount
    | false => rfl
  | false =>
    cases currency with
    | true => rfl
    | false => exact toNat_saturatingAdd64 account.freeCurrency amount

theorem coins_addItem (itemId quantity : UInt32) (currency : Bool) :
    (account.addItem itemId quantity).2.coins currency = account.coins currency := by
  rw [addItem]
  split
  · rfl
  split <;> rfl

theorem coins_removeItem (itemId quantity : UInt32) (currency : Bool) :
    (account.removeItem itemId quantity).2.coins currency = account.coins currency := by
  rw [removeItem]
  split
  · split <;> rfl
  rfl

theorem coins_equipItem (index : Nat) (slot : EquipmentSlot) (currency : Bool) :
    (account.equipItem index slot).2.coins currency = account.coins currency := by
  rw [equipItem]
  split
  · rfl
  split
  · rfl
  split <;> rfl

theorem coins_unequipItem (slot : EquipmentSlot) (currency : Bool) :
    (account.unequipItem slot).2.coins currency = account.coins currency := by
  rw [unequipItem]
  split
  · rfl
  rename_i itemId equipment taken
  have kept := @coins_addItem { account with equipment := equipment } itemId 1 currency
  rcases added : ({ account with equipment := equipment } : AccountState).addItem itemId 1 with
    ⟨result, grown⟩
  rw [added] at kept
  cases result with
  | _ => exact kept

end AccountState

namespace Accounts

def coins (currency : Bool) (accounts : Accounts) : Nat :=
  FiniteMap.total (AccountState.coins currency) accounts

variable {accounts after : Accounts} {token : LockToken} {record : MutationRecord}

theorem coins_insert_of_same {accountId : UInt64} {held new : AccountState} (currency : Bool)
    (found : accounts.lookup accountId = some held) (same : new.coins currency = held.coins currency) :
    Accounts.coins currency (accounts.insert accountId new) = accounts.coins currency := by
  have written := FiniteMap.total_insert (AccountState.coins currency) found new
  rw [same] at written
  exact Nat.add_right_cancel written

end Accounts

def TransactionOp.spends (op : TransactionOp) (currency : Bool) : Nat :=
  match op with
  | .currencySpend _ amount isPremium => if currency = isPremium then amount.toNat else 0
  | _ => 0

def CreditFits (accounts : Accounts) (op : TransactionOp) : Prop :=
  match op with
  | .currencyTransfer _ toAccount amount isPremium =>
    ∀ target, accounts.lookup toAccount = some target →
      target.coins isPremium + amount.toNat < 2 ^ 64
  | _ => True

def lostCoins (accounts : Accounts) (op : TransactionOp) (currency : Bool) : Nat :=
  match op with
  | .currencyTransfer _ toAccount amount isPremium =>
    match accounts.lookup toAccount with
    | none => 0
    | some target =>
      if currency = isPremium then
        target.coins isPremium + amount.toNat - (2 ^ 64 - 1)
      else 0
  | _ => 0

theorem lostCoins_eq_zero_iff {accounts : Accounts} {op : TransactionOp} :
    (∀ currency, lostCoins accounts op currency = 0) ↔ CreditFits accounts op := by
  cases op with
  | currencyTransfer fromAccount toAccount amount isPremium =>
    rw [CreditFits]
    simp only [lostCoins]
    rcases found : accounts.lookup toAccount with _ | target
    · exact iff_of_true (fun _ => rfl) (fun target here => by cases here)
    constructor
    · intro nothing other here
      cases here
      have noLoss := nothing isPremium
      dsimp only at noLoss
      rw [if_pos rfl] at noLoss
      omega
    intro fits currency
    have room := fits target rfl
    dsimp only
    split
    · omega
    rfl
  | _ => exact iff_of_true (fun _ => rfl) trivial

namespace Accounts

variable {accounts after : Accounts} {token : LockToken} {record : MutationRecord}

theorem coins_currencyTransfer {fromAccount toAccount amount : UInt64} {isPremium : Bool}
    (committed : accounts.currencyTransfer token fromAccount toAccount amount isPremium =
      (.ok record, after)) (currency : Bool) :
    after.coins currency +
        lostCoins accounts (.currencyTransfer fromAccount toAccount amount isPremium) currency =
      accounts.coins currency := by
  obtain ⟨source, debited, target, apart, found, debit, targetFound, rfl⟩ :=
    currencyTransfer_committed committed
  have written := @total_insert_insert _ (AccountState.coins currency) _ _ _ debited _
    (target.creditCurrency amount isPremium) apart found targetFound
  have debitedCoins := AccountState.coins_of_debitCurrency debit currency
  have creditedCoins := @AccountState.coins_creditCurrency target amount isPremium currency
  simp only [lostCoins, targetFound]
  rw [coins, coins]
  by_cases same : currency = isPremium
  · subst same
    rw [if_pos rfl] at debitedCoins creditedCoins ⊢
    omega
  rw [if_neg same] at debitedCoins creditedCoins ⊢
  omega

theorem coins_itemTransfer {fromAccount toAccount : UInt64} {itemId quantity : UInt32}
    (committed : accounts.itemTransfer token fromAccount toAccount itemId quantity =
      (.ok record, after)) (currency : Bool) :
    after.coins currency = accounts.coins currency := by
  obtain ⟨source, removed, target, grown, apart, found, removal, targetFound, addition, rfl⟩ :=
    itemTransfer_committed committed
  have written := @total_insert_insert _ (AccountState.coins currency) _ _ _ removed _ grown
    apart found targetFound
  have removedCoins := @AccountState.coins_removeItem source itemId quantity currency
  have grownCoins := @AccountState.coins_addItem target itemId quantity currency
  rw [removal] at removedCoins
  rw [addition] at grownCoins
  dsimp only at removedCoins grownCoins
  rw [coins, coins]
  omega

theorem coins_of_committed {op : TransactionOp}
    (committed : accounts.mutate token op = (.ok record, after)) (currency : Bool) :
    after.coins currency + op.spends currency + lostCoins accounts op currency =
      accounts.coins currency := by
  cases op with
  | currencySpend accountId amount isPremium =>
    obtain ⟨account, debited, found, debit, rfl⟩ := currencySpend_committed committed
    have written := FiniteMap.total_insert (AccountState.coins currency) found debited
    have debitedCoins := AccountState.coins_of_debitCurrency debit currency
    simp only [TransactionOp.spends, lostCoins, coins]
    omega
  | currencyTransfer fromAccount toAccount amount isPremium =>
    exact coins_currencyTransfer committed currency
  | itemTransfer fromAccount toAccount itemId quantity =>
    exact coins_itemTransfer committed currency
  | equipItem accountId inventorySlot equipSlot =>
    obtain ⟨slot, account, changed, _, found, equipped, rfl⟩ := equipItem_committed committed
    have same := @AccountState.coins_equipItem account inventorySlot.toNat slot currency
    rw [equipped] at same
    exact coins_insert_of_same currency found same
  | unequipItem accountId equipSlot =>
    obtain ⟨slot, account, itemId, changed, _, found, unequipped, rfl⟩ :=
      unequipItem_committed committed
    have same := @AccountState.coins_unequipItem account slot currency
    rw [unequipped] at same
    exact coins_insert_of_same currency found same

end Accounts

structure Ledger (cap : Nat) where
  manager : TransactionManager
  journal : WriteAheadJournal cap
  spent : Bool → Nat

namespace Ledger

variable {cap : Nat}

def start (manager : TransactionManager) (journal : WriteAheadJournal cap) : Ledger cap where
  manager := manager
  journal := journal
  spent := fun _ => 0

variable (ledger : Ledger cap) (call : TransactionCall)

def step : Ledger cap where
  manager := (ledger.manager.execute ledger.journal call).2.1
  journal := (ledger.manager.execute ledger.journal call).2.2
  spent := fun currency => ledger.spent currency + call.op.spends currency

/-- The call returns the number of its record. -/
def Commits : Prop :=
  ∃ lsn, (ledger.manager.execute ledger.journal call).1 = .ok lsn

/-- The coins that are left and those that were spent are the coins of the beginning. -/
def Accounted (coins : Bool → Nat) (ledger : Ledger cap) : Prop :=
  ∀ currency, ledger.manager.accounts.coins currency + ledger.spent currency = coins currency

/-- The call does not bring a balance over the largest one. -/
def CallFits : Prop :=
  CreditFits ledger.manager.accounts call.op

theorem accounted_step_iff {coins : Bool → Nat} {ledger : Ledger cap} {call : TransactionCall}
    (commits : ledger.Commits call) (accounted : ledger.Accounted coins) :
    (ledger.step call).Accounted coins ↔ ledger.CallFits call := by
  obtain ⟨lsn, committed⟩ := commits
  obtain ⟨record, mutated⟩ := TransactionManager.mutate_of_committed committed
  rw [CallFits, ← lostCoins_eq_zero_iff]
  have changed := Accounts.coins_of_committed mutated
  constructor
  · intro accountedAfter currency
    have before := accounted currency
    have after := accountedAfter currency
    have moved := changed currency
    simp only [step] at after
    omega
  intro nothing currency
  have before := accounted currency
  have moved := changed currency
  have lost := nothing currency
  simp only [step]
  omega

/-- In a run of calls that commit, the coins are accounted for throughout exactly if every
transfer fits in the balance that it goes to. -/
theorem currency_conserved_iff (manager : TransactionManager) (journal : WriteAheadJournal cap)
    (calls : List TransactionCall)
    (commits : EachStep step Commits (start manager journal) calls) :
    Throughout step (Accounted fun currency => manager.accounts.coins currency)
        (start manager journal) calls ↔
      EachStep step CallFits (start manager journal) calls := by
  have noInvariant : ∀ (ledger : Ledger cap) call, True → ledger.Commits call → True :=
    fun _ _ _ _ => trivial
  have exactly : ∀ (ledger : Ledger cap) call, True → ledger.Commits call →
      ledger.Accounted (fun currency => manager.accounts.coins currency) →
        ((ledger.step call).Accounted (fun currency => manager.accounts.coins currency) ↔
          ledger.CallFits call) :=
    fun _ _ _ committed accounted => accounted_step_iff committed accounted
  exact throughout_iff_eachStep_of_assumed noInvariant exactly trivial (fun _ => rfl) commits

private def payerAndPayee (payeeBalance : UInt64) : TransactionManager :=
  (((TransactionManager.new.registerAccount
    { AccountState.new 1001 with premiumCurrency := 1000 }).registerAccount
    { AccountState.new 2002 with premiumCurrency := payeeBalance }).acquireLock
      1001 lockWallet 555 10 50 false).2

private def payerCall (txId : UInt64) (op : TransactionOp) : TransactionCall where
  txId := txId
  op := op
  callerSessionId := 555
  sourceToken := ⟨1001, lockWallet, 1, 555, 10, 50⟩
  currentTick := 12

private def spend : TransactionCall :=
  payerCall 1 (.currencySpend 1001 100 true)

private def transfer : TransactionCall :=
  payerCall 2 (.currencyTransfer 1001 2002 200 true)

theorem currency_conserved_iff_spend_transfer :
    Throughout step (Accounted fun currency => (payerAndPayee 50).accounts.coins currency)
      (start (payerAndPayee 50) (WriteAheadJournal.new 4)) [spend, transfer] := by
  refine (currency_conserved_iff _ _ _ ?_).mpr ?_
  · exact ⟨⟨1, by decide +kernel⟩, ⟨2, by decide +kernel⟩, trivial⟩
  refine ⟨trivial, ?_, trivial⟩
  intro target found
  have payee : (((start (payerAndPayee 50) (WriteAheadJournal.new 4)).step
      spend).manager.accounts.lookup 2002).map (AccountState.coins true) = some 50 := by
    decide +kernel
  rw [found, Option.map_some, Option.some.injEq] at payee
  rw [payee]
  decide

/-- A payee with the largest balance does not get what the payer loses. -/
theorem not_currency_conserved_full_balance :
    ¬ ∀ (cap : Nat) (manager : TransactionManager) (journal : WriteAheadJournal cap)
      (calls : List TransactionCall), EachStep step Commits (start manager journal) calls →
        Throughout step (Accounted fun currency => manager.accounts.coins currency)
          (start manager journal) calls := by
  intro always
  have accounted := (always 4 (payerAndPayee (UInt64.ofNat (2 ^ 64 - 1)))
    (WriteAheadJournal.new 4) [transfer] ⟨⟨1, by decide +kernel⟩, trivial⟩).run true
  revert accounted
  decide +kernel

end Ledger

end Eidolon.World
