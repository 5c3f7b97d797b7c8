import Eidolon.Core.OrderBook

/-!
# Market escrow

What a coordinator keeps locked for the orders of a book: currency for bids, items for
asks.  An order is funded before it is matched, and its trades are settled afterwards.
-/

namespace Eidolon.World

open Core.Market Library

def maxEscrowOrders : Nat := 256

structure MarketStation where
  stationId : UInt32
  salesTaxBps : UInt16
  deriving DecidableEq

structure EscrowHolding where
  orderId : UInt64
  accountId : UInt64
  isCurrency : Bool
  lockedCurrency : UInt64
  lockedItemId : UInt64
  lockedQuantity : UInt32
  stationId : UInt32
  deriving DecidableEq

namespace EscrowHolding

def lessCurrency (deduction : UInt64) (holding : EscrowHolding) : EscrowHolding :=
  { holding with lockedCurrency := saturatingSub64 holding.lockedCurrency deduction }

def lessItems (quantity : UInt32) (holding : EscrowHolding) : EscrowHolding :=
  { holding with lockedQuantity := saturatingSub32 holding.lockedQuantity quantity }

def isSpent (holding : EscrowHolding) : Bool :=
  if holding.isCurrency then holding.lockedCurrency == 0 else holding.lockedQuantity == 0

end EscrowHolding

inductive EscrowError where
  | escrowCapacityExceeded
  | marketFailure (failure : MarketError)
  deriving DecidableEq

structure MarketEscrowCoordinator where
  stations : SlotArray 16 MarketStation
  holdings : SlotArray maxEscrowOrders EscrowHolding
  holdingCount : Nat
  totalTaxRevenue : UInt64
  totalVolumeSettled : UInt64

namespace MarketEscrowCoordinator

def new (stations : SlotArray 16 MarketStation) : MarketEscrowCoordinator where
  stations := stations
  holdings := SlotArray.empty _ _
  holdingCount := 0
  totalTaxRevenue := 0
  totalVolumeSettled := 0

variable (escrow : MarketEscrowCoordinator)

def getStation (stationId : UInt32) : Option MarketStation :=
  escrow.stations.entries.find? (·.stationId == stationId)

def lockHolding (holding : EscrowHolding) : Except EscrowError MarketEscrowCoordinator :=
  if escrow.holdingCount ≥ maxEscrowOrders then
    .error .escrowCapacityExceeded
  else
    match escrow.holdings.fillFirst? holding with
    | some holdings =>
      .ok { escrow with holdings := holdings, holdingCount := escrow.holdingCount + 1 }
    | none => .error .escrowCapacityExceeded

variable (orderId : UInt64)

def lockBuyEscrow (accountId : UInt64) (totalEscrowCurrency : UInt64) (stationId : UInt32) :
    Except EscrowError MarketEscrowCoordinator :=
  escrow.lockHolding
    { orderId := orderId
      accountId := accountId
      isCurrency := true
      lockedCurrency := totalEscrowCurrency
      lockedItemId := 0
      lockedQuantity := 0
      stationId := stationId }

def lockSellEscrow (accountId itemId : UInt64) (quantity stationId : UInt32) :
    Except EscrowError MarketEscrowCoordinator :=
  escrow.lockHolding
    { orderId := orderId
      accountId := accountId
      isCurrency := false
      lockedCurrency := 0
      lockedItemId := itemId
      lockedQuantity := quantity
      stationId := stationId }

def reduceHolding (isCurrency : Bool) (reduce : EscrowHolding → EscrowHolding) :
    MarketEscrowCoordinator :=
  match escrow.holdings.findFirst? fun holding =>
      holding.orderId == orderId && holding.isCurrency == isCurrency with
  | none => escrow
  | some (index, holding) =>
    if (reduce holding).isSpent then
      { escrow with
        holdings := escrow.holdings.set index none
        holdingCount := escrow.holdingCount - 1 }
    else
      { escrow with holdings := escrow.holdings.set index (some (reduce holding)) }

def deductCurrency (deduction : UInt64) :
    MarketEscrowCoordinator :=
  escrow.reduceHolding orderId true (EscrowHolding.lessCurrency deduction)

def deductItems (quantity : UInt32) :
    MarketEscrowCoordinator :=
  escrow.reduceHolding orderId false (EscrowHolding.lessItems quantity)

structure Settlement where
  netSellerPayout : UInt64
  taxCollected : UInt64
  buyerRefund : UInt64
  deriving DecidableEq

def settleTrade (trade : TradeExecution) (buyerLimitPrice : UInt64) :
    Settlement × MarketEscrowCoordinator :=
  let taxBps :=
    match escrow.getStation trade.stationId with
    | some station => station.salesTaxBps.toUInt64
    | none => 100
  let taxCollected := saturatingMul64 trade.totalPrice taxBps / 10000
  let buyerUnitSavings := saturatingSub64 buyerLimitPrice trade.unitPrice
  let settled :=
    (escrow.deductCurrency trade.buyOrderId
      (saturatingMul64 trade.quantity.toUInt64 buyerLimitPrice)).deductItems
        trade.sellOrderId trade.quantity
  ({ netSellerPayout := saturatingSub64 trade.totalPrice taxCollected
     taxCollected := taxCollected
     buyerRefund := saturatingMul64 trade.quantity.toUInt64 buyerUnitSavings },
    { settled with
      totalTaxRevenue := saturatingAdd64 settled.totalTaxRevenue taxCollected
      totalVolumeSettled := saturatingAdd64 settled.totalVolumeSettled trade.totalPrice })

variable (order : MarketOrder)

def buyerLimit (trade : TradeExecution) : UInt64 :=
  if order.isBuy then order.unitPrice else trade.unitPrice

def settleTrades (trades : List TradeExecution) : MarketEscrowCoordinator :=
  trades.foldl (fun escrow trade => (escrow.settleTrade trade (buyerLimit order trade)).2) escrow

def fundOrder : Except EscrowError MarketEscrowCoordinator :=
  if order.orderType = .limit then
    if order.isBuy then
      escrow.lockBuyEscrow order.orderId order.accountId
        (saturatingMul64 order.initialQuantity.toUInt64 order.unitPrice) order.stationId
    else
      escrow.lockSellEscrow order.orderId order.accountId order.itemTypeId.toUInt64
        order.initialQuantity order.stationId
  else
    .ok escrow

structure SubmitOutcome where
  result : Except EscrowError (Nat × MarketOrder)
  escrow : MarketEscrowCoordinator
  book : OrderBook

def submitAndMatch (book : OrderBook) (tradesLen : Nat) (currentTick : UInt64) : SubmitOutcome :=
  match escrow.fundOrder order with
  | .error error => ⟨.error error, escrow, book⟩
  | .ok funded =>
    let placed := book.placeOrder order tradesLen currentTick
    match placed.result with
    | .error failure => ⟨.error (.marketFailure failure), funded, placed.book⟩
    | .ok (tradeCount, finalOrder) =>
      ⟨.ok (tradeCount, finalOrder),
        funded.settleTrades order (placed.tradesOut.take tradeCount), placed.book⟩

end MarketEscrowCoordinator

end Eidolon.World

/-!
## How a settlement splits what the buyer had locked

The price goes to the seller and to the station, and the rest of the limit back to the
buyer.  Nothing is created or lost, unless the tax exceeds the price, which happens only
above a rate of one, or the refund passes the largest amount.
-/

namespace Eidolon.World

open Core.Market Library

def maxCurrency : Nat := 2 ^ 64 - 1

/-- By how much the tax at a rate exceeds the price it is taken from. -/
def excessTax (price taxBps : Nat) : Nat :=
  min (price * taxBps) maxCurrency / 10000 - price

/-- By how much the refund for a quantity falls short. -/
def missingRefund (quantity unitSavings : Nat) : Nat :=
  quantity * unitSavings - maxCurrency

namespace MarketEscrowCoordinator

/-- The tax rate of a trade in basis points; one percent where no station is registered. -/
def salesTaxBps (escrow : MarketEscrowCoordinator) (stationId : UInt32) : UInt64 :=
  match escrow.getStation stationId with
  | some station => station.salesTaxBps.toUInt64
  | none => 100

/-- The payout, the tax and the refund together are the limit for the traded quantity. -/
def SplitsExactly (escrow : MarketEscrowCoordinator) (trade : TradeExecution)
    (buyerLimitPrice : UInt64) : Prop :=
  (escrow.settleTrade trade buyerLimitPrice).1.netSellerPayout.toNat +
    (escrow.settleTrade trade buyerLimitPrice).1.taxCollected.toNat +
      (escrow.settleTrade trade buyerLimitPrice).1.buyerRefund.toNat =
    trade.quantity.toNat * buyerLimitPrice.toNat

section Settlement

variable (escrow : MarketEscrowCoordinator) (trade : TradeExecution) (buyerLimitPrice : UInt64)

theorem toNat_taxCollected : (escrow.settleTrade trade buyerLimitPrice).1.taxCollected.toNat =
      min (trade.totalPrice.toNat * (escrow.salesTaxBps trade.stationId).toNat) maxCurrency /
        10000 := by
  have tax : (escrow.settleTrade trade buyerLimitPrice).1.taxCollected =
      saturatingMul64 trade.totalPrice (escrow.salesTaxBps trade.stationId) / 10000 := rfl
  rw [tax, UInt64.toNat_div, toNat_saturatingMul64]
  rfl

theorem toNat_netSellerPayout : (escrow.settleTrade trade buyerLimitPrice).1.netSellerPayout.toNat =
      trade.totalPrice.toNat - (escrow.settleTrade trade buyerLimitPrice).1.taxCollected.toNat :=
  toNat_saturatingSub64 _ _

theorem toNat_buyerRefund : (escrow.settleTrade trade buyerLimitPrice).1.buyerRefund.toNat =
      min (trade.quantity.toNat * (buyerLimitPrice.toNat - trade.unitPrice.toNat))
        maxCurrency := by
  have refund : (escrow.settleTrade trade buyerLimitPrice).1.buyerRefund =
      saturatingMul64 trade.quantity.toUInt64
        (saturatingSub64 buyerLimitPrice trade.unitPrice) := rfl
  rw [refund, toNat_saturatingMul64, toNat_saturatingSub64]
  rfl

end Settlement

/-- A settlement splits the limit exactly if what the tax takes too much is what the refund
falls short of; below both limits there is neither. -/
theorem splitsExactly_iff {escrow : MarketEscrowCoordinator} {trade : TradeExecution}
    {buyerLimitPrice : UInt64}
    (total : trade.totalPrice.toNat = trade.quantity.toNat * trade.unitPrice.toNat)
    (withinLimit : trade.unitPrice ≤ buyerLimitPrice) :
    escrow.SplitsExactly trade buyerLimitPrice ↔
      excessTax (trade.quantity.toNat * trade.unitPrice.toNat)
          (escrow.salesTaxBps trade.stationId).toNat =
        missingRefund trade.quantity.toNat (buyerLimitPrice.toNat - trade.unitPrice.toNat) := by
  rw [UInt64.le_iff_toNat_le] at withinLimit
  -- the limit is the price and the savings
  have limit : trade.quantity.toNat * buyerLimitPrice.toNat =
      trade.quantity.toNat * trade.unitPrice.toNat +
        trade.quantity.toNat * (buyerLimitPrice.toNat - trade.unitPrice.toNat) := by
    rw [← Nat.mul_add]
    congr 1
    omega
  have tax := toNat_taxCollected escrow trade buyerLimitPrice
  rw [total] at tax
  unfold SplitsExactly excessTax missingRefund
  rw [toNat_netSellerPayout, toNat_buyerRefund]
  omega

private def withStation (salesTaxBps : UInt16) : MarketEscrowCoordinator :=
  new ((SlotArray.empty 16 MarketStation).set 0
    (some { stationId := 1, salesTaxBps := salesTaxBps }))

private def tenUnits : TradeExecution where
  tradeId := 1
  buyOrderId := 1
  sellOrderId := 2
  buyerAccountId := 10
  sellerAccountId := 20
  itemTypeId := 1001
  quantity := 10
  unitPrice := 100
  totalPrice := 1000
  stationId := 1
  tick := 0

theorem splitsExactly_fivePercent : (withStation 500).SplitsExactly tenUnits 120 :=
  (splitsExactly_iff (by decide) (by decide)).mpr (by decide)

/-- A station that takes two coins for each one of the price. -/
theorem not_splitsExactly_doubleTax :
    ¬ ∀ (escrow : MarketEscrowCoordinator) (trade : TradeExecution) (buyerLimitPrice : UInt64),
      trade.totalPrice.toNat = trade.quantity.toNat * trade.unitPrice.toNat →
        trade.unitPrice ≤ buyerLimitPrice → escrow.SplitsExactly trade buyerLimitPrice := by
  intro always
  have split := always (withStation 20000) tenUnits 120 (by decide) (by decide)
  revert split
  unfold SplitsExactly
  decide

end MarketEscrowCoordinator

end Eidolon.World
