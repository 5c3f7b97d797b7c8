import Eidolon.Library.MachineInt
import Eidolon.Library.SlotArray

/-!
# The double-auction order book

The order book of one commodity: two arrays of resting orders with their counters,
and the operations `place_order` and `cancel_order`.  The source writes the buying
and the selling branch of each operation out separately; here each is one
definition with the direction as a parameter.
-/

namespace Eidolon.Core.Market

open Library

def maxOrdersPerSide : Nat := 64

inductive OrderType where
  | limit
  | immediateOrCancel
  | fillOrKill
  deriving DecidableEq

inductive OrderStatus where
  | active
  | partiallyFilled
  | filled
  | cancelled
  | rejected
  deriving DecidableEq

/-- A commodity order placed on the regional market. -/
structure MarketOrder where
  orderId : UInt64
  accountId : UInt64
  itemTypeId : UInt32
  isBuy : Bool
  unitPrice : UInt64
  initialQuantity : UInt32
  remainingQuantity : UInt32
  stationId : UInt32
  orderType : OrderType
  status : OrderStatus
  placedTick : UInt64
  expirationTick : UInt64
  deriving DecidableEq

def MarketOrder.new (orderId accountId : UInt64) (itemTypeId : UInt32) (isBuy : Bool)
    (unitPrice : UInt64) (quantity stationId : UInt32) (orderType : OrderType)
    (placedTick durationTicks : UInt64) : MarketOrder where
  orderId := orderId
  accountId := accountId
  itemTypeId := itemTypeId
  isBuy := isBuy
  unitPrice := unitPrice
  initialQuantity := quantity
  remainingQuantity := quantity
  stationId := stationId
  orderType := orderType
  status := .active
  placedTick := placedTick
  expirationTick := saturatingAdd64 placedTick durationTicks

/-- Record of an executed match between a buyer and a seller. -/
structure TradeExecution where
  tradeId : UInt64
  buyOrderId : UInt64
  sellOrderId : UInt64
  buyerAccountId : UInt64
  sellerAccountId : UInt64
  itemTypeId : UInt32
  quantity : UInt32
  unitPrice : UInt64
  totalPrice : UInt64
  stationId : UInt32
  tick : UInt64
  deriving DecidableEq

inductive MarketError where
  | orderBookFull
  | duplicateOrderId
  | orderNotFound
  | unauthorizedCancellation
  | invalidOrderParameters
  | fillOrKillUnfulfilled
  | orderNotActive
  deriving DecidableEq

abbrev BookSide := SlotArray maxOrdersPerSide MarketOrder

/-- In-place price-time priority order book for a single commodity type. -/
structure OrderBook where
  itemTypeId : UInt32
  bids : BookSide
  bidCount : Nat
  asks : BookSide
  askCount : Nat
  nextTradeId : UInt64
  deriving DecidableEq

namespace OrderBook

def new (itemTypeId : UInt32) : OrderBook where
  itemTypeId := itemTypeId
  bids := SlotArray.empty _ _
  bidCount := 0
  asks := SlotArray.empty _ _
  askCount := 0
  nextTradeId := 1

variable (book : OrderBook) (isBuy : Bool)

def side : BookSide :=
  if isBuy then book.bids else book.asks

def count : Nat :=
  if isBuy then book.bidCount else book.askCount

def setSide (orders : BookSide) (count : Nat) : OrderBook :=
  if isBuy then { book with bids := orders, bidCount := count }
  else { book with asks := orders, askCount := count }

def bestBidPrice : Option UInt64 :=
  (book.bids.entries.map MarketOrder.unitPrice).max?

def bestAskPrice : Option UInt64 :=
  (book.asks.entries.map MarketOrder.unitPrice).min?

def insertRestingOrder (order : MarketOrder) : Except MarketError OrderBook :=
  if book.count order.isBuy ≥ maxOrdersPerSide then
    .error .orderBookFull
  else if (book.side order.isBuy).entries.any (·.orderId == order.orderId) then
    .error .duplicateOrderId
  else
    match (book.side order.isBuy).fillFirst? order with
    | some orders => .ok (book.setSide order.isBuy orders (book.count order.isBuy + 1))
    | none => .error .orderBookFull

def cancelSlot (index : Nat) (order : MarketOrder) (accountId : UInt64) :
    Except MarketError MarketOrder × OrderBook :=
  if order.accountId ≠ accountId then
    (.error .unauthorizedCancellation, book)
  else
    (.ok { order with status := .cancelled },
      book.setSide isBuy ((book.side isBuy).set index none) (book.count isBuy - 1))

def cancelOrder (orderId accountId : UInt64) : Except MarketError MarketOrder × OrderBook :=
  match book.bids.findFirst? (·.orderId == orderId) with
  | some (index, order) => book.cancelSlot true index order accountId
  | none =>
    match book.asks.findFirst? (·.orderId == orderId) with
    | some (index, order) => book.cancelSlot false index order accountId
    | none => (.error .orderNotFound, book)

variable (incoming : MarketOrder) (resting : MarketOrder)

def crosses : Bool :=
  if incoming.isBuy then resting.unitPrice ≤ incoming.unitPrice
  else resting.unitPrice ≥ incoming.unitPrice

/-- A resting price that the incoming order prefers strictly: lower asks for a
buyer, higher bids for a seller. -/
def betterPrice (incomingIsBuy : Bool) (price other : UInt64) : Bool :=
  if incomingIsBuy then price < other else price > other

def betterOrder (incomingIsBuy : Bool) (candidate best : Nat × UInt64 × UInt64) : Bool :=
  betterPrice incomingIsBuy candidate.2.1 best.2.1 ||
    (candidate.2.1 == best.2.1 && candidate.2.2 < best.2.2)

/-- One iteration of the search for the best match: the best order so far is kept
as its slot, price and tick. -/
def considerResting (best : Option (Nat × UInt64 × UInt64)) (slot : Nat × MarketOrder) :
    Option (Nat × UInt64 × UInt64) :=
  if crosses incoming slot.2 then
    match best with
    | none => some (slot.1, slot.2.unitPrice, slot.2.placedTick)
    | some current =>
      if betterOrder incoming.isBuy (slot.1, slot.2.unitPrice, slot.2.placedTick) current then
        some (slot.1, slot.2.unitPrice, slot.2.placedTick)
      else
        some current
  else
    best

def bestMatchIdx : Option Nat :=
  ((book.side (!incoming.isBuy)).indexed.foldl (considerResting incoming) none).map
    (fun best => best.1)

/-- Total quantity at or better than the limit, summed in `u32` (the sum wraps). -/
def availableQty : UInt32 :=
  (book.side (!incoming.isBuy)).entries.foldl (fun total resting =>
      if crosses incoming resting then total + resting.remainingQuantity else total) 0

/-- The trade of an incoming order against a resting one: the maker's price and
the smaller of the two open quantities. -/
def tradeExecution (currentTick : UInt64) : TradeExecution :=
  let matchedQty := min incoming.remainingQuantity resting.remainingQuantity
  { tradeId := book.nextTradeId
    buyOrderId := if incoming.isBuy then incoming.orderId else resting.orderId
    sellOrderId := if incoming.isBuy then resting.orderId else incoming.orderId
    buyerAccountId := if incoming.isBuy then incoming.accountId else resting.accountId
    sellerAccountId := if incoming.isBuy then resting.accountId else incoming.accountId
    itemTypeId := incoming.itemTypeId
    quantity := matchedQty
    unitPrice := resting.unitPrice
    totalPrice := saturatingMul64 matchedQty.toUInt64 resting.unitPrice
    -- The goods lie where the seller is.
    stationId := if incoming.isBuy then resting.stationId else incoming.stationId
    tick := currentTick }

def filledIncoming : MarketOrder :=
  { incoming with
    remainingQuantity :=
      incoming.remainingQuantity - min incoming.remainingQuantity resting.remainingQuantity }

/-- The book after a trade against `resting` in slot `idx`: the order leaves its
slot when nothing of it remains. -/
def filledBook (idx : Nat) (resting : MarketOrder) : OrderBook :=
  let isBuy := !incoming.isBuy
  let remaining :=
    resting.remainingQuantity - min incoming.remainingQuantity resting.remainingQuantity
  let traded := { book with nextTradeId := book.nextTradeId + 1 }
  if remaining = 0 then
    traded.setSide isBuy ((book.side isBuy).set idx none) (book.count isBuy - 1)
  else
    traded.setSide isBuy ((book.side isBuy).set idx
        (some { resting with remainingQuantity := remaining, status := .partiallyFilled }))
      (book.count isBuy)

structure MatchResult where
  book : OrderBook
  incoming : MarketOrder
  trades : List TradeExecution

def matchLoop (currentTick : UInt64) : Nat → OrderBook → MarketOrder → MatchResult
  | 0, book, incoming => ⟨book, incoming, []⟩
  | room + 1, book, incoming =>
    if incoming.remainingQuantity = 0 then
      ⟨book, incoming, []⟩
    else
      match book.bestMatchIdx incoming with
      | none => ⟨book, incoming, []⟩
      | some idx =>
        match (book.side (!incoming.isBuy)).get? idx with
        | none => ⟨book, incoming, []⟩
        | some resting =>
          let later := matchLoop currentTick room
            (book.filledBook incoming idx resting) (filledIncoming incoming resting)
          { later with
            trades := book.tradeExecution incoming resting currentTick :: later.trades }

/-- Result of `place_order`: the value returned, the trades written to the front
of the output slice, and the book. -/
structure PlaceOutcome where
  result : Except MarketError (Nat × MarketOrder)
  tradesOut : List TradeExecution
  book : OrderBook

def unfilledStatus (trades : List TradeExecution) (untouched : OrderStatus) : OrderStatus :=
  if trades.length > 0 then .partiallyFilled else untouched

def restedOrder (matched : MatchResult) : MarketOrder :=
  { matched.incoming with status := unfilledStatus matched.trades .active }

def finalizeOrder (matched : MatchResult) : PlaceOutcome :=
  let incoming := matched.incoming
  let tradeCount := matched.trades.length
  if incoming.remainingQuantity = 0 then
    ⟨.ok (tradeCount, { incoming with status := .filled }), matched.trades, matched.book⟩
  else
    match incoming.orderType with
    | .immediateOrCancel =>
      ⟨.ok (tradeCount, { incoming with status := unfilledStatus matched.trades .cancelled }),
        matched.trades, matched.book⟩
    | .limit =>
      match matched.book.insertRestingOrder (restedOrder matched) with
      | .ok book => ⟨.ok (tradeCount, restedOrder matched), matched.trades, book⟩
      | .error failure => ⟨.error failure, matched.trades, matched.book⟩
    | .fillOrKill => ⟨.ok (tradeCount, incoming), matched.trades, matched.book⟩

/-- Double-auction matching of an incoming order with an output slice for
`tradesLen` trades. -/
def placeOrder (tradesLen : Nat) (currentTick : UInt64) : PlaceOutcome :=
  if incoming.unitPrice = 0 ∨ incoming.initialQuantity = 0 then
    ⟨.error .invalidOrderParameters, [], book⟩
  else if incoming.orderType = .fillOrKill ∧
      book.availableQty incoming < incoming.initialQuantity then
    ⟨.error .fillOrKillUnfulfilled, [], book⟩
  else
    finalizeOrder (matchLoop currentTick tradesLen book incoming)

end OrderBook

end Eidolon.Core.Market
