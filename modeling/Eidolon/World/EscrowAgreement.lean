import Eidolon.Core.OrderBookMatching
import Eidolon.Library.Run
import Eidolon.Library.SlotTable
import Eidolon.World.MarketEscrow

/-!
# Agreement of escrow and book

What is locked for an order is what the order still needs.  An order is funded before it is
matched, so while it is matched its own holding stands for the part that is still open, and
every trade reduces one holding on each side.
-/

namespace Eidolon.World

open Core.Market Library List

/-- Holdings are found by order and side. -/
def EscrowHolding.key (holding : EscrowHolding) : UInt64 × Bool :=
  (holding.orderId, holding.isCurrency)

def EscrowHolding.amount (holding : EscrowHolding) : Nat :=
  if holding.isCurrency then holding.lockedCurrency.toNat else holding.lockedQuantity.toNat

theorem EscrowHolding.isSpent_iff {holding : EscrowHolding} :
    holding.isSpent = true ↔ holding.amount = 0 := by
  rw [isSpent, amount]
  cases holding.isCurrency with
  | true => simp [← UInt64.toNat_inj]
  | false => simp [← UInt32.toNat_inj]

def openAmount (isBuy : Bool) (order : MarketOrder) : Nat :=
  if isBuy then order.remainingQuantity.toNat * order.unitPrice.toNat
  else order.remainingQuantity.toNat

def remainingAmount (isBuy : Bool) (order : MarketOrder) : Option Nat :=
  if order.remainingQuantity = 0 then none else some (openAmount isBuy order)

def restingAmount (book : OrderBook) (orderId : UInt64) (isBuy : Bool) : Option Nat :=
  ((book.side isBuy).lookup MarketOrder.orderId orderId).map (openAmount isBuy)

namespace MarketEscrowCoordinator

def lockedAmount (escrow : MarketEscrowCoordinator) (orderId : UInt64) (isBuy : Bool) :
    Option Nat :=
  (escrow.holdings.lookup EscrowHolding.key (orderId, isBuy)).map EscrowHolding.amount

/-- The holdings are in bijection with the resting orders: no two holdings are for one
order on one side, no two orders of one side have one identifier, and a holding of the
right amount is there exactly for each resting order. -/
structure Agrees (escrow : MarketEscrowCoordinator) (book : OrderBook) : Prop where
  oneHolding : escrow.holdings.DistinctKeys EscrowHolding.key
  oneOrder : ∀ isBuy, (book.side isBuy).DistinctKeys MarketOrder.orderId
  amounts : ∀ orderId isBuy,
    escrow.lockedAmount orderId isBuy = restingAmount book orderId isBuy

structure ChangesLock (before after : MarketEscrowCoordinator) (orderId : UInt64)
    (isBuy : Bool) (amount : Option Nat) : Prop where
  oneHolding : after.holdings.DistinctKeys EscrowHolding.key
  counted : after.holdingCount = after.holdings.entries.length
  locked : ∀ otherId side, after.lockedAmount otherId side =
    if orderId = otherId ∧ isBuy = side then amount else before.lockedAmount otherId side

variable {escrow : MarketEscrowCoordinator}

theorem changesLock_lockHolding {holding : EscrowHolding}
    (oneHolding : escrow.holdings.DistinctKeys EscrowHolding.key)
    (counted : escrow.holdingCount = escrow.holdings.entries.length)
    (room : escrow.holdings.entries.length < maxEscrowOrders)
    (fresh : escrow.lockedAmount holding.orderId holding.isCurrency = none) :
    ∃ funded, escrow.lockHolding holding = .ok funded ∧
      ChangesLock escrow funded holding.orderId holding.isCurrency (some holding.amount) := by
  have below : ¬ escrow.holdingCount ≥ maxEscrowOrders := by
    omega
  obtain ⟨holdings, filled⟩ := Option.isSome_iff_exists.mp
    ((@SlotArray.fillFirst?_isSome_iff _ _ escrow.holdings holding).mpr room)
  have missing : escrow.holdings.lookup EscrowHolding.key holding.key = none :=
    Option.map_eq_none_iff.mp fresh
  obtain ⟨distinct, found⟩ := SlotArray.fillFirst?_spec oneHolding filled missing
  refine ⟨_, by rw [lockHolding, if_neg below, filled], distinct, ?_, ?_⟩
  · rw [(SlotArray.fillFirst?_entries filled).length_eq, length_cons, counted]
  intro otherId side
  rw [lockedAmount, lockedAmount]
  rw [found]
  by_cases asked : holding.orderId = otherId ∧ holding.isCurrency = side
  · rw [if_pos asked, if_pos (Prod.ext asked.1 asked.2)]
    rfl
  rw [if_neg asked, if_neg]
  intro same
  exact asked ⟨congrArg Prod.fst same, congrArg Prod.snd same⟩

theorem changesLock_reduceHolding {holding : EscrowHolding}
    (oneHolding : escrow.holdings.DistinctKeys EscrowHolding.key)
    (counted : escrow.holdingCount = escrow.holdings.entries.length)
    (reduce : EscrowHolding → EscrowHolding)
    (found : escrow.holdings.lookup EscrowHolding.key holding.key = some holding)
    (keepsKey : (reduce holding).key = holding.key) :
    ChangesLock escrow (escrow.reduceHolding holding.orderId holding.isCurrency reduce)
      holding.orderId holding.isCurrency
      (if (reduce holding).amount = 0 then none else some (reduce holding).amount) := by
  have isTest : ∀ other : EscrowHolding,
      (other.orderId == holding.orderId && other.isCurrency == holding.isCurrency) = true ↔
        other.key = holding.key := by
    intro other
    rw [EscrowHolding.key, EscrowHolding.key, Bool.and_eq_true, beq_iff_eq, beq_iff_eq,
      Prod.mk.injEq]
  obtain ⟨index, scan, held⟩ :=
    (SlotArray.findFirst?_of_lookup isTest).2 holding oneHolding found
  have asked : ∀ {otherId : UInt64} {side : Bool}, holding.key = (otherId, side) ↔
      holding.orderId = otherId ∧ holding.isCurrency = side := by
    intro otherId side
    rw [EscrowHolding.key, Prod.mk.injEq]
  rw [reduceHolding, scan]
  simp only
  split
  · rename_i spent
    rw [if_pos (EscrowHolding.isSpent_iff.mp spent)]
    have emptied := SlotArray.entries_set_none held
    refine ⟨SlotArray.distinctKeys_set_none oneHolding held, ?_, ?_⟩
    · have shorter := emptied.length_eq
      rw [length_cons] at shorter
      simp only
      omega
    intro otherId side
    rw [lockedAmount, lockedAmount]
    rw [SlotArray.lookup_set_none oneHolding held]
    by_cases here : holding.orderId = otherId ∧ holding.isCurrency = side
    · rw [if_pos here, if_pos (asked.mpr here)]
      rfl
    rw [if_neg here, if_neg (fun same => here (asked.mp same))]
  rename_i notSpent
  rw [if_neg (fun nothing => notSpent (EscrowHolding.isSpent_iff.mpr nothing))]
  obtain ⟨distinct, changed⟩ := SlotArray.set_some_spec oneHolding held keepsKey
  refine ⟨distinct, ?_, ?_⟩
  · obtain ⟨rest, whole, written⟩ :=
      escrow.holdings.exists_rest (SlotArray.lt_of_get? held)
    have before := whole.length_eq
    have after := (written (some (reduce holding))).length_eq
    rw [held] at before
    rw [counted, before, after]
    rfl
  intro otherId side
  rw [lockedAmount, lockedAmount]
  rw [changed]
  by_cases here : holding.orderId = otherId ∧ holding.isCurrency = side
  · rw [if_pos here, if_pos (asked.mpr here)]
    rfl
  rw [if_neg here, if_neg (fun same => here (asked.mp same))]

def deduct (escrow : MarketEscrowCoordinator) (isBuy : Bool) (orderId : UInt64)
    (quantity : UInt32) (price : UInt64) : MarketEscrowCoordinator :=
  if isBuy then escrow.deductCurrency orderId (saturatingMul64 quantity.toUInt64 price)
  else escrow.deductItems orderId quantity

theorem changesLock_deduct {order : MarketOrder} {isBuy : Bool} {quantity : UInt32}
    (oneHolding : escrow.holdings.DistinctKeys EscrowHolding.key)
    (counted : escrow.holdingCount = escrow.holdings.entries.length)
    (locked : escrow.lockedAmount order.orderId isBuy = some (openAmount isBuy order))
    (part : quantity.toNat ≤ order.remainingQuantity.toNat) (priced : order.unitPrice ≠ 0)
    (fits : order.remainingQuantity.toNat * order.unitPrice.toNat < 2 ^ 64) :
    ChangesLock escrow (escrow.deduct isBuy order.orderId quantity order.unitPrice)
      order.orderId isBuy
      (remainingAmount isBuy
        { order with remainingQuantity := order.remainingQuantity - quantity }) := by
  obtain ⟨holding, found, amountIs⟩ := Option.map_eq_some_iff.mp locked
  obtain ⟨_, named⟩ := (SlotArray.lookup_eq_some_iff oneHolding).mp found
  rw [EscrowHolding.key, Prod.mk.injEq] at named
  obtain ⟨idIs, sideIs⟩ := named
  rw [← idIs, ← sideIs] at found
  have left : (order.remainingQuantity - quantity).toNat =
      order.remainingQuantity.toNat - quantity.toNat := by
    apply UInt32.toNat_sub_of_le
    exact part
  have price : 0 < order.unitPrice.toNat := by
    rw [Nat.pos_iff_ne_zero, Ne, ← UInt64.toNat_zero, UInt64.toNat_inj]
    exact priced
  -- Either way the holding is reduced to what the rest of the order needs.
  have reduces : ∀ reduce : EscrowHolding → EscrowHolding, (reduce holding).key = holding.key →
      (reduce holding).amount = openAmount isBuy
        { order with remainingQuantity := order.remainingQuantity - quantity } →
      ChangesLock escrow (escrow.reduceHolding order.orderId isBuy reduce) order.orderId isBuy
        (remainingAmount isBuy
          { order with remainingQuantity := order.remainingQuantity - quantity }) := by
    intro reduce keepsKey amountLeft
    have spec := changesLock_reduceHolding oneHolding counted reduce found keepsKey
    rw [amountLeft, idIs, sideIs] at spec
    have spent : openAmount isBuy
        { order with remainingQuantity := order.remainingQuantity - quantity } = 0 ↔
        order.remainingQuantity - quantity = 0 := by
      rw [← UInt32.toNat_inj, UInt32.toNat_zero]
      cases isBuy with
      | true =>
        simp only [openAmount, if_true, Nat.mul_eq_zero]
        omega
      | false => simp only [openAmount, Bool.false_eq_true, if_false]
    rw [remainingAmount]
    simpa only [spent] using spec
  rw [EscrowHolding.amount, sideIs] at amountIs
  cases isBuy with
  | true =>
    simp only [openAmount, if_true] at amountIs
    have share : quantity.toNat * order.unitPrice.toNat ≤
        order.remainingQuantity.toNat * order.unitPrice.toNat :=
      Nat.mul_le_mul_right _ part
    have cost : (saturatingMul64 quantity.toUInt64 order.unitPrice).toNat =
        quantity.toNat * order.unitPrice.toNat := by
      rw [toNat_saturatingMul64, UInt32.toNat_toUInt64]
      omega
    apply reduces (EscrowHolding.lessCurrency _) rfl
    rw [EscrowHolding.amount, EscrowHolding.lessCurrency]
    simp only [sideIs, openAmount, if_true]
    rw [toNat_saturatingSub64, cost, left, Nat.sub_mul, amountIs]
  | false =>
    simp only [openAmount, Bool.false_eq_true, if_false] at amountIs
    apply reduces (EscrowHolding.lessItems _) rfl
    rw [EscrowHolding.amount, EscrowHolding.lessItems]
    simp only [sideIs, openAmount, Bool.false_eq_true, if_false]
    rw [toNat_saturatingSub32, left, amountIs]

end MarketEscrowCoordinator

structure OpenOrder (order : MarketOrder) : Prop where
  priced : order.unitPrice ≠ 0
  unfilled : order.remainingQuantity ≠ 0
  fits : order.remainingQuantity.toNat * order.unitPrice.toNat < 2 ^ 64

structure SoundBook (book : OrderBook) : Prop where
  oneOrder : ∀ isBuy, (book.side isBuy).DistinctKeys MarketOrder.orderId
  opened : ∀ isBuy, ∀ order ∈ (book.side isBuy).entries, OpenOrder order

structure FillsResting (before after : OrderBook) (isBuy : Bool) (resting : MarketOrder)
    (quantity : UInt32) : Prop where
  sound : SoundBook after
  ownSide : after.side (!isBuy) = before.side (!isBuy)
  amounts : ∀ orderId side, restingAmount after orderId side =
    if resting.orderId = orderId ∧ isBuy = side then
      remainingAmount isBuy
        { resting with remainingQuantity := resting.remainingQuantity - quantity }
    else restingAmount before orderId side

theorem fillsResting_filledBook {book : OrderBook} (sound : SoundBook book)
    {incoming resting : MarketOrder} {idx : Nat}
    (held : (book.side (!incoming.isBuy)).get? idx = some resting) :
    FillsResting book (book.filledBook incoming idx resting) (!incoming.isBuy) resting
      (min incoming.remainingQuantity resting.remainingQuantity) := by
  have distinct := sound.oneOrder (!incoming.isBuy)
  have ownSide := OrderBook.filledBook_own book incoming idx resting
  have restingOpen := sound.opened _ resting (SlotArray.mem_entries_of_get? held)
  have otherOwn : (book.filledBook incoming idx resting).side (!(!incoming.isBuy)) =
      book.side (!(!incoming.isBuy)) := by
    rw [Bool.not_not]
    exact ownSide
  have ownSound : ∀ order ∈ (book.side incoming.isBuy).entries, OpenOrder order :=
    sound.opened incoming.isBuy
  -- It is enough to know what the trade does to the side of the resting order.
  have enough : ∀ orders : BookSide,
      (book.filledBook incoming idx resting).side (!incoming.isBuy) = orders →
      orders.DistinctKeys MarketOrder.orderId →
      (∀ order ∈ orders.entries, OpenOrder order) →
      (∀ orderId, (orders.lookup MarketOrder.orderId orderId).map (openAmount (!incoming.isBuy)) =
        if resting.orderId = orderId then
          remainingAmount (!incoming.isBuy)
            { resting with
              remainingQuantity := resting.remainingQuantity -
                min incoming.remainingQuantity resting.remainingQuantity }
        else restingAmount book orderId (!incoming.isBuy)) →
      FillsResting book (book.filledBook incoming idx resting) (!incoming.isBuy) resting
        (min incoming.remainingQuantity resting.remainingQuantity) := by
    intro orders sideIs ordersDistinct ordersOpen amounts
    have bySide : ∀ side, side = incoming.isBuy ∨ side = !incoming.isBuy := by
      intro side
      cases side <;> cases incoming.isBuy <;> simp
    refine ⟨⟨?_, ?_⟩, otherOwn, ?_⟩
    · intro side
      rcases bySide side with own | other
      · rw [own, ownSide]
        exact sound.oneOrder incoming.isBuy
      rw [other, sideIs]
      exact ordersDistinct
    · intro side
      rcases bySide side with own | other
      · rw [own, ownSide]
        exact ownSound
      rw [other, sideIs]
      exact ordersOpen
    intro orderId side
    rcases bySide side with own | other
    · rw [own, if_neg, restingAmount, ownSide, restingAmount]
      intro both
      cases direction : incoming.isBuy <;> rw [direction] at both <;> cases both.2
    rw [other, restingAmount, sideIs, amounts]
    simp
  by_cases consumed : resting.remainingQuantity -
      min incoming.remainingQuantity resting.remainingQuantity = 0
  · apply enough ((book.side (!incoming.isBuy)).set idx none)
    · simp [OrderBook.filledBook, consumed]
    · exact SlotArray.distinctKeys_set_none distinct held
    · intro order member
      exact sound.opened _ order (SlotArray.mem_entries_set_none member)
    intro orderId
    rw [SlotArray.lookup_set_none distinct held, remainingAmount]
    split <;> rfl
  have partly : ({ resting with
        remainingQuantity := resting.remainingQuantity -
          min incoming.remainingQuantity resting.remainingQuantity
        status := .partiallyFilled } : MarketOrder).orderId = resting.orderId := rfl
  obtain ⟨changedDistinct, changed⟩ := SlotArray.set_some_spec distinct held partly
  apply enough _ _ changedDistinct
  · intro order member
    rcases SlotArray.mem_entries_set_some member with new | old
    · have less := OrderBook.restingRemaining incoming resting
      rw [new]
      refine ⟨restingOpen.priced, consumed, ?_⟩
      simp only
      rw [less]
      have bound := restingOpen.fits
      have share : (resting.remainingQuantity.toNat - incoming.remainingQuantity.toNat) *
          resting.unitPrice.toNat ≤ resting.remainingQuantity.toNat * resting.unitPrice.toNat :=
        Nat.mul_le_mul_right _ (Nat.sub_le _ _)
      omega
    exact sound.opened _ order old
  · intro orderId
    rw [changed, remainingAmount]
    split <;> rfl
  simp [OrderBook.filledBook, consumed]

namespace MarketEscrowCoordinator

/-- A funded order under way: every resting order has its holding, and the order has one
for what is left of it. -/
structure InTransit (escrow : MarketEscrowCoordinator) (book : OrderBook)
    (incoming : MarketOrder) : Prop where
  oneHolding : escrow.holdings.DistinctKeys EscrowHolding.key
  counted : escrow.holdingCount = escrow.holdings.entries.length
  sound : SoundBook book
  priced : incoming.unitPrice ≠ 0
  fits : incoming.remainingQuantity.toNat * incoming.unitPrice.toNat < 2 ^ 64
  fresh : restingAmount book incoming.orderId incoming.isBuy = none
  amounts : ∀ orderId side, escrow.lockedAmount orderId side =
    if incoming.orderId = orderId ∧ incoming.isBuy = side then
      remainingAmount incoming.isBuy incoming
    else restingAmount book orderId side

theorem settleTrade_eq (escrow : MarketEscrowCoordinator) (book : OrderBook)
    (incoming resting : MarketOrder) (currentTick : UInt64) :
    let trade := book.tradeExecution incoming resting currentTick
    let quantity := min incoming.remainingQuantity resting.remainingQuantity
    let settled := (escrow.settleTrade trade (buyerLimit incoming trade)).2
    let deducted :=
      if incoming.isBuy then
        (escrow.deduct true incoming.orderId quantity incoming.unitPrice).deduct false
          resting.orderId quantity resting.unitPrice
      else
        (escrow.deduct true resting.orderId quantity resting.unitPrice).deduct false
          incoming.orderId quantity incoming.unitPrice
    settled.holdings = deducted.holdings ∧ settled.holdingCount = deducted.holdingCount := by
  cases direction : incoming.isBuy with
  | _ => simp [settleTrade, OrderBook.tradeExecution, buyerLimit, deduct, direction]

variable {escrow : MarketEscrowCoordinator}

theorem changesLocks_deduct {first second : MarketOrder} {firstSide secondSide : Bool}
    {quantity : UInt32} (apart : firstSide ≠ secondSide)
    (oneHolding : escrow.holdings.DistinctKeys EscrowHolding.key)
    (counted : escrow.holdingCount = escrow.holdings.entries.length)
    (firstLocked : escrow.lockedAmount first.orderId firstSide = some (openAmount firstSide first))
    (secondLocked : escrow.lockedAmount second.orderId secondSide =
      some (openAmount secondSide second))
    (firstPart : quantity.toNat ≤ first.remainingQuantity.toNat)
    (secondPart : quantity.toNat ≤ second.remainingQuantity.toNat)
    (firstPriced : first.unitPrice ≠ 0) (secondPriced : second.unitPrice ≠ 0)
    (firstFits : first.remainingQuantity.toNat * first.unitPrice.toNat < 2 ^ 64)
    (secondFits : second.remainingQuantity.toNat * second.unitPrice.toNat < 2 ^ 64) :
    let after := (escrow.deduct firstSide first.orderId quantity first.unitPrice).deduct
      secondSide second.orderId quantity second.unitPrice
    after.holdings.DistinctKeys EscrowHolding.key ∧
      after.holdingCount = after.holdings.entries.length ∧
      ∀ orderId side, after.lockedAmount orderId side =
        if second.orderId = orderId ∧ secondSide = side then
          remainingAmount secondSide
            { second with remainingQuantity := second.remainingQuantity - quantity }
        else if first.orderId = orderId ∧ firstSide = side then
          remainingAmount firstSide
            { first with remainingQuantity := first.remainingQuantity - quantity }
        else escrow.lockedAmount orderId side := by
  have firstChanges := changesLock_deduct oneHolding counted firstLocked firstPart
    firstPriced firstFits
  have stillLocked : (escrow.deduct firstSide first.orderId quantity
      first.unitPrice).lockedAmount second.orderId secondSide =
      some (openAmount secondSide second) := by
    rw [firstChanges.locked, if_neg (fun both => apart both.2), secondLocked]
  have secondChanges := changesLock_deduct firstChanges.oneHolding firstChanges.counted
    stillLocked secondPart secondPriced secondFits
  refine ⟨secondChanges.oneHolding, secondChanges.counted, ?_⟩
  intro orderId side
  rw [secondChanges.locked, firstChanges.locked]

variable {book : OrderBook} {incoming : MarketOrder}

theorem changesLocks_settleTrade {resting : MarketOrder} {idx : Nat}
    (transit : InTransit escrow book incoming) (unfilled : incoming.remainingQuantity ≠ 0)
    (held : (book.side (!incoming.isBuy)).get? idx = some resting) (currentTick : UInt64) :
    let trade := book.tradeExecution incoming resting currentTick
    (escrow.settleTrade trade (buyerLimit incoming trade)).2.holdings.DistinctKeys
        EscrowHolding.key ∧
      (escrow.settleTrade trade (buyerLimit incoming trade)).2.holdingCount =
        (escrow.settleTrade trade (buyerLimit incoming trade)).2.holdings.entries.length ∧
      ∀ orderId side,
        (escrow.settleTrade trade (buyerLimit incoming trade)).2.lockedAmount orderId side =
          if incoming.orderId = orderId ∧ incoming.isBuy = side then
            remainingAmount incoming.isBuy (OrderBook.filledIncoming incoming resting)
          else if resting.orderId = orderId ∧ (!incoming.isBuy) = side then
            remainingAmount (!incoming.isBuy)
              { resting with
                remainingQuantity := resting.remainingQuantity -
                  min incoming.remainingQuantity resting.remainingQuantity }
          else escrow.lockedAmount orderId side := by
  intro trade
  have restingOpen := transit.sound.opened _ resting (SlotArray.mem_entries_of_get? held)
  have apart : incoming.isBuy ≠ !incoming.isBuy := by
    cases incoming.isBuy <;> decide
  have lookedUp := SlotArray.lookup_of_get? (transit.sound.oneOrder (!incoming.isBuy)) held
  have incomingLocked : escrow.lockedAmount incoming.orderId incoming.isBuy =
      some (openAmount incoming.isBuy incoming) := by
    rw [transit.amounts, if_pos ⟨rfl, rfl⟩, remainingAmount, if_neg unfilled]
  have restingLocked : escrow.lockedAmount resting.orderId (!incoming.isBuy) =
      some (openAmount (!incoming.isBuy) resting) := by
    rw [transit.amounts, if_neg (fun both => apart both.2), restingAmount, lookedUp]
    rfl
  have incomingPart : (min incoming.remainingQuantity resting.remainingQuantity).toNat ≤
      incoming.remainingQuantity.toNat := by
    rw [UInt32.toNat_min]
    exact Nat.min_le_left _ _
  have restingPart : (min incoming.remainingQuantity resting.remainingQuantity).toNat ≤
      resting.remainingQuantity.toNat := by
    rw [UInt32.toNat_min]
    exact Nat.min_le_right _ _
  -- The buyer's holding is reduced first; the order of the two does not matter.
  obtain ⟨holdingsAre, countIs⟩ := escrow.settleTrade_eq book incoming resting currentTick
  have lockedBy : ∀ orderId side,
      (escrow.settleTrade trade (buyerLimit incoming trade)).2.lockedAmount orderId side =
        _ :=
    fun orderId side => congrArg (fun holdings =>
      (holdings.lookup EscrowHolding.key (orderId, side)).map EscrowHolding.amount) holdingsAre
  rw [holdingsAre, countIs]
  cases direction : incoming.isBuy with
  | true =>
    rw [direction] at incomingLocked restingLocked
    simp only [direction, if_true, Bool.not_true] at lockedBy ⊢
    obtain ⟨oneHolding, counted, locked⟩ := changesLocks_deduct (by decide)
      transit.oneHolding transit.counted incomingLocked restingLocked incomingPart
      restingPart transit.priced restingOpen.priced transit.fits restingOpen.fits
    refine ⟨oneHolding, counted, ?_⟩
    intro orderId side
    rw [lockedBy]
    refine (locked orderId side).trans ?_
    by_cases own : incoming.orderId = orderId ∧ true = side
    · have notResting : ¬ (resting.orderId = orderId ∧ (!true) = side) :=
        fun both => by cases both.2.trans own.2.symm
      rw [if_pos own, if_pos own, if_neg notResting]
      rfl
    rw [if_neg own, if_neg own]
    rfl
  | false =>
    rw [direction] at incomingLocked restingLocked
    simp only [direction, Bool.false_eq_true, if_false, Bool.not_false] at lockedBy ⊢
    obtain ⟨oneHolding, counted, locked⟩ := changesLocks_deduct (by decide)
      transit.oneHolding transit.counted restingLocked incomingLocked restingPart
      incomingPart restingOpen.priced transit.priced restingOpen.fits transit.fits
    refine ⟨oneHolding, counted, ?_⟩
    intro orderId side
    rw [lockedBy]
    exact locked orderId side

theorem inTransit_settleTrade {resting : MarketOrder} {idx : Nat}
    (transit : InTransit escrow book incoming) (unfilled : incoming.remainingQuantity ≠ 0)
    (held : (book.side (!incoming.isBuy)).get? idx = some resting) (currentTick : UInt64) :
    let trade := book.tradeExecution incoming resting currentTick
    InTransit (escrow.settleTrade trade (buyerLimit incoming trade)).2
      (book.filledBook incoming idx resting) (OrderBook.filledIncoming incoming resting) := by
  have fills := fillsResting_filledBook transit.sound held
  have apart : incoming.isBuy ≠ !incoming.isBuy := by
    cases incoming.isBuy <;> decide
  obtain ⟨oneHolding, counted, locked⟩ :=
    changesLocks_settleTrade transit unfilled held currentTick
  constructor
  · exact oneHolding
  · exact counted
  · exact fills.sound
  · exact transit.priced
  · have less := OrderBook.filledIncoming_remaining incoming resting
    have share : (incoming.remainingQuantity.toNat - resting.remainingQuantity.toNat) *
        incoming.unitPrice.toNat ≤ incoming.remainingQuantity.toNat * incoming.unitPrice.toNat :=
      Nat.mul_le_mul_right _ (Nat.sub_le _ _)
    have bound := transit.fits
    rw [less]
    exact Nat.lt_of_le_of_lt share bound
  · have direction : (OrderBook.filledIncoming incoming resting).isBuy = incoming.isBuy := rfl
    have identity : (OrderBook.filledIncoming incoming resting).orderId =
        incoming.orderId := rfl
    rw [direction, identity, fills.amounts, if_neg (fun both => apart both.2.symm), transit.fresh]
  intro orderId side
  have direction : (OrderBook.filledIncoming incoming resting).isBuy = incoming.isBuy := rfl
  have identity : (OrderBook.filledIncoming incoming resting).orderId =
      incoming.orderId := rfl
  rw [direction, identity, locked, fills.amounts, transit.amounts]
  by_cases own : incoming.orderId = orderId ∧ incoming.isBuy = side
  · rw [if_pos own, if_pos own]
  rw [if_neg own, if_neg own, if_neg own]

theorem inTransit_matchLoop {escrow : MarketEscrowCoordinator} {book : OrderBook}
    {incoming order : MarketOrder} (transit : InTransit escrow book incoming)
    (direction : order.isBuy = incoming.isBuy) (price : order.unitPrice = incoming.unitPrice)
    (room : Nat) (currentTick : UInt64) :
    let matched := OrderBook.matchLoop currentTick room book incoming
    InTransit (escrow.settleTrades order matched.trades) matched.book matched.incoming := by
  have sameLimit : ∀ trade, buyerLimit order trade = buyerLimit incoming trade := by
    intro trade
    rw [buyerLimit, buyerLimit, direction, price]
  induction room, book, incoming using OrderBook.matchLoop_induction currentTick
    generalizing escrow with
  | idle room book incoming _ nothing =>
    rw [nothing]
    exact transit
  | trade room book incoming head rest unfilled _ held loop ih =>
    have settled := inTransit_settleTrade transit unfilled held currentTick
    simp only at settled
    rw [← sameLimit] at settled
    rw [loop]
    exact ih settled direction price fun trade => sameLimit trade

structure Consistent (escrow : MarketEscrowCoordinator) (book : OrderBook) : Prop
    extends escrow.Agrees book where
  counted : escrow.holdingCount = escrow.holdings.entries.length
  opened : ∀ isBuy, ∀ order ∈ (book.side isBuy).entries, OpenOrder order

theorem Agrees.holdings_le (agrees : escrow.Agrees book) :
    escrow.holdings.entries.length ≤ maxOrdersPerSide + maxOrdersPerSide := by
  have keys : escrow.holdings.entries.map EscrowHolding.key ⊆
      book.bids.entries.map (fun bid => (bid.orderId, true)) ++
        book.asks.entries.map (fun ask => (ask.orderId, false)) := by
    intro key member
    obtain ⟨holding, present, same⟩ := List.mem_map.mp member
    have found : escrow.holdings.lookup EscrowHolding.key holding.key = some holding :=
      (SlotArray.lookup_eq_some_iff agrees.oneHolding).mpr ⟨present, rfl⟩
    have amount := agrees.amounts holding.orderId holding.isCurrency
    rw [lockedAmount] at amount
    rw [EscrowHolding.key] at found
    rw [found] at amount
    obtain ⟨order, rests, _⟩ := Option.map_eq_some_iff.mp amount.symm
    obtain ⟨inSide, named⟩ :=
      (SlotArray.lookup_eq_some_iff (agrees.oneOrder holding.isCurrency)).mp rests
    rw [← same, EscrowHolding.key, mem_append, List.mem_map, List.mem_map]
    cases direction : holding.isCurrency with
    | true =>
      rw [direction] at inSide
      exact Or.inl ⟨order, inSide, by rw [named]⟩
    | false =>
      rw [direction] at inSide
      exact Or.inr ⟨order, inSide, by rw [named]⟩
  have fewer := (subperm_of_subset agrees.oneHolding keys).length_le
  have bids := book.bids.entries_length_le
  have asks := book.asks.entries_length_le
  rw [length_map, length_append, length_map, length_map] at fewer
  omega

/-- A limit order whose cost fits. -/
def Admissible (order : MarketOrder) : Prop :=
  order.orderType = .limit ∧ order.initialQuantity.toNat * order.unitPrice.toNat < 2 ^ 64

/-- The book accepts the order: its price and quantity are not zero, all of it is open, its
identifier is not that of a resting order of its side, and if it is not filled its side has
room for the rest. -/
structure Accepted (book : OrderBook) (order : MarketOrder) (tradesLen : Nat) : Prop where
  priced : order.unitPrice ≠ 0
  nonempty : order.initialQuantity ≠ 0
  whole : order.remainingQuantity = order.initialQuantity
  fresh : ∀ resting ∈ (book.side order.isBuy).entries, resting.orderId ≠ order.orderId
  room : book.OpenLimit order tradesLen → book.HasRoomFor order

theorem inTransit_fundOrder {order : MarketOrder} {tradesLen : Nat}
    (consistent : escrow.Consistent book) (admissible : Admissible order)
    (accepted : Accepted book order tradesLen) :
    ∃ funded, escrow.fundOrder order = .ok funded ∧ InTransit funded book order := by
  have notResting : restingAmount book order.orderId order.isBuy = none := by
    rw [restingAmount, Option.map_eq_none_iff, SlotArray.lookup_eq_none_iff]
    exact accepted.fresh
  have unlocked : escrow.lockedAmount order.orderId order.isBuy = none := by
    rw [consistent.amounts, notResting]
  have room : escrow.holdings.entries.length < maxEscrowOrders := by
    have bound := consistent.holdings_le
    have sides : maxOrdersPerSide + maxOrdersPerSide < maxEscrowOrders := by decide
    omega
  have fits := admissible.2
  have open' : remainingAmount order.isBuy order = some (openAmount order.isBuy order) := by
    rw [remainingAmount, if_neg]
    rw [accepted.whole]
    exact accepted.nonempty
  -- Whatever holding is locked, it is for the order and of the amount it needs.
  have locks : ∀ holding : EscrowHolding, holding.orderId = order.orderId →
      holding.isCurrency = order.isBuy → holding.amount = openAmount order.isBuy order →
      ∃ funded, escrow.lockHolding holding = .ok funded ∧ InTransit funded book order := by
    intro holding named sided amount
    have fresh : escrow.lockedAmount holding.orderId holding.isCurrency = none := by
      rw [named, sided, unlocked]
    obtain ⟨funded, done, changes⟩ := changesLock_lockHolding consistent.oneHolding
      consistent.counted room fresh
    refine ⟨funded, done, changes.oneHolding, changes.counted,
      ⟨consistent.oneOrder, consistent.opened⟩, accepted.priced, ?_, notResting, ?_⟩
    · rw [accepted.whole]
      exact fits
    intro orderId side
    rw [changes.locked, named, sided, amount, open', consistent.amounts]
  rw [fundOrder, if_pos admissible.1]
  cases direction : order.isBuy with
  | true =>
    apply locks
    · rfl
    · exact direction.symm
    rw [EscrowHolding.amount]
    simp only [if_true, openAmount, direction]
    rw [toNat_saturatingMul64, UInt32.toNat_toUInt64, accepted.whole]
    omega
  | false =>
    apply locks
    · rfl
    · exact direction.symm
    rw [EscrowHolding.amount]
    simp only [Bool.false_eq_true, if_false, openAmount, direction, accepted.whole]

theorem InTransit.consistent_of_filled (transit : InTransit escrow book incoming)
    (filled : incoming.remainingQuantity = 0) : escrow.Consistent book where
  oneHolding := transit.oneHolding
  oneOrder := transit.sound.oneOrder
  counted := transit.counted
  opened := transit.sound.opened
  amounts := by
    intro orderId side
    rw [transit.amounts]
    by_cases own : incoming.orderId = orderId ∧ incoming.isBuy = side
    · rw [if_pos own, remainingAmount, if_pos filled, ← own.1, ← own.2, transit.fresh]
    rw [if_neg own]

theorem InTransit.consistent_of_rested {rested : MarketOrder}
    (transit : InTransit escrow book incoming) (unfilled : incoming.remainingQuantity ≠ 0)
    {orders : BookSide} {count : Nat}
    (filled : (book.side incoming.isBuy).fillFirst? rested = some orders)
    (identity : rested.orderId = incoming.orderId) (price : rested.unitPrice = incoming.unitPrice)
    (quantity : rested.remainingQuantity = incoming.remainingQuantity) :
    escrow.Consistent (book.setSide incoming.isBuy orders count) := by
  have missing : (book.side incoming.isBuy).lookup MarketOrder.orderId rested.orderId =
      none := by
    rw [identity]
    exact Option.map_eq_none_iff.mp transit.fresh
  obtain ⟨distinct, found⟩ :=
    SlotArray.fillFirst?_spec (transit.sound.oneOrder incoming.isBuy) filled missing
  have bySide : ∀ side, side = incoming.isBuy ∨ incoming.isBuy = !side := by
    intro side
    cases side <;> cases incoming.isBuy <;> simp
  refine ⟨⟨transit.oneHolding, ?_, ?_⟩, transit.counted, ?_⟩
  · intro side
    rcases bySide side with own | other
    · rw [own, OrderBook.side_setSide]
      exact distinct
    rw [other, OrderBook.side_setSide_other]
    exact transit.sound.oneOrder side
  · intro orderId side
    rw [transit.amounts]
    rcases bySide side with own | other
    · have rests : restingAmount (book.setSide incoming.isBuy orders count) orderId side =
          if incoming.orderId = orderId then some (openAmount incoming.isBuy incoming)
          else restingAmount book orderId side := by
        rw [restingAmount, restingAmount, own, OrderBook.side_setSide, found, identity]
        by_cases asked : incoming.orderId = orderId
        · rw [if_pos asked, if_pos asked, Option.map_some, openAmount, openAmount, price, quantity]
        rw [if_neg asked, if_neg asked]
      rw [rests]
      by_cases asked : incoming.orderId = orderId
      · rw [if_pos ⟨asked, own.symm⟩, if_pos asked, remainingAmount, if_neg unfilled]
      rw [if_neg (fun both => asked both.1), if_neg asked]
    rw [if_neg, restingAmount, restingAmount, other, OrderBook.side_setSide_other]
    intro both
    rw [other] at both
    cases side with
    | _ => cases both.2
  intro side order member
  rcases bySide side with own | other
  · rw [own, OrderBook.side_setSide,
      (SlotArray.fillFirst?_entries filled).mem_iff, mem_cons] at member
    rcases member with new | old
    · rw [new]
      refine ⟨?_, ?_, ?_⟩
      · rw [price]
        exact transit.priced
      · rw [quantity]
        exact unfilled
      rw [price, quantity]
      exact transit.fits
    exact transit.sound.opened incoming.isBuy order old
  rw [other, OrderBook.side_setSide_other] at member
  exact transit.sound.opened side order member

theorem consistent_submitAndMatch {order : MarketOrder} {tradesLen : Nat}
    (consistent : escrow.Consistent book) (admissible : Admissible order)
    (accepted : Accepted book order tradesLen) (currentTick : UInt64) :
    let outcome := escrow.submitAndMatch order book tradesLen currentTick
    outcome.escrow.Consistent outcome.book := by
  intro outcome
  obtain ⟨funded, done, transit⟩ := inTransit_fundOrder consistent admissible accepted
  have settled := @inTransit_matchLoop _ _ _ order transit rfl rfl tradesLen currentTick
  obtain ⟨sameOrder, sameSide, sameCount⟩ :=
    OrderBook.matchLoop_frame currentTick tradesLen book order
  have unfolded : outcome = escrow.submitAndMatch order book tradesLen currentTick := rfl
  rw [submitAndMatch, done] at unfolded
  rcases book.placeOrder_cases order tradesLen currentTick with
    ⟨failure, rejected, placed⟩ | ⟨finalOrder, finished, placed⟩ |
    ⟨orders, opened, room, inserted, placed⟩ | ⟨failure, opened, noRoom, placed⟩
  · exact absurd ⟨⟨accepted.priced, accepted.nonempty⟩, admissible.1⟩ rejected
  · have filled :
        (OrderBook.matchLoop currentTick tradesLen book order).incoming.remainingQuantity =
          0 := by
      by_contra unfilled
      exact finished ⟨⟨accepted.priced, accepted.nonempty⟩, admissible.1,
        (OrderBook.matchLoop_unfilled_iff currentTick).mp unfilled⟩
    rw [unfolded, placed]
    simp only [take_length]
    exact settled.consistent_of_filled filled
  · have unfilled := (OrderBook.matchLoop_unfilled_iff currentTick).mpr opened.unfilled
    rw [unfolded, placed]
    simp only [take_length]
    have direction : (OrderBook.matchLoop currentTick tradesLen book order).incoming.isBuy =
        order.isBuy := by
      rw [sameOrder]
    rw [← direction] at inserted ⊢
    exact settled.consistent_of_rested unfilled inserted rfl rfl rfl
  exact absurd (accepted.room opened) noRoom

/-- A call of `submit_and_match`. -/
structure Submission where
  order : MarketOrder
  tradesLen : Nat
  currentTick : UInt64

structure EscrowedBook where
  escrow : MarketEscrowCoordinator
  book : OrderBook

namespace EscrowedBook

def new (stations : SlotArray 16 MarketStation) (itemTypeId : UInt32) : EscrowedBook where
  escrow := MarketEscrowCoordinator.new stations
  book := OrderBook.new itemTypeId

variable (state : EscrowedBook)

def step (call : Submission) : EscrowedBook :=
  let outcome :=
    state.escrow.submitAndMatch call.order state.book call.tradesLen call.currentTick
  ⟨outcome.escrow, outcome.book⟩

def Agrees (state : EscrowedBook) : Prop :=
  state.escrow.Agrees state.book

/-- The call submits a limit order whose cost fits. -/
def AdmissibleCall (_ : EscrowedBook) (call : Submission) : Prop :=
  Admissible call.order

def AcceptedCall (call : Submission) : Prop :=
  Accepted state.book call.order call.tradesLen

def IsConsistent : Prop :=
  state.escrow.Consistent state.book

theorem isConsistent_new (stations : SlotArray 16 MarketStation) (itemTypeId : UInt32) :
    (new stations itemTypeId).IsConsistent := by
  have noOrders : ∀ isBuy, ((new stations itemTypeId).book.side isBuy).entries = [] := by
    intro isBuy
    cases isBuy with
    | _ => exact SlotArray.entries_empty
  refine ⟨⟨?_, ?_, ?_⟩, ?_, ?_⟩
  · exact nodup_nil
  · intro isBuy
    rw [SlotArray.DistinctKeys, noOrders]
    exact nodup_nil
  · intro orderId isBuy
    rw [lockedAmount, restingAmount, SlotArray.lookup, SlotArray.lookup, noOrders]
    rfl
  · rfl
  intro isBuy order member
  rw [noOrders] at member
  cases member

/-- While the book accepts every order that is submitted, what is locked is what the
resting orders need. -/
theorem agrees_throughout (stations : SlotArray 16 MarketStation) (itemTypeId : UInt32)
    (calls : List Submission)
    (admissible : EachStep step AdmissibleCall (new stations itemTypeId) calls)
    (accepted : EachStep step AcceptedCall (new stations itemTypeId) calls) :
    Throughout step Agrees (new stations itemTypeId) calls := by
  have preserved : ∀ state call, IsConsistent state →
      AdmissibleCall state call ∧ AcceptedCall state call → IsConsistent (step state call) := by
    intro state call consistent met
    exact consistent_submitAndMatch consistent met.1 met.2 call.currentTick
  have consistent := throughout_of_eachStep preserved (isConsistent_new stations itemTypeId)
    (admissible.and accepted)
  exact consistent.imp fun state consistent => consistent.toAgrees

def tenUnitBid (orderId : UInt64) : Submission where
  order := MarketOrder.new orderId 10 1001 true 100 10 1 .limit 10 1000
  tradesLen := 4
  currentTick := 10

def fourUnitAsk (orderId : UInt64) : Submission where
  order := MarketOrder.new orderId 20 1001 false 90 4 1 .limit 20 1000
  tradesLen := 4
  currentTick := 20

/-- A bid that rests and an ask that is filled by it. -/
theorem agrees_partialFill :
    Throughout step Agrees (new (SlotArray.empty _ _) 1001) [tenUnitBid 1, fourUnitAsk 2] := by
  apply agrees_throughout
  · exact ⟨⟨rfl, by decide⟩, ⟨rfl, by decide⟩, trivial⟩
  refine ⟨⟨by decide, by decide, rfl, by decide, ?_⟩,
    ⟨by decide, by decide, rfl, by decide, ?_⟩, trivial⟩
  · intro _
    exact ⟨by decide, by decide, by decide⟩
  intro _
  exact ⟨by decide, by decide, by decide⟩

/-- A second bid with the identifier of a resting one is refused, but what was locked for it
stays locked. -/
theorem not_agrees_afterDuplicate :
    ¬ ∀ (stations : SlotArray 16 MarketStation) (itemTypeId : UInt32) (calls : List Submission),
      EachStep step AdmissibleCall (new stations itemTypeId) calls →
        Throughout step Agrees (new stations itemTypeId) calls := by
  intro always
  have agrees := (always (SlotArray.empty _ _) 1001 [tenUnitBid 1, tenUnitBid 1]
    ⟨⟨rfl, by decide⟩, ⟨rfl, by decide⟩, trivial⟩).run
  have twoHoldings : ¬ ((Library.run step (new (SlotArray.empty _ _) 1001)
      [tenUnitBid 1, tenUnitBid 1]).escrow.holdings.entries.map EscrowHolding.key).Nodup := by
    decide
  exact twoHoldings agrees.oneHolding

end EscrowedBook

end MarketEscrowCoordinator

end Eidolon.World
