import Eidolon.Core.OrderBookMatching
import Eidolon.Library.Run

/-!
# The book is never crossed, as long as output slices are long enough

A book is crossed when its best bid reaches its best ask.  Matching stops for three
reasons: the order is filled, nothing crosses any more, or the output slice is
full.  Only the third one can leave an open limit order that still crosses, and
resting it crosses the book.  The failing calls are described by the match queue
of the state before the call, and a run keeps the book uncrossed exactly if it
makes none of them.
-/

namespace Eidolon.Core.Market

open Library List

instance lawfulOrderMaxUInt64 : Std.LawfulOrderMax UInt64 where
  max_le_iff a b c := by
    rw [UInt64.le_iff_toNat_le, UInt64.toNat_max, UInt64.le_iff_toNat_le, UInt64.le_iff_toNat_le]
    omega
  max_eq_or a b := by
    rw [← UInt64.toNat_inj, ← UInt64.toNat_inj, UInt64.toNat_max]
    omega

namespace OrderBook

/-- If both sides hold orders, the best bid is strictly below the best ask. -/
def Uncrossed (book : OrderBook) : Prop :=
  ∀ bid ask, book.bestBidPrice = some bid → book.bestAskPrice = some ask → bid < ask

variable {book : OrderBook}

theorem uncrossed_iff : book.Uncrossed ↔
      ∀ bid ∈ book.bids.entries, ∀ ask ∈ book.asks.entries, bid.unitPrice < ask.unitPrice := by
  constructor
  · intro uncrossed bid bidMember ask askMember
    obtain ⟨best, bestBid⟩ : ∃ best, book.bestBidPrice = some best := by
      refine Option.ne_none_iff_exists'.mp ?_
      rw [bestBidPrice, Ne, max?_eq_none_iff, map_eq_nil_iff]
      exact ne_nil_of_mem bidMember
    obtain ⟨lowest, bestAsk⟩ : ∃ lowest, book.bestAskPrice = some lowest := by
      refine Option.ne_none_iff_exists'.mp ?_
      rw [bestAskPrice, Ne, min?_eq_none_iff, map_eq_nil_iff]
      exact ne_nil_of_mem askMember
    have apart := uncrossed best lowest bestBid bestAsk
    have bidBound := (max?_eq_some_iff.mp bestBid).2 bid.unitPrice
      (mem_map_of_mem bidMember)
    have askBound := (min?_eq_some_iff.mp bestAsk).2 ask.unitPrice
      (mem_map_of_mem askMember)
    rw [UInt64.lt_iff_toNat_lt] at apart ⊢
    rw [UInt64.le_iff_toNat_le] at bidBound askBound
    omega
  intro apart bid ask bestBid bestAsk
  obtain ⟨bidOrder, bidMember, rfl⟩ :=
    mem_map.mp (max?_eq_some_iff.mp bestBid).1
  obtain ⟨askOrder, askMember, rfl⟩ :=
    mem_map.mp (min?_eq_some_iff.mp bestAsk).1
  exact apart bidOrder bidMember askOrder askMember

theorem uncrossed_iff_side (isBuy : Bool) : book.Uncrossed ↔
      ∀ own ∈ (book.side isBuy).entries, ∀ other ∈ (book.side (!isBuy)).entries,
        crosses { own with isBuy := isBuy } other = false := by
  rw [uncrossed_iff]
  cases isBuy with
  | true => simp [side, crosses, UInt64.lt_iff_toNat_lt, UInt64.le_iff_toNat_le]
  | false =>
    simp only [side, crosses, Bool.false_eq_true, if_false, Bool.not_false, if_true,
      decide_eq_false_iff_not, ge_iff_le, UInt64.lt_iff_toNat_lt,
      UInt64.le_iff_toNat_le, Nat.not_le]
    exact ⟨fun apart own ownMember other otherMember => apart other otherMember own ownMember,
      fun apart bid bidMember ask askMember => apart ask askMember bid bidMember⟩

theorem uncrossed_new (itemTypeId : UInt32) : (OrderBook.new itemTypeId).Uncrossed := by
  rw [uncrossed_iff]
  simp [OrderBook.new]

section

variable (uncrossed : book.Uncrossed)
include uncrossed

theorem Uncrossed.mono {after : OrderBook} (bidsFrom : ∀ order ∈ after.bids.entries,
      ∃ original ∈ book.bids.entries, original.unitPrice = order.unitPrice)
    (asksFrom : ∀ order ∈ after.asks.entries,
      ∃ original ∈ book.asks.entries, original.unitPrice = order.unitPrice) :
    after.Uncrossed := by
  rw [uncrossed_iff] at uncrossed ⊢
  intro bid bidMember ask askMember
  obtain ⟨oldBid, oldBidMember, bidPrice⟩ := bidsFrom bid bidMember
  obtain ⟨oldAsk, oldAskMember, askPrice⟩ := asksFrom ask askMember
  rw [← bidPrice, ← askPrice]
  exact uncrossed oldBid oldBidMember oldAsk oldAskMember

theorem uncrossed_cancelOrder (orderId accountId : UInt64) :
    (book.cancelOrder orderId accountId).2.Uncrossed := by
  have removing : ∀ isBuy index order,
      (book.cancelSlot isBuy index order accountId).2.Uncrossed := by
    intro isBuy index order
    unfold cancelSlot
    split
    · exact uncrossed
    cases isBuy with
    | true =>
      refine uncrossed.mono (fun order member => ?_) (fun order member => ⟨order, member, rfl⟩)
      exact ⟨order, SlotArray.mem_entries_set_none member, rfl⟩
    | false =>
      refine uncrossed.mono (fun order member => ⟨order, member, rfl⟩) (fun order member => ?_)
      exact ⟨order, SlotArray.mem_entries_set_none member, rfl⟩
  unfold cancelOrder
  split
  · exact removing true _ _
  split
  · exact removing false _ _
  exact uncrossed

theorem uncrossed_matchLoop (currentTick : UInt64) (room : Nat) (incoming : MarketOrder) :
    (matchLoop currentTick room book incoming).book.Uncrossed := by
  rw [uncrossed_iff_side incoming.isBuy] at uncrossed ⊢
  rw [(matchLoop_frame currentTick room book incoming).2.1]
  intro own ownMember other otherMember
  obtain ⟨original, originalMember, _, samePrice⟩ := mem_matchLoop otherMember
  have apart := uncrossed own ownMember original originalMember
  unfold crosses at apart ⊢
  rwa [← samePrice]

/-- After resting an order in an uncrossed book, the book is uncrossed exactly if
the order crosses nothing on the other side. -/
theorem uncrossed_rested_iff {order : MarketOrder} {orders : BookSide} {count : Nat}
    (filled : (book.side order.isBuy).fillFirst? order = some orders) :
    (book.setSide order.isBuy orders count).Uncrossed ↔ book.matchQueue order = [] := by
  have entries := SlotArray.fillFirst?_entries filled
  have queueEmpty : book.matchQueue order = [] ↔
      ∀ other ∈ (book.side (!order.isBuy)).entries, crosses order other = false := by
    rw [eq_nil_iff_forall_not_mem]
    constructor
    · intro absent other member
      obtain ⟨index, held⟩ := SlotArray.mem_entries_iff_get?.mp member
      by_contra crossed
      exact absent (index, other) (mem_matchQueue.mpr ⟨held, by simpa using crossed⟩)
    intro apart slot member
    obtain ⟨held, crossed⟩ := mem_matchQueue.mp member
    rw [apart slot.2 (SlotArray.mem_entries_of_get? held)] at crossed
    cases crossed
  have other : (book.setSide order.isBuy orders count).side (!order.isBuy) =
      book.side (!order.isBuy) := by
    cases order.isBuy <;> rfl
  rw [queueEmpty, uncrossed_iff_side order.isBuy, side_setSide, other]
  constructor
  · intro apart
    exact apart order (entries.mem_iff.mpr mem_cons_self)
  intro apart own ownMember
  rcases mem_cons.mp (entries.mem_iff.mp ownMember) with rfl | old
  · exact apart
  exact (uncrossed_iff_side order.isBuy).mp uncrossed own old

end

/-- A call whose output slice is full before a resting limit order stops crossing:
the first `tradesLen` orders of the match queue do not fill it, more of the queue
is left, and the own side takes the remainder. -/
structure LeavesCrossedRemainder (book : OrderBook) (incoming : MarketOrder)
    (tradesLen : Nat) : Prop extends book.OpenLimit incoming tradesLen where
  queueLeft : tradesLen < (book.matchQueue incoming).length
  room : book.HasRoomFor incoming

theorem uncrossed_placeOrder_iff (uncrossed : book.Uncrossed) (incoming : MarketOrder)
    (tradesLen : Nat) (currentTick : UInt64) :
    (book.placeOrder incoming tradesLen currentTick).book.Uncrossed ↔
      ¬ book.LeavesCrossedRemainder incoming tradesLen := by
  have stillUncrossed := uncrossed_matchLoop uncrossed currentTick tradesLen incoming
  rcases book.placeOrder_cases incoming tradesLen currentTick with
    ⟨failure, rejected, outcome⟩ | ⟨result, finished, outcome⟩ |
    ⟨orders, opened, room, inserted, outcome⟩ | ⟨failure, opened, noRoom, outcome⟩
  · rw [outcome]
    exact iff_of_true uncrossed (fun crossed => rejected ⟨crossed.valid, crossed.limit⟩)
  · rw [outcome]
    exact iff_of_true stillUncrossed (fun crossed => finished crossed.toOpenLimit)
  · have unfilled := (matchLoop_unfilled_iff currentTick).mpr opened.unfilled
    rw [← restedOrder_isBuy currentTick tradesLen book incoming] at inserted
    rw [outcome, ← restedOrder_isBuy currentTick tradesLen book incoming,
      uncrossed_rested_iff stillUncrossed inserted,
      matchQueue_congr (restedOrder_isBuy currentTick tradesLen book incoming)
        (restedOrder_unitPrice currentTick tradesLen book incoming),
      matchLoop_queue unfilled, drop_eq_nil_iff]
    constructor
    · intro emptied crossed
      have left := crossed.queueLeft
      omega
    intro notCrossed
    by_contra left
    exact notCrossed ⟨opened, by omega, room⟩
  rw [outcome]
  exact iff_of_true stillUncrossed (fun crossed => noRoom crossed.room)

/-- The calls that change a book. -/
inductive BookEvent where
  | place (incoming : MarketOrder) (tradesLen : Nat) (currentTick : UInt64)
  | cancel (orderId accountId : UInt64)

def bookStep (book : OrderBook) : BookEvent → OrderBook
  | .place incoming tradesLen currentTick => (book.placeOrder incoming tradesLen currentTick).book
  | .cancel orderId accountId => (book.cancelOrder orderId accountId).2

/-- The call does not leave a crossed remainder. -/
def SliceSuffices (book : OrderBook) : BookEvent → Prop
  | .place incoming tradesLen _ => ¬ book.LeavesCrossedRemainder incoming tradesLen
  | .cancel _ _ => True

/-- A run leaves the book uncrossed throughout exactly if every output slice
suffices for the order it is used for. -/
theorem bookUncrossed_iff_slicesSuffice (itemTypeId : UInt32) (events : List BookEvent) :
    Throughout bookStep Uncrossed (OrderBook.new itemTypeId) events ↔
      EachStep bookStep SliceSuffices (OrderBook.new itemTypeId) events := by
  apply throughout_iff_eachStep_of_exact (uncrossed_new itemTypeId)
  intro book event uncrossed
  cases event with
  | place incoming tradesLen currentTick =>
    exact uncrossed_placeOrder_iff uncrossed incoming tradesLen currentTick
  | cancel orderId accountId =>
    exact iff_of_true (uncrossed_cancelOrder uncrossed orderId accountId) trivial

/-- A bid at the price of a resting ask, placed with an empty output slice, rests
beside that ask. -/
theorem bookCrossed_of_emptySlice : ¬ ∀ (itemTypeId : UInt32) (events : List BookEvent),
      Throughout bookStep Uncrossed (OrderBook.new itemTypeId) events := by
  intro never
  have crossed := (never 1001
    [.place (MarketOrder.new 1 10 1001 false 100 10 1 .limit 10 1000) 4 10,
      .place (MarketOrder.new 2 20 1001 true 100 10 1 .limit 20 1000) 0 20]).run
  exact absurd (crossed 100 100 (by decide) (by decide)) (by decide)

end OrderBook

end Eidolon.Core.Market
