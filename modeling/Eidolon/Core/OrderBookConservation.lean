import Eidolon.Core.OrderBookUncrossed
import Eidolon.Library.SlotTable

/-!
# What trades take from the book

A trade takes one quantity from the incoming order and from the resting order that it
names.  In a book whose orders have different identifiers and something left, the trades
of a call therefore account for every change of the side they are made with, slot by slot.
-/

namespace Eidolon.Core.Market

open Library List UInt32

def TradeExecution.makerId (trade : TradeExecution) (incomingIsBuy : Bool) : UInt64 :=
  if incomingIsBuy then trade.sellOrderId else trade.buyOrderId

def takenFrom (incomingIsBuy : Bool) (trades : List TradeExecution) (orderId : UInt64) : Nat :=
  ((trades.filter fun trade => trade.makerId incomingIsBuy = orderId).map
    fun trade => trade.quantity.toNat).sum

/-- A resting order that trades take a quantity from; it is gone when nothing is left. -/
def MarketOrder.less (order : MarketOrder) (taken : Nat) : Option MarketOrder :=
  if order.remainingQuantity.toNat = taken then
    none
  else
    some
      { order with
        remainingQuantity := UInt32.ofNat (order.remainingQuantity.toNat - taken)
        status := if taken = 0 then order.status else .partiallyFilled }

structure TradedSide (before after : BookSide) (taken : UInt64 → Nat) : Prop where
  free : ∀ index, before.get? index = none → after.get? index = none
  held : ∀ index resting, before.get? index = some resting →
    taken resting.orderId ≤ resting.remainingQuantity.toNat ∧
      after.get? index = resting.less (taken resting.orderId)

theorem takenFrom_cons (incomingIsBuy : Bool) (trade : TradeExecution)
    (trades : List TradeExecution) (orderId : UInt64) :
    takenFrom incomingIsBuy (trade :: trades) orderId =
      (if trade.makerId incomingIsBuy = orderId then trade.quantity.toNat else 0) +
        takenFrom incomingIsBuy trades orderId := by
  unfold takenFrom
  by_cases named : trade.makerId incomingIsBuy = orderId
  · rw [filter_cons_of_pos (by simpa using named), if_pos named]
    rfl
  rw [filter_cons_of_neg (by simpa using named), if_neg named, Nat.zero_add]

theorem takenFrom_eq_zero {incomingIsBuy : Bool} {trades : List TradeExecution}
    {orderId : UInt64} (absent : ∀ trade ∈ trades, trade.makerId incomingIsBuy ≠ orderId) :
    takenFrom incomingIsBuy trades orderId = 0 := by
  have noTrade : (trades.filter fun trade => trade.makerId incomingIsBuy = orderId) = [] := by
    rw [filter_eq_nil_iff]
    intro trade member
    simpa using absent trade member
  rw [takenFrom, noTrade]
  rfl

namespace MarketOrder

theorem less_zero {order : MarketOrder} (unfilled : order.remainingQuantity ≠ 0) :
    order.less 0 = some order := by
  have positive : order.remainingQuantity.toNat ≠ 0 := by
    rwa [Ne, ← UInt32.toNat_zero, UInt32.toNat_inj]
  rw [less, if_neg positive, Nat.sub_zero, UInt32.ofNat_toNat, if_pos rfl]

theorem less_orderId {order left : MarketOrder} {taken : Nat}
    (isLeft : order.less taken = some left) : left.orderId = order.orderId := by
  unfold less at isLeft
  split at isLeft
  · cases isLeft
  cases isLeft
  rfl

theorem less_less {order left : MarketOrder} {first second : Nat}
    (isLeft : order.less first = some left) (enough : first ≤ order.remainingQuantity.toNat)
    (more : second ≤ left.remainingQuantity.toNat) :
    first + second ≤ order.remainingQuantity.toNat ∧
      left.less second = order.less (first + second) := by
  unfold less at isLeft
  split at isLeft
  · cases isLeft
  have small : order.remainingQuantity.toNat - first < UInt32.size :=
    Nat.lt_of_le_of_lt (Nat.sub_le _ _) (toNat_lt order.remainingQuantity)
  have remaining : left.remainingQuantity.toNat = order.remainingQuantity.toNat - first := by
    cases isLeft
    exact UInt32.toNat_ofNat_of_lt' small
  refine ⟨by omega, ?_⟩
  unfold less
  rw [remaining]
  by_cases all : order.remainingQuantity.toNat = first + second
  · rw [if_pos all, if_pos (by omega)]
  rw [if_neg all, if_neg (by omega), Nat.sub_sub]
  cases isLeft
  by_cases noFirst : first = 0
  · simp [noFirst]
  simp [noFirst]

end MarketOrder

theorem slot_eq_of_orderId_eq {side : BookSide} (distinct : side.DistinctKeys MarketOrder.orderId)
    {index other : Nat} {left right : MarketOrder} (heldLeft : side.get? index = some left)
    (heldRight : side.get? other = some right) (same : left.orderId = right.orderId) :
    index = other := by
  by_contra different
  have whole := ((SlotArray.entries_set_none heldLeft).map MarketOrder.orderId).nodup_iff.mp
    distinct
  rw [map_cons, nodup_cons] at whole
  have still : (side.set index none).get? other = some right := by
    rw [SlotArray.get?_set_of_ne different, heldRight]
  apply whole.1
  rw [same]
  exact List.mem_map_of_mem (SlotArray.mem_entries_of_get? still)

namespace TradedSide

theorem refl {side : BookSide} (unfilled : ∀ order ∈ side.entries, order.remainingQuantity ≠ 0) :
    TradedSide side side fun _ => 0 := by
  refine ⟨fun _ free => free, ?_⟩
  intro index resting held
  refine ⟨Nat.zero_le _, ?_⟩
  rw [held, MarketOrder.less_zero (unfilled resting (SlotArray.mem_entries_of_get? held))]

theorem orderId_eq {before after : BookSide} {taken : UInt64 → Nat}
    (traded : TradedSide before after taken) {index : Nat} {left : MarketOrder}
    (isLeft : after.get? index = some left) :
    ∃ resting, before.get? index = some resting ∧ left.orderId = resting.orderId := by
  rcases held : before.get? index with _ | resting
  · rw [traded.free index held] at isLeft
    cases isLeft
  rw [(traded.held index resting held).2] at isLeft
  exact ⟨resting, rfl, MarketOrder.less_orderId isLeft⟩

theorem trans {before middle after : BookSide} {first second : UInt64 → Nat}
    (distinct : before.DistinctKeys MarketOrder.orderId)
    (early : TradedSide before middle first) (late : TradedSide middle after second)
    (absent : ∀ orderId, (∀ order ∈ middle.entries, order.orderId ≠ orderId) → second orderId = 0) :
    TradedSide before after fun orderId => first orderId + second orderId := by
  refine ⟨fun index free => late.free index (early.free index free), ?_⟩
  intro index resting held
  rcases early.held index resting held with ⟨enough, isLeft⟩
  cases middleHeld : middle.get? index with
  | none =>
    have gone : second resting.orderId = 0 := by
      apply absent
      intro order member same
      rcases SlotArray.mem_entries_iff_get?.mp member with ⟨other, otherHeld⟩
      rcases early.orderId_eq otherHeld with ⟨original, originalHeld, sameId⟩
      have place := slot_eq_of_orderId_eq distinct held originalHeld (same.symm.trans sameId)
      rw [← place, middleHeld] at otherHeld
      cases otherHeld
    rw [middleHeld] at isLeft
    simp only [gone, Nat.add_zero, ← isLeft]
    exact ⟨enough, late.free index middleHeld⟩
  | some left =>
    rw [middleHeld] at isLeft
    rcases late.held index left middleHeld with ⟨more, final⟩
    rw [MarketOrder.less_orderId isLeft.symm] at more final
    rcases MarketOrder.less_less isLeft.symm enough more with ⟨total, same⟩
    exact ⟨total, final.trans same⟩

end TradedSide

namespace OrderBook

/-- The counters are right, every resting order has something left, and the orders of a
side have different identifiers. -/
structure Sound (book : OrderBook) : Prop where
  counted : ∀ isBuy, book.count isBuy = (book.side isBuy).entries.length
  unfilled : ∀ isBuy, ∀ order ∈ (book.side isBuy).entries, order.remainingQuantity ≠ 0
  oneOrder : ∀ isBuy, (book.side isBuy).DistinctKeys MarketOrder.orderId

theorem sound_new (itemTypeId : UInt32) : (OrderBook.new itemTypeId).Sound := by
  have noEntries : ∀ isBuy, ((OrderBook.new itemTypeId).side isBuy).entries = [] := by
    intro isBuy
    cases isBuy <;> exact SlotArray.entries_empty
  refine ⟨?_, ?_, ?_⟩
  · intro isBuy
    cases isBuy <;> rfl
  · intro isBuy order member
    rw [noEntries] at member
    cases member
  intro isBuy
  rw [SlotArray.DistinctKeys, noEntries]
  exact nodup_nil

variable {book : OrderBook}

theorem Sound.replace {after : OrderBook} (sound : book.Sound) {isBuy : Bool} {orders : BookSide}
    (sideIs : after.side isBuy = orders) (countIs : after.count isBuy = orders.entries.length)
    (otherSide : after.side (!isBuy) = book.side (!isBuy))
    (otherCount : after.count (!isBuy) = book.count (!isBuy))
    (unfilled : ∀ order ∈ orders.entries, order.remainingQuantity ≠ 0)
    (oneOrder : orders.DistinctKeys MarketOrder.orderId) : after.Sound := by
  refine ⟨?_, ?_, ?_⟩
  · intro direction
    rcases Bool.eq_or_eq_not direction isBuy with own | other
    · rw [own, countIs, sideIs]
    rw [other, otherCount, otherSide]
    exact sound.counted _
  · intro direction
    rcases Bool.eq_or_eq_not direction isBuy with own | other
    · rw [own, sideIs]
      exact unfilled
    rw [other, otherSide]
    exact sound.unfilled _
  intro direction
  rcases Bool.eq_or_eq_not direction isBuy with own | other
  · rw [own, sideIs]
    exact oneOrder
  rw [other, otherSide]
  exact sound.oneOrder _

variable {order : MarketOrder}

theorem Sound.remove {after : OrderBook} (sound : book.Sound) {isBuy : Bool} {index : Nat}
    (held : (book.side isBuy).get? index = some order)
    (sideIs : after.side isBuy = (book.side isBuy).set index none)
    (countIs : after.count isBuy = book.count isBuy - 1)
    (otherSide : after.side (!isBuy) = book.side (!isBuy))
    (otherCount : after.count (!isBuy) = book.count (!isBuy)) : after.Sound := by
  have fewer := (SlotArray.entries_set_none held).length_eq
  rw [length_cons] at fewer
  refine sound.replace sideIs ?_ otherSide otherCount ?_ ?_
  · rw [countIs, sound.counted, fewer, Nat.add_sub_cancel]
  · exact fun other member => sound.unfilled isBuy other (SlotArray.mem_entries_set_none member)
  exact SlotArray.distinctKeys_set_none (sound.oneOrder isBuy) held

theorem sound_cancelOrder (sound : book.Sound) (orderId accountId : UInt64) :
    (book.cancelOrder orderId accountId).2.Sound := by
  have removing : ∀ isBuy index order, (book.side isBuy).get? index = some order →
      (book.cancelSlot isBuy index order accountId).2.Sound := by
    intro isBuy index order held
    unfold cancelSlot
    split
    · exact sound
    apply sound.remove held
    · rw [side_setSide]
    · rw [count_setSide]
    · rw [side_not_setSide]
    rw [count_not_setSide]
  unfold cancelOrder
  split
  · rename_i index order found
    exact removing true index order (SlotArray.findFirst?_eq_some found).1
  split
  · rename_i index order found
    exact removing false index order (SlotArray.findFirst?_eq_some found).1
  exact sound

theorem filledBook_side {book : OrderBook} {incoming resting : MarketOrder} {idx : Nat}
    (opened : incoming.remainingQuantity ≠ 0) (unfilled : resting.remainingQuantity ≠ 0) :
    (book.filledBook incoming idx resting).side (!incoming.isBuy) =
      (book.side (!incoming.isBuy)).set idx
        (resting.less (min incoming.remainingQuantity resting.remainingQuantity).toNat) := by
  rw [Ne, ← UInt32.toNat_inj, UInt32.toNat_zero] at opened unfilled
  have left := restingRemaining incoming resting
  have quantity := toNat_min incoming.remainingQuantity resting.remainingQuantity
  by_cases consumed : resting.remainingQuantity.toNat ≤ incoming.remainingQuantity.toNat
  · rw [filledBook_removed consumed, MarketOrder.less, if_pos (by omega)]
  have notNothing : resting.remainingQuantity -
      min incoming.remainingQuantity resting.remainingQuantity ≠ 0 := by
    rw [Ne, ← UInt32.toNat_inj, UInt32.toNat_zero]
    omega
  have same : resting.remainingQuantity - min incoming.remainingQuantity resting.remainingQuantity =
        UInt32.ofNat (resting.remainingQuantity.toNat -
          (min incoming.remainingQuantity resting.remainingQuantity).toNat) := by
    have difference : resting.remainingQuantity.toNat -
        (min incoming.remainingQuantity resting.remainingQuantity).toNat =
          (resting.remainingQuantity -
            min incoming.remainingQuantity resting.remainingQuantity).toNat := by
      omega
    rw [difference, UInt32.ofNat_toNat]
  rw [MarketOrder.less, if_neg (by omega), if_neg (by omega), ← same]
  simp [filledBook, notNothing]

theorem filledBook_otherCount (book : OrderBook) (incoming : MarketOrder) (idx : Nat)
    (resting : MarketOrder) :
    (book.filledBook incoming idx resting).count (!incoming.isBuy) =
      if resting.remainingQuantity.toNat ≤ incoming.remainingQuantity.toNat then
        book.count (!incoming.isBuy) - 1
      else
        book.count (!incoming.isBuy) := by
  have left := restingRemaining incoming resting
  unfold filledBook
  simp only []
  split
  · rename_i nothing
    rw [nothing, UInt32.toNat_zero] at left
    rw [count_setSide, if_pos (by omega)]
  rename_i something
  rw [← UInt32.toNat_inj, UInt32.toNat_zero] at something
  rw [count_setSide, if_neg (by omega)]

section Trade

variable {book : OrderBook} (sound : book.Sound) {incoming resting : MarketOrder} {idx : Nat}
  (held : (book.side (!incoming.isBuy)).get? idx = some resting)
  (opened : incoming.remainingQuantity ≠ 0)

include sound held opened

theorem sound_filledBook : (book.filledBook incoming idx resting).Sound := by
  have ownSide := filledBook_own book incoming idx resting
  have ownCount := filledBook_ownCount book incoming idx resting
  have otherSide := @filledBook_side book incoming resting idx opened
    (sound.unfilled _ resting (SlotArray.mem_entries_of_get? held))
  have otherCount := filledBook_otherCount book incoming idx resting
  rw [← Bool.not_not incoming.isBuy] at ownSide ownCount
  have quantity := toNat_min incoming.remainingQuantity resting.remainingQuantity
  cases rest : resting.less (min incoming.remainingQuantity resting.remainingQuantity).toNat with
  | none =>
    rw [rest] at otherSide
    apply sound.remove held otherSide _ ownSide ownCount
    unfold MarketOrder.less at rest
    split at rest
    · rw [otherCount, if_pos (by omega)]
    cases rest
  | some changed =>
    rw [rest] at otherSide
    have sameId := MarketOrder.less_orderId rest
    unfold MarketOrder.less at rest
    split at rest
    · cases rest
    have something : changed.remainingQuantity ≠ 0 := by
      have small : resting.remainingQuantity.toNat -
          (min incoming.remainingQuantity resting.remainingQuantity).toNat <
            UInt32.size :=
        Nat.lt_of_le_of_lt (Nat.sub_le _ _) (toNat_lt resting.remainingQuantity)
      cases rest
      rw [Ne, ← UInt32.toNat_inj, UInt32.toNat_ofNat_of_lt' small, UInt32.toNat_zero]
      omega
    have sameLength := SlotArray.length_entries_replace held changed
    apply sound.replace otherSide _ ownSide ownCount
    · intro order member
      rcases SlotArray.mem_entries_set_some member with new | old
      · rw [new]
        exact something
      exact sound.unfilled _ order old
    · exact (SlotArray.set_some_spec (sound.oneOrder _) held sameId).1
    rw [otherCount, if_neg (by omega), sameLength]
    exact sound.counted _

theorem tradedSide_filledBook : TradedSide (book.side (!incoming.isBuy))
      ((book.filledBook incoming idx resting).side (!incoming.isBuy))
      fun orderId =>
        if resting.orderId = orderId then
          (min incoming.remainingQuantity resting.remainingQuantity).toNat
        else 0 := by
  have inside := SlotArray.lt_of_get? held
  have unfilled := sound.unfilled _ resting (SlotArray.mem_entries_of_get? held)
  rw [filledBook_side opened unfilled]
  refine ⟨?_, ?_⟩
  · intro index free
    have elsewhere : idx ≠ index := by
      intro same
      rw [← same, held] at free
      cases free
    rw [SlotArray.get?_set_of_ne elsewhere, free]
  intro index other otherHeld
  by_cases place : idx = index
  · subst place
    rw [held] at otherHeld
    cases otherHeld
    rw [if_pos rfl, SlotArray.get?_set_self inside, toNat_min]
    exact ⟨Nat.min_le_right _ _, rfl⟩
  have different : resting.orderId ≠ other.orderId := fun same =>
    place (slot_eq_of_orderId_eq (sound.oneOrder _) held otherHeld same)
  rw [if_neg different, SlotArray.get?_set_of_ne place, otherHeld,
    MarketOrder.less_zero (sound.unfilled _ other (SlotArray.mem_entries_of_get? otherHeld))]
  exact ⟨Nat.zero_le _, rfl⟩

end Trade

def bidLimit (incoming resting : MarketOrder) : UInt64 :=
  if incoming.isBuy then incoming.unitPrice else resting.unitPrice

def askLimit (incoming resting : MarketOrder) : UInt64 :=
  if incoming.isBuy then resting.unitPrice else incoming.unitPrice

def WithinLimits (book : OrderBook) (incoming : MarketOrder) (trade : TradeExecution) : Prop :=
  ∃ resting ∈ (book.side (!incoming.isBuy)).entries,
    trade.makerId incoming.isBuy = resting.orderId ∧
      askLimit incoming resting ≤ trade.unitPrice ∧ trade.unitPrice ≤ bidLimit incoming resting

structure Exchanged (book after : OrderBook) (incoming left : MarketOrder)
    (trades : List TradeExecution) : Prop where
  positive : ∀ trade ∈ trades, 0 < trade.quantity.toNat
  quantities : (trades.map fun trade => trade.quantity.toNat).sum +
    left.remainingQuantity.toNat = incoming.remainingQuantity.toNat
  otherSide : TradedSide (book.side (!incoming.isBuy)) (after.side (!incoming.isBuy))
    (takenFrom incoming.isBuy trades)
  limits : ∀ trade ∈ trades, WithinLimits book incoming trade

theorem makerId_tradeExecution (book : OrderBook) (incoming resting : MarketOrder)
    (currentTick : UInt64) :
    (book.tradeExecution incoming resting currentTick).makerId incoming.isBuy =
      resting.orderId := by
  unfold TradeExecution.makerId tradeExecution
  cases incoming.isBuy <;> rfl

theorem withinLimits_tradeExecution {incoming resting : MarketOrder}
    (member : resting ∈ (book.side (!incoming.isBuy)).entries)
    (crossed : crosses incoming resting = true) (currentTick : UInt64) :
    WithinLimits book incoming (book.tradeExecution incoming resting currentTick) := by
  refine ⟨resting, member, makerId_tradeExecution book incoming resting currentTick, ?_⟩
  unfold crosses at crossed
  unfold askLimit bidLimit tradeExecution
  cases direction : incoming.isBuy with
  | true =>
    rw [direction] at crossed
    exact ⟨UInt64.le_refl _, of_decide_eq_true crossed⟩
  | false =>
    rw [direction] at crossed
    exact ⟨of_decide_eq_true crossed, UInt64.le_refl _⟩

theorem sound_matchLoop (sound : book.Sound) (currentTick : UInt64) (room : Nat)
    (incoming : MarketOrder) : (matchLoop currentTick room book incoming).book.Sound := by
  induction room, book, incoming using matchLoop_induction currentTick with
  | idle room book incoming _ nothing =>
    rw [nothing]
    exact sound
  | trade room book incoming head rest notFilled _ held loop ih =>
    rw [loop]
    exact ih (sound_filledBook sound held notFilled)

theorem Exchanged.refl (sound : book.Sound) (incoming : MarketOrder) :
    Exchanged book book incoming incoming [] := by
  refine ⟨?_, Nat.zero_add _, TradedSide.refl (sound.unfilled _), ?_⟩
  · intro trade member
    cases member
  intro trade member
  cases member

theorem quantities_matchLoop (currentTick : UInt64) (room : Nat) (book : OrderBook)
    (incoming : MarketOrder) :
    let result := matchLoop currentTick room book incoming
    (result.trades.map fun trade => trade.quantity.toNat).sum +
      result.incoming.remainingQuantity.toNat = incoming.remainingQuantity.toNat := by
  induction room, book, incoming using matchLoop_induction currentTick with
  | idle room book incoming _ nothing =>
    rw [nothing]
    exact Nat.zero_add _
  | trade room book incoming head rest _ _ _ loop ih =>
    have quantity : (book.tradeExecution incoming head.2 currentTick).quantity.toNat =
        min incoming.remainingQuantity.toNat head.2.remainingQuantity.toNat :=
      toNat_min _ _
    rw [loop]
    simp only [filledIncoming_remaining] at ih
    simp only [map_cons, sum_cons, quantity]
    omega

theorem exchanged_matchLoop (sound : book.Sound) (currentTick : UInt64) (room : Nat)
    (incoming : MarketOrder) :
    let result := matchLoop currentTick room book incoming
    Exchanged book result.book incoming result.incoming result.trades := by
  induction room, book, incoming using matchLoop_induction currentTick with
  | idle room book incoming _ nothing =>
    rw [nothing]
    exact Exchanged.refl sound incoming
  | trade room book incoming head rest notFilled queue held loop ih =>
    have headMember : head ∈ book.matchQueue incoming := queue ▸ mem_cons_self
    have crossed := (mem_matchQueue.mp headMember).2
    have resting := SlotArray.mem_entries_of_get? held
    have later := ih (sound_filledBook sound held notFilled)
    have quantity : (book.tradeExecution incoming head.2 currentTick).quantity.toNat =
        min incoming.remainingQuantity.toNat head.2.remainingQuantity.toNat :=
      toNat_min _ _
    have unfilled : head.2.remainingQuantity.toNat ≠ 0 := by
      intro nothing
      exact sound.unfilled _ head.2 resting
        (UInt32.toNat_inj.mp (nothing.trans UInt32.toNat_zero.symm))
    refine ⟨?_, quantities_matchLoop currentTick (room + 1) book incoming, ?_, ?_⟩
    · rw [loop]
      intro trade member
      rcases List.mem_cons.mp member with first | after
      · rw [Ne, ← UInt32.toNat_inj, UInt32.toNat_zero] at notFilled
        rw [first]
        omega
      exact later.positive trade after
    · rw [loop]
      have early := tradedSide_filledBook sound held notFilled
      have both := early.trans (sound.oneOrder _) later.otherSide ?_
      · have same : takenFrom incoming.isBuy (book.tradeExecution incoming head.2 currentTick ::
              (matchLoop currentTick room (book.filledBook incoming head.1 head.2)
                (filledIncoming incoming head.2)).trades) = _ :=
          funext fun orderId => by
            rw [takenFrom_cons, makerId_tradeExecution]
        rw [same]
        exact both
      -- a later trade is with an order that is still there
      intro orderId absent
      apply takenFrom_eq_zero
      intro trade member isMaker
      rcases later.limits trade member with ⟨order, orderMember, named, _⟩
      exact absent order orderMember (named.symm.trans isMaker)
    rw [loop]
    intro trade member
    rcases List.mem_cons.mp member with first | after
    · rw [first]
      exact withinLimits_tradeExecution resting crossed currentTick
    rcases later.limits trade after with ⟨order, orderMember, named, above, below⟩
    rcases mem_filledBook held orderMember with
      ⟨original, originalMember, sameId, samePrice⟩
    refine ⟨original, originalMember, named.trans sameId.symm, ?_⟩
    unfold askLimit bidLimit
    rw [samePrice]
    exact ⟨above, below⟩

theorem insertRestingOrder_ok {after : OrderBook}
    (rested : book.insertRestingOrder order = .ok after) :
    ∃ orders, book.HasRoomFor order ∧ (book.side order.isBuy).fillFirst? order = some orders ∧
      after = book.setSide order.isBuy orders (book.count order.isBuy + 1) := by
  by_cases room : book.HasRoomFor order
  · rcases insertRestingOrder_of_hasRoom room with ⟨orders, inserted, accepted⟩
    rw [accepted] at rested
    exact ⟨orders, room, inserted, (Except.ok.inj rested).symm⟩
  rcases insertRestingOrder_error_of_noRoom room with ⟨failure, refused⟩
  rw [refused] at rested
  cases rested

theorem sound_insertRestingOrder {after : OrderBook} (sound : book.Sound)
    (unfilled : order.remainingQuantity ≠ 0) (rested : book.insertRestingOrder order = .ok after) :
    after.Sound := by
  rcases insertRestingOrder_ok rested with ⟨orders, room, inserted, afterIs⟩
  have entries := SlotArray.fillFirst?_entries inserted
  have otherSide : after.side (!order.isBuy) = book.side (!order.isBuy) := by
    rw [afterIs, side_not_setSide]
  have otherCount : after.count (!order.isBuy) = book.count (!order.isBuy) := by
    rw [afterIs, count_not_setSide]
  have sideIs : after.side order.isBuy = orders := by
    rw [afterIs, side_setSide]
  have countIs : after.count order.isBuy = orders.entries.length := by
    rw [afterIs, count_setSide, entries.length_eq, length_cons, sound.counted]
  apply sound.replace sideIs countIs otherSide otherCount
  · intro resting member
    rcases List.mem_cons.mp (entries.mem_iff.mp member) with new | old
    · rw [new]
      exact unfilled
    exact sound.unfilled _ resting old
  exact (SlotArray.fillFirst?_spec (sound.oneOrder _) inserted
    (SlotArray.lookup_eq_none_iff.mpr room.fresh)).1

def OwnSide (book after : OrderBook) (incoming final : MarketOrder) : Prop :=
  if incoming.orderType = .limit ∧ final.remainingQuantity ≠ 0 then
    (book.side incoming.isBuy).fillFirst? final = some (after.side incoming.isBuy)
  else
    after.side incoming.isBuy = book.side incoming.isBuy

/-- A call that returns `Ok` writes the trades it counts, and they and the returned order
account for all that has changed. -/
structure Conserves (book : OrderBook) (incoming : MarketOrder) (outcome : PlaceOutcome)
    (tradeCount : Nat) (final : MarketOrder) : Prop where
  counted : outcome.tradesOut.length = tradeCount
  exchanged : Exchanged book outcome.book incoming final outcome.tradesOut
  ownSide : OwnSide book outcome.book incoming final

theorem finalizeOrder_ok {matched : MatchResult} {tradeCount : Nat} {final : MarketOrder}
    (returned : (finalizeOrder matched).result = .ok (tradeCount, final)) :
    (finalizeOrder matched).tradesOut = matched.trades ∧ tradeCount = matched.trades.length ∧
      final = { matched.incoming with status := final.status } ∧
      if matched.incoming.orderType = .limit ∧ final.remainingQuantity ≠ 0 then
        matched.book.insertRestingOrder final = .ok (finalizeOrder matched).book
      else
        (finalizeOrder matched).book = matched.book := by
  by_cases filled : matched.incoming.remainingQuantity = 0
  · have shape : finalizeOrder matched =
        ⟨.ok (matched.trades.length, { matched.incoming with status := .filled }),
          matched.trades, matched.book⟩ := by
      simp only [finalizeOrder, if_pos filled]
    rw [shape] at returned ⊢
    cases returned
    rw [if_neg fun resting => resting.2 filled]
    exact ⟨rfl, rfl, rfl, rfl⟩
  cases kind : matched.incoming.orderType with
  | immediateOrCancel =>
    have shape : finalizeOrder matched = ⟨.ok (matched.trades.length,
            { matched.incoming with status := unfilledStatus matched.trades .cancelled }),
          matched.trades, matched.book⟩ := by
      simp only [finalizeOrder, if_neg filled, kind]
    rw [shape] at returned ⊢
    cases returned
    exact ⟨rfl, rfl, rfl, rfl⟩
  | fillOrKill =>
    have shape : finalizeOrder matched =
        ⟨.ok (matched.trades.length, matched.incoming), matched.trades, matched.book⟩ := by
      simp only [finalizeOrder, if_neg filled, kind]
    rw [shape] at returned ⊢
    cases returned
    exact ⟨rfl, rfl, rfl, rfl⟩
  | limit =>
    rcases rested : matched.book.insertRestingOrder (restedOrder matched) with failure | book
    · have shape : finalizeOrder matched = ⟨.error failure, matched.trades, matched.book⟩ := by
        simp only [finalizeOrder, if_neg filled, kind, rested]
      rw [shape] at returned
      cases returned
    have shape : finalizeOrder matched =
        ⟨.ok (matched.trades.length, restedOrder matched), matched.trades, book⟩ := by
      simp only [finalizeOrder, if_neg filled, kind, rested]
    rw [shape] at returned ⊢
    cases returned
    rw [if_pos ⟨rfl, filled⟩]
    exact ⟨rfl, rfl, rfl, rested⟩

theorem finalizeOrder_book (matched : MatchResult) : (finalizeOrder matched).book = matched.book ∨
      ((restedOrder matched).remainingQuantity ≠ 0 ∧
        matched.book.insertRestingOrder (restedOrder matched) =
          .ok (finalizeOrder matched).book) := by
  simp only [finalizeOrder]
  split
  · exact Or.inl rfl
  rename_i unfilled
  split
  · exact Or.inl rfl
  · cases rested : matched.book.insertRestingOrder (restedOrder matched) with
    | error failure => exact Or.inl rfl
    | ok book => exact Or.inr ⟨unfilled, rfl⟩
  exact Or.inl rfl

theorem sound_placeOrder (sound : book.Sound) (incoming : MarketOrder) (tradesLen : Nat)
    (currentTick : UInt64) : (book.placeOrder incoming tradesLen currentTick).book.Sound := by
  have matchedSound := sound_matchLoop sound currentTick tradesLen incoming
  unfold placeOrder
  split
  · exact sound
  split
  · exact sound
  rcases finalizeOrder_book (matchLoop currentTick tradesLen book incoming) with
    unchanged | ⟨unfilled, rested⟩
  · rw [unchanged]
    exact matchedSound
  exact sound_insertRestingOrder matchedSound unfilled rested

theorem conserves_placeOrder (sound : book.Sound) {incoming : MarketOrder} {tradesLen : Nat}
    {currentTick : UInt64} {tradeCount : Nat} {final : MarketOrder}
    (returned : (book.placeOrder incoming tradesLen currentTick).result = .ok (tradeCount, final)) :
    Conserves book incoming (book.placeOrder incoming tradesLen currentTick) tradeCount final := by
  have exchanged := exchanged_matchLoop sound currentTick tradesLen incoming
  have frame := matchLoop_frame currentTick tradesLen book incoming
  unfold placeOrder at returned ⊢
  split at returned
  · cases returned
  rename_i valid
  split at returned
  · cases returned
  rename_i admitted
  rw [if_neg valid, if_neg admitted]
  generalize matchLoop currentTick tradesLen book incoming = matched at *
  rcases frame with ⟨sameOrder, ownSide, _⟩
  rcases finalizeOrder_ok returned with ⟨trades, counted, finalIs, rested⟩
  have sameType : matched.incoming.orderType = incoming.orderType := by
    rw [sameOrder]
  have sameSide : final.isBuy = incoming.isBuy := by
    rw [finalIs, sameOrder]
  have sameRemaining : final.remainingQuantity = matched.incoming.remainingQuantity := by
    rw [finalIs]
  rw [sameType] at rested
  have sides : (finalizeOrder matched).book.side (!incoming.isBuy) =
        matched.book.side (!incoming.isBuy) ∧
      OwnSide book (finalizeOrder matched).book incoming final := by
    unfold OwnSide
    split at rested
    · rename_i rests
      rcases insertRestingOrder_ok rested with ⟨orders, _, inserted, afterIs⟩
      rw [sameSide] at inserted afterIs
      rw [if_pos rests, afterIs, side_setSide, ← ownSide, inserted]
      refine ⟨?_, rfl⟩
      cases incoming.isBuy <;> rfl
    rename_i doesNotRest
    rw [if_neg doesNotRest, rested]
    exact ⟨rfl, ownSide⟩
  refine ⟨?_, ?_, sides.2⟩
  · rw [trades, counted]
  rw [trades]
  refine ⟨exchanged.positive, ?_, ?_, exchanged.limits⟩
  · rw [sameRemaining]
    exact exchanged.quantities
  rw [sides.1]
  exact exchanged.otherSide

/-- What a call that returns `Ok` should do. -/
def PlacesExactly (book : OrderBook) : BookEvent → Prop
  | .place incoming tradesLen currentTick =>
    ∀ tradeCount final, (book.placeOrder incoming tradesLen currentTick).result =
      .ok (tradeCount, final) →
        Conserves book incoming (book.placeOrder incoming tradesLen currentTick) tradeCount final
  | .cancel _ _ => True

/-- In every run the book stays in good order and every order that is placed conserves
quantities. -/
theorem conserves_throughout (itemTypeId : UInt32) (events : List BookEvent) :
    Throughout bookStep Sound (OrderBook.new itemTypeId) events ∧
      EachStep bookStep PlacesExactly (OrderBook.new itemTypeId) events := by
  have preserved : ∀ (book : OrderBook) (event : BookEvent),
      book.Sound → True → (bookStep book event).Sound := by
    intro book event sound _
    cases event with
    | place incoming tradesLen currentTick =>
      exact sound_placeOrder sound incoming tradesLen currentTick
    | cancel orderId accountId => exact sound_cancelOrder sound orderId accountId
  have correct : ∀ (book : OrderBook) (event : BookEvent),
      book.Sound → True → PlacesExactly book event := by
    intro book event sound _
    cases event with
    | place incoming tradesLen currentTick =>
      exact fun _ _ returned => conserves_placeOrder sound returned
    | cancel orderId accountId => trivial
  have allowed : EachStep bookStep (fun _ _ => True) (OrderBook.new itemTypeId) events :=
    eachStep_of_forall (fun _ _ => trivial) _
  exact ⟨throughout_of_eachStep preserved (sound_new itemTypeId) allowed,
    eachStep_of_invariant preserved correct (sound_new itemTypeId) allowed⟩

end OrderBook

end Eidolon.Core.Market
