import Eidolon.Core.OrderBook
import Eidolon.Library.Priority

/-!
# What the matching loop does

The orders an incoming order can be matched against, sorted by price and time, form
its match queue.  The search of the loop returns the head of this queue, and a trade
that fills the resting order removes it.  So the loop consumes the queue from the
front until the output slice is full, the order is filled or the queue is empty.
-/

namespace Eidolon.Core.Market

open Library List

namespace OrderBook

variable (book : OrderBook) (isBuy : Bool) (orders : BookSide) (count : Nat)

@[simp]
theorem side_setSide : (book.setSide isBuy orders count).side isBuy = orders := by
  cases isBuy <;> rfl

@[simp]
theorem side_setSide_other : (book.setSide (!isBuy) orders count).side isBuy = book.side isBuy := by
  cases isBuy <;> rfl

@[simp]
theorem count_setSide : (book.setSide isBuy orders count).count isBuy = count := by
  cases isBuy <;> rfl

@[simp]
theorem side_not_setSide :
    (book.setSide isBuy orders count).side (!isBuy) = book.side (!isBuy) := by
  cases isBuy <;> rfl

@[simp]
theorem count_not_setSide :
    (book.setSide isBuy orders count).count (!isBuy) = book.count (!isBuy) := by
  cases isBuy <;> rfl

variable (incomingIsBuy : Bool)

/-- Price-time priority; slots break the tie between orders of one tick. -/
def precedes (left right : Nat × MarketOrder) : Prop :=
  betterPrice incomingIsBuy left.2.unitPrice right.2.unitPrice ∨
    (left.2.unitPrice = right.2.unitPrice ∧ (left.2.placedTick < right.2.placedTick ∨
        (left.2.placedTick = right.2.placedTick ∧ left.1 ≤ right.1)))

instance (incomingIsBuy : Bool) : DecidableRel (precedes incomingIsBuy) :=
  fun _ _ => inferInstanceAs (Decidable (_ ∨ _))

/-- The resting orders on the other side that the incoming order crosses. -/
def crossing (incoming : MarketOrder) : List (Nat × MarketOrder) :=
  (book.side (!incoming.isBuy)).indexed.filter fun slot => crosses incoming slot.2

def matchQueue (incoming : MarketOrder) : List (Nat × MarketOrder) :=
  inPriority (precedes incoming.isBuy) (book.crossing incoming)

def volume (orders : List (Nat × MarketOrder)) : Nat :=
  (orders.map fun slot => slot.2.remainingQuantity.toNat).sum

@[simp]
theorem volume_nil : volume [] = 0 :=
  rfl

@[simp]
theorem volume_cons (slot : Nat × MarketOrder) (orders : List (Nat × MarketOrder)) :
    volume (slot :: orders) = slot.2.remainingQuantity.toNat + volume orders := by
  simp [volume]

variable {book : OrderBook} {incoming : MarketOrder}

theorem mem_crossing {slot : Nat × MarketOrder} : slot ∈ book.crossing incoming ↔
      (book.side (!incoming.isBuy)).get? slot.1 = some slot.2 ∧ crosses incoming slot.2 = true := by
  rw [crossing, mem_filter, ← SlotArray.mem_indexed]

theorem mem_matchQueue {slot : Nat × MarketOrder} : slot ∈ book.matchQueue incoming ↔
      (book.side (!incoming.isBuy)).get? slot.1 = some slot.2 ∧ crosses incoming slot.2 = true := by
  rw [matchQueue, mem_inPriority, mem_crossing]

theorem precedes_total (left right : Nat × MarketOrder) :
    precedes incomingIsBuy left right ∨ precedes incomingIsBuy right left := by
  cases incomingIsBuy <;> simp only [precedes, betterPrice, if_true, Bool.false_eq_true, if_false,
      decide_eq_true_eq, gt_iff_lt, UInt64.lt_iff_toNat_lt, ← UInt64.toNat_inj] <;>
    omega

theorem precedes_trans (first second third : Nat × MarketOrder)
    (before : precedes incomingIsBuy first second) (after : precedes incomingIsBuy second third) :
    precedes incomingIsBuy first third := by
  revert before after
  cases incomingIsBuy <;> simp only [precedes, betterPrice, if_true, Bool.false_eq_true, if_false,
      decide_eq_true_eq, gt_iff_lt, UInt64.lt_iff_toNat_lt, ← UInt64.toNat_inj] <;>
    omega

private theorem precedes_index_eq {incomingIsBuy : Bool} {left right : Nat × MarketOrder}
    (before : precedes incomingIsBuy left right)
    (after : precedes incomingIsBuy right left) : left.1 = right.1 := by
  revert before after
  cases incomingIsBuy <;> simp only [precedes, betterPrice, if_true, Bool.false_eq_true, if_false,
      decide_eq_true_eq, gt_iff_lt, UInt64.lt_iff_toNat_lt, ← UInt64.toNat_inj] <;>
    omega

private theorem crossing_antisymmetric {left right : Nat × MarketOrder}
    (leftMember : left ∈ book.crossing incoming) (rightMember : right ∈ book.crossing incoming)
    (before : precedes incoming.isBuy left right) (after : precedes incoming.isBuy right left) :
    left = right := by
  have sameSlot := precedes_index_eq before after
  have leftHeld := (mem_crossing.mp leftMember).1
  have rightHeld := (mem_crossing.mp rightMember).1
  rw [sameSlot, rightHeld] at leftHeld
  exact Prod.ext sameSlot (Option.some.inj leftHeld).symm

private def slotKey (slot : Nat × MarketOrder) : Nat × UInt64 × UInt64 :=
  (slot.1, slot.2.unitPrice, slot.2.placedTick)

private theorem foldl_considerResting (incoming : MarketOrder) :
    ∀ (slots : List (Nat × MarketOrder)) (best : Option (Nat × UInt64 × UInt64)),
      slots.foldl (considerResting incoming) best =
        ((slots.filter fun slot => crosses incoming slot.2).map slotKey).foldl
          (keepBest (betterOrder incoming.isBuy)) best
  | [], _ => rfl
  | slot :: rest, best => by
      rw [foldl_cons, foldl_considerResting incoming rest]
      by_cases crossed : crosses incoming slot.2 = true
      · simp only [filter_cons, crossed, if_true, map_cons, foldl_cons]
        rcases best with _ | current
        · simp [considerResting, crossed, keepBest, slotKey]
        simp only [considerResting, crossed, if_true, keepBest]
        rfl
      simp [considerResting, crossed]

private theorem crossing_decided (book : OrderBook) (incoming : MarketOrder) :
    (book.crossing incoming).Pairwise
      (Decides (fun a b => betterOrder incoming.isBuy (slotKey a) (slotKey b))
        (precedes incoming.isBuy)) := by
  refine List.Pairwise.imp ?_
    ((book.side (!incoming.isBuy)).indexed_pairwise.sublist filter_sublist)
  intro earlier later ordered
  cases incoming.isBuy <;> simp only [Decides, betterOrder, slotKey, precedes, betterPrice, if_true,
      Bool.false_eq_true, if_false, Bool.or_eq_true, Bool.and_eq_true, beq_iff_eq,
      decide_eq_true_eq, gt_iff_lt, UInt64.lt_iff_toNat_lt, ← UInt64.toNat_inj] <;>
    split <;> omega

theorem bestMatchIdx_eq (book : OrderBook) (incoming : MarketOrder) :
    book.bestMatchIdx incoming = (book.matchQueue incoming).head?.map Prod.fst := by
  have scan : book.bestMatchIdx incoming =
        (firstBest (fun a b => betterOrder incoming.isBuy (slotKey a) (slotKey b))
          (book.crossing incoming)).map Prod.fst := by
    rw [bestMatchIdx, foldl_considerResting]
    change (firstBest _ ((book.crossing incoming).map slotKey)).map _ = _
    rw [firstBest_map, Option.map_map]
    rfl
  rw [scan, matchQueue]
  by_cases nothing : book.crossing incoming = []
  · rw [nothing]
    rfl
  obtain ⟨best, found, member, least⟩ :=
    firstBest_spec (fun slot => (precedes_total incoming.isBuy slot slot).elim id id)
      (precedes_trans incoming.isBuy) (book.crossing_decided incoming) nothing
  obtain ⟨before, after, split⟩ := mem_iff_append.mp member
  have exposed : (book.crossing incoming).Perm (best :: (before ++ after)) := by
    rw [split]
    exact perm_middle
  rw [found, inPriority_eq_cons (precedes_total incoming.isBuy) (precedes_trans incoming.isBuy)
    (fun left leftMember right rightMember =>
      crossing_antisymmetric leftMember rightMember) exposed least]
  rfl

theorem matchQueue_congr {other : MarketOrder} (sameSide : other.isBuy = incoming.isBuy)
    (samePrice : other.unitPrice = incoming.unitPrice) :
    book.matchQueue other = book.matchQueue incoming := by
  unfold matchQueue crossing crosses
  rw [sameSide, samePrice]

theorem matchQueue_tail {head : Nat × MarketOrder} {rest : List (Nat × MarketOrder)}
    (queue : book.matchQueue incoming = head :: rest) (after : OrderBook)
    (removed : after.side (!incoming.isBuy) = (book.side (!incoming.isBuy)).set head.1 none) :
    after.matchQueue incoming = rest := by
  have headMember : head ∈ book.matchQueue incoming := queue ▸ mem_cons_self
  obtain ⟨held, crossed⟩ := mem_matchQueue.mp headMember
  have exposed : (book.crossing incoming).Perm (head :: after.crossing incoming) := by
    unfold crossing
    rw [removed]
    have filtered :=
      (SlotArray.indexed_set_none held).filter (fun slot => crosses incoming slot.2)
    rwa [filter_cons_of_pos (by exact crossed)] at filtered
  have least : ∀ other ∈ book.crossing incoming, precedes incoming.isBuy head other := by
    have sorted := inPriority_pairwise (precedes_total incoming.isBuy)
      (precedes_trans incoming.isBuy) (book.crossing incoming)
    rw [← matchQueue, queue] at sorted
    intro other member
    have queued : other ∈ head :: rest := by
      rw [← queue, matchQueue, mem_inPriority]
      exact member
    rcases mem_cons.mp queued with rfl | later
    · exact (precedes_total incoming.isBuy other other).elim id id
    exact (pairwise_cons.mp sorted).1 other later
  have sorted :=
    inPriority_eq_cons (precedes_total incoming.isBuy) (precedes_trans incoming.isBuy)
      (fun left leftMember right rightMember =>
        crossing_antisymmetric leftMember rightMember) exposed least
  rw [← matchQueue, queue] at sorted
  exact (cons.inj sorted).2.symm

theorem filledIncoming_remaining (incoming resting : MarketOrder) :
    (filledIncoming incoming resting).remainingQuantity.toNat =
      incoming.remainingQuantity.toNat - resting.remainingQuantity.toNat := by
  have smaller : min incoming.remainingQuantity resting.remainingQuantity ≤
      incoming.remainingQuantity := by
    rw [UInt32.le_iff_toNat_le, UInt32.toNat_min]
    exact Nat.min_le_left _ _
  rw [filledIncoming, UInt32.toNat_sub_of_le _ _ smaller, UInt32.toNat_min]
  omega

@[simp]
theorem matchQueue_filledIncoming (book : OrderBook) (incoming resting : MarketOrder) :
    book.matchQueue (filledIncoming incoming resting) = book.matchQueue incoming :=
  matchQueue_congr rfl rfl

theorem restingRemaining (incoming resting : MarketOrder) : (resting.remainingQuantity -
        min incoming.remainingQuantity resting.remainingQuantity).toNat =
      resting.remainingQuantity.toNat - incoming.remainingQuantity.toNat := by
  have smaller : min incoming.remainingQuantity resting.remainingQuantity ≤
      resting.remainingQuantity := by
    rw [UInt32.le_iff_toNat_le, UInt32.toNat_min]
    exact Nat.min_le_right _ _
  rw [UInt32.toNat_sub_of_le _ _ smaller, UInt32.toNat_min]
  omega

@[simp]
theorem filledBook_own (book : OrderBook) (incoming : MarketOrder) (idx : Nat)
    (resting : MarketOrder) :
    (book.filledBook incoming idx resting).side incoming.isBuy = book.side incoming.isBuy := by
  unfold filledBook
  cases incoming.isBuy <;> simp only [] <;> split <;> rfl

@[simp]
theorem filledBook_ownCount (book : OrderBook) (incoming : MarketOrder) (idx : Nat)
    (resting : MarketOrder) :
    (book.filledBook incoming idx resting).count incoming.isBuy = book.count incoming.isBuy := by
  unfold filledBook
  cases incoming.isBuy <;> simp only [] <;> split <;> rfl

variable {idx : Nat}

theorem filledBook_removed {resting : MarketOrder}
    (consumed : resting.remainingQuantity.toNat ≤ incoming.remainingQuantity.toNat) :
    (book.filledBook incoming idx resting).side (!incoming.isBuy) =
      (book.side (!incoming.isBuy)).set idx none := by
  have nothing : resting.remainingQuantity -
      min incoming.remainingQuantity resting.remainingQuantity = 0 := by
    rw [← UInt32.toNat_inj, restingRemaining, UInt32.toNat_zero]
    omega
  simp [filledBook, nothing]

variable {order : MarketOrder}

theorem filledBook_origin {resting : MarketOrder}
    (held : (book.side (!incoming.isBuy)).get? idx = some resting)
    (member : order ∈ ((book.filledBook incoming idx resting).side (!incoming.isBuy)).entries) :
    ∃ original ∈ (book.side (!incoming.isBuy)).entries,
      order = { original with
        remainingQuantity := order.remainingQuantity, status := order.status } := by
  unfold filledBook at member
  simp only at member
  split at member
  · rw [side_setSide] at member
    exact ⟨order, SlotArray.mem_entries_set_none member, rfl⟩
  rw [side_setSide] at member
  rcases SlotArray.mem_entries_set_some member with rfl | old
  · exact ⟨resting, SlotArray.mem_entries_of_get? held, rfl⟩
  exact ⟨order, old, rfl⟩

theorem mem_filledBook {resting : MarketOrder}
    (held : (book.side (!incoming.isBuy)).get? idx = some resting)
    (member : order ∈ ((book.filledBook incoming idx resting).side (!incoming.isBuy)).entries) :
    ∃ original ∈ (book.side (!incoming.isBuy)).entries,
      original.orderId = order.orderId ∧ original.unitPrice = order.unitPrice := by
  obtain ⟨original, originalMember, same⟩ := filledBook_origin held member
  refine ⟨original, originalMember, ?_, ?_⟩
  · rw [same]
  rw [same]

variable {room : Nat} {currentTick : UInt64}

theorem matchLoop_filled (filled : incoming.remainingQuantity = 0) :
    matchLoop currentTick room book incoming = ⟨book, incoming, []⟩ := by
  cases room with
  | zero => rfl
  | succ room => simp [matchLoop, filled]

theorem matchLoop_noCross (uncrossed : book.matchQueue incoming = []) :
    matchLoop currentTick room book incoming = ⟨book, incoming, []⟩ := by
  cases room with
  | zero => rfl
  | succ room => simp [matchLoop, bestMatchIdx_eq, uncrossed]

theorem matchLoop_cons {head : Nat × MarketOrder} {rest : List (Nat × MarketOrder)}
    (unfilled : incoming.remainingQuantity ≠ 0) (queue : book.matchQueue incoming = head :: rest) :
    matchLoop currentTick (room + 1) book incoming =
      let later := matchLoop currentTick room
        (book.filledBook incoming head.1 head.2) (filledIncoming incoming head.2)
      { later with
        trades := book.tradeExecution incoming head.2 currentTick :: later.trades } := by
  have headMember : head ∈ book.matchQueue incoming := queue ▸ mem_cons_self
  have held := (mem_matchQueue.mp headMember).1
  simp [matchLoop, unfilled, bestMatchIdx_eq, queue, held]

/-- The loop does nothing, or it trades with the head of the queue and goes on with what is
left of the book and the order. -/
@[elab_as_elim]
theorem matchLoop_induction (currentTick : UInt64) {motive : Nat → OrderBook → MarketOrder → Prop}
    (idle : ∀ room book incoming,
      (room = 0 ∨ incoming.remainingQuantity = 0 ∨ book.matchQueue incoming = []) →
      matchLoop currentTick room book incoming = ⟨book, incoming, []⟩ →
      motive room book incoming)
    (trade : ∀ room book incoming head rest, incoming.remainingQuantity ≠ 0 →
      book.matchQueue incoming = head :: rest →
      (book.side (!incoming.isBuy)).get? head.1 = some head.2 →
      (matchLoop currentTick (room + 1) book incoming =
        let later := matchLoop currentTick room
          (book.filledBook incoming head.1 head.2) (filledIncoming incoming head.2)
        { later with
          trades := book.tradeExecution incoming head.2 currentTick :: later.trades }) →
      motive room (book.filledBook incoming head.1 head.2) (filledIncoming incoming head.2) →
      motive (room + 1) book incoming)
    (room : Nat) (book : OrderBook) (incoming : MarketOrder) : motive room book incoming := by
  induction room generalizing book incoming with
  | zero => exact idle 0 book incoming (.inl rfl) rfl
  | succ room ih =>
    by_cases filled : incoming.remainingQuantity = 0
    · exact idle _ book incoming (.inr (.inl filled)) (matchLoop_filled filled)
    rcases queue : book.matchQueue incoming with _ | ⟨head, rest⟩
    · exact idle _ book incoming (.inr (.inr queue)) (matchLoop_noCross queue)
    have headMember : head ∈ book.matchQueue incoming := queue ▸ mem_cons_self
    exact trade room book incoming head rest filled queue
      (mem_matchQueue.mp headMember).1 (matchLoop_cons filled queue)
      (ih _ _)

/-- The loop touches nothing of the incoming order but its open quantity, and
leaves the side of the incoming order alone. -/
theorem matchLoop_frame (currentTick : UInt64) (room : Nat) (book : OrderBook)
    (incoming : MarketOrder) :
    let result := matchLoop currentTick room book incoming
    result.incoming = { incoming with remainingQuantity := result.incoming.remainingQuantity } ∧
      result.book.side incoming.isBuy = book.side incoming.isBuy ∧
      result.book.count incoming.isBuy = book.count incoming.isBuy := by
  induction room, book, incoming using matchLoop_induction currentTick with
  | idle room book incoming _ nothing =>
    rw [nothing]
    exact ⟨rfl, rfl, rfl⟩
  | trade room book incoming head rest _ _ _ loop ih =>
    rw [loop]
    obtain ⟨same, sameSide, sameCount⟩ := ih
    have direction : (filledIncoming incoming head.2).isBuy = incoming.isBuy := rfl
    rw [direction, filledBook_own] at sameSide
    rw [direction, filledBook_ownCount] at sameCount
    refine ⟨?_, sameSide, sameCount⟩
    exact same

theorem matchLoop_origin (member : order ∈
      ((matchLoop currentTick room book incoming).book.side (!incoming.isBuy)).entries) :
    ∃ original ∈ (book.side (!incoming.isBuy)).entries,
      order = { original with
        remainingQuantity := order.remainingQuantity, status := order.status } := by
  induction room, book, incoming using matchLoop_induction currentTick with
  | idle room book incoming _ nothing =>
    rw [nothing] at member
    exact ⟨order, member, rfl⟩
  | trade room book incoming head rest _ _ held loop ih =>
    rw [loop] at member
    obtain ⟨middle, middleMember, later⟩ := ih member
    obtain ⟨original, originalMember, first⟩ := filledBook_origin held middleMember
    refine ⟨original, originalMember, ?_⟩
    rw [later, first]

theorem mem_matchLoop (member : order ∈
      ((matchLoop currentTick room book incoming).book.side (!incoming.isBuy)).entries) :
    ∃ original ∈ (book.side (!incoming.isBuy)).entries,
      original.orderId = order.orderId ∧ original.unitPrice = order.unitPrice := by
  obtain ⟨original, originalMember, same⟩ := matchLoop_origin member
  refine ⟨original, originalMember, ?_, ?_⟩
  · rw [same]
  rw [same]

theorem matchLoop_remaining (currentTick : UInt64) (room : Nat) (book : OrderBook)
    (incoming : MarketOrder) :
    (matchLoop currentTick room book incoming).incoming.remainingQuantity.toNat =
      incoming.remainingQuantity.toNat - volume ((book.matchQueue incoming).take room) := by
  induction room, book, incoming using matchLoop_induction currentTick with
  | idle room book incoming why nothing =>
    rw [nothing]
    rcases why with noRoom | filled | queue
    · simp [noRoom]
    · simp [filled]
    simp [queue]
  | trade room book incoming head rest _ queue _ loop ih =>
    rw [loop, queue, take_succ_cons, volume_cons]
    simp only [ih, filledIncoming_remaining]
    by_cases consumed : head.2.remainingQuantity.toNat ≤ incoming.remainingQuantity.toNat
    · have tail : (book.filledBook incoming head.1 head.2).matchQueue
          (filledIncoming incoming head.2) = rest :=
        matchQueue_tail queue _ (filledBook_removed consumed)
      rw [tail]
      omega
    omega

theorem matchLoop_queue
    (unfilled : (matchLoop currentTick room book incoming).incoming.remainingQuantity ≠ 0) :
    (matchLoop currentTick room book incoming).book.matchQueue incoming =
      (book.matchQueue incoming).drop room := by
  induction room, book, incoming using matchLoop_induction currentTick with
  | idle room book incoming why nothing =>
    rw [nothing] at unfilled ⊢
    rcases why with noRoom | filled | queue
    · rw [noRoom, drop_zero]
    · exact absurd filled unfilled
    rw [queue, drop_nil]
  | trade room book incoming head rest _ queue _ loop ih =>
    rw [loop] at unfilled ⊢
    have open_ : (filledIncoming incoming head.2).remainingQuantity ≠ 0 := by
      intro nothing
      rw [matchLoop_filled nothing] at unfilled
      exact unfilled nothing
    have consumed : head.2.remainingQuantity.toNat ≤ incoming.remainingQuantity.toNat := by
      rw [Ne, ← UInt32.toNat_inj, filledIncoming_remaining, UInt32.toNat_zero] at open_
      omega
    have tail : (book.filledBook incoming head.1 head.2).matchQueue incoming = rest :=
      matchQueue_tail queue _ (filledBook_removed consumed)
    have later := ih unfilled
    rw [queue]
    rwa [matchQueue_filledIncoming, matchQueue_filledIncoming, tail] at later

structure HasRoomFor (book : OrderBook) (order : MarketOrder) : Prop where
  count_lt : book.count order.isBuy < maxOrdersPerSide
  fresh : ∀ resting ∈ (book.side order.isBuy).entries, resting.orderId ≠ order.orderId
  slot_free : (book.side order.isBuy).entries.length < maxOrdersPerSide

theorem insertRestingOrder_of_hasRoom (room : book.HasRoomFor order) :
    ∃ orders, (book.side order.isBuy).fillFirst? order = some orders ∧
      book.insertRestingOrder order =
        .ok (book.setSide order.isBuy orders (book.count order.isBuy + 1)) := by
  have belowMaximum : ¬ book.count order.isBuy ≥ maxOrdersPerSide := by
    have bound := room.count_lt
    omega
  have noDuplicate : ¬ (book.side order.isBuy).entries.any (·.orderId == order.orderId) = true := by
    rw [any_eq_true]
    intro known
    rcases known with ⟨resting, member, same⟩
    exact room.fresh resting member (beq_iff_eq.mp same)
  obtain ⟨orders, filled⟩ :=
    Option.isSome_iff_exists.mp (SlotArray.fillFirst?_isSome_iff.mpr room.slot_free)
  refine ⟨orders, filled, ?_⟩
  rw [insertRestingOrder, if_neg belowMaximum, if_neg noDuplicate, filled]

theorem insertRestingOrder_error_of_noRoom (noRoom : ¬ book.HasRoomFor order) :
    ∃ failure, book.insertRestingOrder order = .error failure := by
  unfold insertRestingOrder
  split
  · exact ⟨_, rfl⟩
  split
  · exact ⟨_, rfl⟩
  rename_i noDuplicate
  split
  · rename_i orders filled
    refine absurd ⟨by omega, ?_, ?_⟩ noRoom
    · intro resting member same
      exact noDuplicate (any_eq_true.mpr ⟨resting, member, beq_iff_eq.mpr same⟩)
    exact SlotArray.fillFirst?_isSome_iff.mp (Option.isSome_iff_exists.mpr ⟨orders, filled⟩)
  exact ⟨_, rfl⟩

theorem hasRoomFor_congr {other : OrderBook} {same : MarketOrder}
    (direction : same.isBuy = order.isBuy) (identity : same.orderId = order.orderId)
    (ownSide : other.side order.isBuy = book.side order.isBuy)
    (ownCount : other.count order.isBuy = book.count order.isBuy) :
    other.HasRoomFor same ↔ book.HasRoomFor order := by
  constructor
  · intro room
    rcases room with ⟨countLt, fresh, slotFree⟩
    rw [direction, ownCount] at countLt
    rw [direction, ownSide, identity] at fresh
    rw [direction, ownSide] at slotFree
    exact ⟨countLt, fresh, slotFree⟩
  intro room
  rcases room with ⟨countLt, fresh, slotFree⟩
  rw [← ownCount, ← direction] at countLt
  rw [← ownSide, ← identity, ← direction] at fresh
  rw [← ownSide, ← direction] at slotFree
  exact ⟨countLt, fresh, slotFree⟩

theorem matchLoop_unfilled_iff (currentTick : UInt64) :
    (matchLoop currentTick room book incoming).incoming.remainingQuantity ≠ 0 ↔
      volume ((book.matchQueue incoming).take room) < incoming.remainingQuantity.toNat := by
  rw [Ne, ← UInt32.toNat_inj, matchLoop_remaining, UInt32.toNat_zero]
  omega

theorem hasRoomFor_matchLoop (direction : order.isBuy = incoming.isBuy)
    (identity : order.orderId = incoming.orderId) :
    (matchLoop currentTick room book incoming).book.HasRoomFor order ↔
      book.HasRoomFor incoming := by
  obtain ⟨_, sameSide, sameCount⟩ := matchLoop_frame currentTick room book incoming
  exact hasRoomFor_congr direction identity sameSide sameCount

/-- A valid limit order that is still open after matching against `tradesLen`
orders of its queue. -/
structure OpenLimit (book : OrderBook) (incoming : MarketOrder) (tradesLen : Nat) : Prop where
  valid : incoming.unitPrice ≠ 0 ∧ incoming.initialQuantity ≠ 0
  limit : incoming.orderType = .limit
  unfilled : volume ((book.matchQueue incoming).take tradesLen) <
    incoming.remainingQuantity.toNat

section Rested

variable (currentTick : UInt64) (room : Nat) (book : OrderBook) (incoming : MarketOrder)

@[simp]
theorem restedOrder_isBuy :
    (restedOrder (matchLoop currentTick room book incoming)).isBuy = incoming.isBuy := by
  rw [restedOrder, (matchLoop_frame currentTick room book incoming).1]

@[simp]
theorem restedOrder_unitPrice :
    (restedOrder (matchLoop currentTick room book incoming)).unitPrice = incoming.unitPrice := by
  rw [restedOrder, (matchLoop_frame currentTick room book incoming).1]

@[simp]
theorem restedOrder_orderId :
    (restedOrder (matchLoop currentTick room book incoming)).orderId = incoming.orderId := by
  rw [restedOrder, (matchLoop_frame currentTick room book incoming).1]

end Rested

/-- Everything `place_order` can do: reject the order, finish it without resting,
rest an open limit order, or fail to rest it. -/
theorem placeOrder_cases (book : OrderBook) (incoming : MarketOrder) (tradesLen : Nat)
    (currentTick : UInt64) :
    let matched := matchLoop currentTick tradesLen book incoming
    let outcome := book.placeOrder incoming tradesLen currentTick
    (∃ failure, ¬ ((incoming.unitPrice ≠ 0 ∧ incoming.initialQuantity ≠ 0) ∧
          incoming.orderType = .limit) ∧
        outcome = ⟨.error failure, [], book⟩) ∨
      (∃ finalOrder, ¬ book.OpenLimit incoming tradesLen ∧
        outcome = ⟨.ok (matched.trades.length, finalOrder), matched.trades, matched.book⟩) ∨
      (∃ orders, book.OpenLimit incoming tradesLen ∧ book.HasRoomFor incoming ∧
        (matched.book.side incoming.isBuy).fillFirst? (restedOrder matched) = some orders ∧
        outcome = ⟨.ok (matched.trades.length, restedOrder matched), matched.trades,
          matched.book.setSide incoming.isBuy orders (matched.book.count incoming.isBuy + 1)⟩) ∨
      (∃ failure, book.OpenLimit incoming tradesLen ∧ ¬ book.HasRoomFor incoming ∧
        outcome = ⟨.error failure, matched.trades, matched.book⟩) := by
  intro matched outcome
  have sameType : matched.incoming.orderType = incoming.orderType := by
    rw [(matchLoop_frame currentTick tradesLen book incoming).1]
  have direction : (restedOrder matched).isBuy = incoming.isBuy :=
    restedOrder_isBuy currentTick tradesLen book incoming
  have identity : (restedOrder matched).orderId = incoming.orderId :=
    restedOrder_orderId currentTick tradesLen book incoming
  have unfolded : outcome = book.placeOrder incoming tradesLen currentTick := rfl
  unfold placeOrder at unfolded
  by_cases invalid : incoming.unitPrice = 0 ∨ incoming.initialQuantity = 0
  · rw [if_pos invalid] at unfolded
    exact .inl ⟨_, fun accepted => invalid.elim accepted.1.1 accepted.1.2, unfolded⟩
  rw [if_neg invalid] at unfolded
  have valid : incoming.unitPrice ≠ 0 ∧ incoming.initialQuantity ≠ 0 := not_or.mp invalid
  by_cases rejected : incoming.orderType = .fillOrKill ∧
      book.availableQty incoming < incoming.initialQuantity
  · rw [if_pos rejected] at unfolded
    refine .inl ⟨_, fun accepted => ?_, unfolded⟩
    rw [accepted.2] at rejected
    cases rejected.1
  rw [if_neg rejected] at unfolded
  change outcome = finalizeOrder matched at unfolded
  unfold finalizeOrder at unfolded
  by_cases filled : matched.incoming.remainingQuantity = 0
  · simp only [if_pos filled] at unfolded
    exact .inr (.inl ⟨_, fun opened =>
      (matchLoop_unfilled_iff currentTick).mpr opened.unfilled filled,
      unfolded⟩)
  simp only [if_neg filled, sameType] at unfolded
  cases kind : incoming.orderType with
  | limit =>
    simp only [kind] at unfolded
    have opened : book.OpenLimit incoming tradesLen :=
      ⟨valid, kind, (matchLoop_unfilled_iff currentTick).mp filled⟩
    have sameRoom : matched.book.HasRoomFor (restedOrder matched) ↔
        book.HasRoomFor incoming := hasRoomFor_matchLoop direction identity
    by_cases room : book.HasRoomFor incoming
    · obtain ⟨orders, inserted, accepted⟩ :=
        insertRestingOrder_of_hasRoom (sameRoom.mpr room)
      rw [direction] at inserted accepted
      simp only [accepted] at unfolded
      exact .inr (.inr (.inl ⟨orders, opened, room, inserted, unfolded⟩))
    obtain ⟨failure, refused⟩ :=
      insertRestingOrder_error_of_noRoom (fun accepted => room (sameRoom.mp accepted))
    simp only [refused] at unfolded
    exact .inr (.inr (.inr ⟨failure, opened, room, unfolded⟩))
  | _ =>
    simp only [kind] at unfolded
    refine .inr (.inl ⟨_, fun opened => ?_, unfolded⟩)
    cases kind.symm.trans opened.limit

end OrderBook

end Eidolon.Core.Market

/-!
## When a failed order leaves the book alone

An order that is rejected by a check is rejected before matching.  The one failure
after matching is the refusal to rest what is left of a limit order: the trades of
that call stand although it reports an error.  This happens exactly for open limit
orders that trade at least once and for which their own side has no room.
-/

namespace Eidolon.Core.Market

open Library List

namespace OrderBook

/-- A call that reports an error has left the book as it was and traded nothing. -/
def FailsCleanly (book : OrderBook) (outcome : PlaceOutcome) : Prop :=
  ∀ failure, outcome.result = .error failure → outcome.book = book ∧ outcome.tradesOut = []

/-- An open limit order that trades at least once and then finds no room to rest. -/
structure TradesThenRefused (book : OrderBook) (incoming : MarketOrder)
    (tradesLen : Nat) : Prop extends book.OpenLimit incoming tradesLen where
  slice : 0 < tradesLen
  crossed : book.matchQueue incoming ≠ []
  noRoom : ¬ book.HasRoomFor incoming

theorem matchLoop_of_idle {currentTick : UInt64} {room : Nat} {book : OrderBook}
    {incoming : MarketOrder} (idle : ¬ (0 < room ∧ book.matchQueue incoming ≠ [])) :
    matchLoop currentTick room book incoming = ⟨book, incoming, []⟩ := by
  cases room with
  | zero => rfl
  | succ room =>
    refine matchLoop_noCross ?_
    by_contra crossed
    exact idle ⟨Nat.succ_pos room, crossed⟩

theorem matchLoop_book_ne {currentTick : UInt64} {room : Nat} {book : OrderBook}
    {incoming : MarketOrder}
    (unfilled : (matchLoop currentTick room book incoming).incoming.remainingQuantity ≠ 0)
    (slice : 0 < room) (crossed : book.matchQueue incoming ≠ []) :
    (matchLoop currentTick room book incoming).book ≠ book := by
  intro unchanged
  have shortened := congrArg List.length (matchLoop_queue unfilled)
  rw [unchanged, length_drop] at shortened
  have nonempty := length_pos_iff.mpr crossed
  omega

/-- `place_order` fails cleanly exactly if the order is not refused after trading. -/
theorem placeOrder_failsCleanly_iff (book : OrderBook) (incoming : MarketOrder)
    (tradesLen : Nat) (currentTick : UInt64) :
    book.FailsCleanly (book.placeOrder incoming tradesLen currentTick) ↔
      ¬ book.TradesThenRefused incoming tradesLen := by
  rcases book.placeOrder_cases incoming tradesLen currentTick with
    ⟨failure, rejected, outcome⟩ | ⟨result, finished, outcome⟩ |
    ⟨orders, opened, room, inserted, outcome⟩ | ⟨failure, opened, noRoom, outcome⟩
  · rw [outcome]
    exact iff_of_true (fun _ _ => ⟨rfl, rfl⟩)
      (fun refused => rejected ⟨refused.valid, refused.limit⟩)
  · rw [outcome]
    exact iff_of_true (fun _ failed => by cases failed)
      (fun refused => finished refused.toOpenLimit)
  · rw [outcome]
    exact iff_of_true (fun _ failed => by cases failed) (fun refused => refused.noRoom room)
  rw [outcome]
  have unfilled := (matchLoop_unfilled_iff currentTick).mpr opened.unfilled
  constructor
  · intro clean refused
    exact matchLoop_book_ne unfilled refused.slice refused.crossed (clean failure rfl).1
  intro notRefused _ _
  have idle : ¬ (0 < tradesLen ∧ book.matchQueue incoming ≠ []) :=
    fun busy => notRefused ⟨opened, busy.1, busy.2, noRoom⟩
  rw [matchLoop_of_idle idle]
  exact ⟨rfl, rfl⟩

def twoSidedBook : OrderBook :=
  let bid := MarketOrder.new 1 10 1001 true 50 10 1 .limit 10 1000
  let ask := MarketOrder.new 2 20 1001 false 100 5 1 .limit 20 1000
  let withBid := ((OrderBook.new 1001).placeOrder bid 4 10).book
  (withBid.placeOrder ask 4 20).book

def reusedIdBid : MarketOrder :=
  MarketOrder.new 1 10 1001 true 100 10 1 .limit 30 1000

/-- The bid buys the only ask and is then refused as a duplicate. -/
theorem placeOrder_fails_after_trading :
    ¬ ∀ (book : OrderBook) (incoming : MarketOrder) (tradesLen : Nat) (currentTick : UInt64),
      book.FailsCleanly (book.placeOrder incoming tradesLen currentTick) := by
  intro clean
  have refused : (twoSidedBook.placeOrder reusedIdBid 4 30).result = .error .duplicateOrderId := by
    decide
  have traded : (twoSidedBook.placeOrder reusedIdBid 4 30).tradesOut ≠ [] := by
    decide
  exact traded (clean twoSidedBook reusedIdBid 4 30 _ refused).2

end OrderBook

end Eidolon.Core.Market
