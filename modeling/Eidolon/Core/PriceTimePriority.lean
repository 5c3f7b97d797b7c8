import Eidolon.Core.FillOrKill

/-!
# Price and arrival

The match queue orders resting orders by price, tick and slot.  Slots are reused, so among
orders of one price and one tick the slots say nothing about which came first.  A book that
also notes with which call each order arrived shows what is left of the priority: orders
that are placed with growing ticks are matched by price and arrival, unless an order is
matched while an earlier one of the same price and tick waits behind it.
-/

namespace Eidolon.Core.Market

open Library List

namespace OrderBook

structure Encounter where
  book : OrderBook
  maker : MarketOrder
  trade : TradeExecution

def encounters (currentTick : UInt64) : Nat → OrderBook → MarketOrder → List Encounter
  | 0, _, _ => []
  | room + 1, book, incoming =>
    if incoming.remainingQuantity = 0 then
      []
    else
      match book.bestMatchIdx incoming with
      | none => []
      | some idx =>
        match (book.side (!incoming.isBuy)).get? idx with
        | none => []
        | some resting =>
          ⟨book, resting, book.tradeExecution incoming resting currentTick⟩ ::
            encounters currentTick room (book.filledBook incoming idx resting)
              (filledIncoming incoming resting)

def placeEncounters (book : OrderBook) (incoming : MarketOrder) (tradesLen : Nat)
    (currentTick : UInt64) : List Encounter :=
  if incoming.unitPrice = 0 ∨ incoming.initialQuantity = 0 then
    []
  else if incoming.orderType = .fillOrKill ∧
      book.availableQty incoming < incoming.initialQuantity then
    []
  else
    encounters currentTick tradesLen book incoming

variable {incoming : MarketOrder} {book : OrderBook} {currentTick : UInt64} {room : Nat}

theorem encounters_filled (filled : incoming.remainingQuantity = 0) :
    encounters currentTick room book incoming = [] := by
  cases room with
  | zero => rfl
  | succ room => rw [encounters, if_pos filled]

theorem encounters_idle
    (why : room = 0 ∨ incoming.remainingQuantity = 0 ∨ book.matchQueue incoming = []) :
    encounters currentTick room book incoming = [] := by
  rcases why with noRoom | filled | uncrossed
  · rw [noRoom, encounters]
  · exact encounters_filled filled
  cases room with
  | zero => rfl
  | succ room => simp [encounters, bestMatchIdx_eq, uncrossed]

theorem encounters_cons {head : Nat × MarketOrder} {rest : List (Nat × MarketOrder)}
    (unfilled : incoming.remainingQuantity ≠ 0) (queue : book.matchQueue incoming = head :: rest) :
    encounters currentTick (room + 1) book incoming =
      ⟨book, head.2, book.tradeExecution incoming head.2 currentTick⟩ ::
        encounters currentTick room (book.filledBook incoming head.1 head.2)
          (filledIncoming incoming head.2) := by
  have headMember : head ∈ book.matchQueue incoming := queue ▸ mem_cons_self
  have held := (mem_matchQueue.mp headMember).1
  simp [encounters, unfilled, bestMatchIdx_eq, queue, held]

/-- No order on the other side has a better price than the one traded with, and none of its
price has arrived before it. -/
def InTurn (incomingIsBuy : Bool) (arrived : UInt64 → Nat) (encounter : Encounter) : Prop :=
  (∀ other ∈ (encounter.book.side (!incomingIsBuy)).entries,
    betterPrice incomingIsBuy other.unitPrice encounter.maker.unitPrice = false) ∧
  ∀ other ∈ (encounter.book.side (!incomingIsBuy)).entries,
    other.unitPrice = encounter.maker.unitPrice →
      arrived encounter.maker.orderId ≤ arrived other.orderId

instance (incomingIsBuy : Bool) (arrived : UInt64 → Nat) (encounter : Encounter) :
    Decidable (InTurn incomingIsBuy arrived encounter) :=
  inferInstanceAs (Decidable (_ ∧ _))

/-- Orders that arrived earlier were not placed at a later tick. -/
def InOrder (arrived : UInt64 → Nat) (side : BookSide) : Prop :=
  ∀ first ∈ side.entries, ∀ second ∈ side.entries,
    arrived first.orderId < arrived second.orderId → first.placedTick ≤ second.placedTick

/-- No order that `quantity` reaches in a queue, with room for so many trades, has one of
its price and tick behind it that arrived earlier. -/
def TiesInTurn (arrived : UInt64 → Nat) (queue : List (Nat × MarketOrder))
    (room quantity : Nat) : Prop :=
  ∀ before head rest, queue = before ++ head :: rest → before.length < room →
    volume before < quantity → ∀ other ∈ rest, other.2.unitPrice = head.2.unitPrice →
      other.2.placedTick = head.2.placedTick → arrived head.2.orderId ≤ arrived other.2.orderId

variable {arrived : UInt64 → Nat}

theorem tiesInTurn_cons {head : Nat × MarketOrder} {rest : List (Nat × MarketOrder)}
    {quantity : Nat} (positive : 0 < quantity) :
    TiesInTurn arrived (head :: rest) (room + 1) quantity ↔
      (∀ other ∈ rest, other.2.unitPrice = head.2.unitPrice →
        other.2.placedTick = head.2.placedTick → arrived head.2.orderId ≤ arrived other.2.orderId) ∧
      TiesInTurn arrived rest room (quantity - head.2.remainingQuantity.toNat) := by
  constructor
  · intro inTurn
    refine ⟨inTurn [] head rest rfl (Nat.succ_pos room) positive, ?_⟩
    intro before next after split inside reached
    refine inTurn (head :: before) next after ?_ ?_ ?_
    · rw [split]
      rfl
    · rw [length_cons]
      omega
    rw [volume_cons]
    omega
  intro both before next after split inside reached
  rcases both with ⟨first, later⟩
  rcases before with _ | ⟨skipped, before⟩
  · cases split
    exact first
  cases split
  rw [length_cons] at inside
  rw [volume_cons] at reached
  exact later before next after rfl (by omega) (by omega)

theorem tiesInTurn_zero (arrived : UInt64 → Nat) (queue : List (Nat × MarketOrder))
    (room : Nat) : TiesInTurn arrived queue room 0 := by
  intro before head rest _ _ reached
  omega

private theorem betterPrice_irrefl (incomingIsBuy : Bool) (price : UInt64) :
    betterPrice incomingIsBuy price price = false := by
  cases incomingIsBuy <;> simp [betterPrice]

private theorem betterPrice_asymm {incomingIsBuy : Bool} {price other : UInt64}
    (better : betterPrice incomingIsBuy price other = true) :
    betterPrice incomingIsBuy other price = false ∧ price ≠ other := by
  revert better
  cases incomingIsBuy <;>
    simp only [betterPrice, if_true, Bool.false_eq_true, if_false, decide_eq_true_eq,
      decide_eq_false_iff_not, gt_iff_lt, UInt64.lt_iff_toNat_lt, Ne, ← UInt64.toNat_inj] <;>
    omega

private theorem crosses_of_betterPrice {resting other : MarketOrder}
    (crossed : crosses incoming resting = true)
    (better : betterPrice incoming.isBuy other.unitPrice resting.unitPrice = true) :
    crosses incoming other = true := by
  revert crossed better
  unfold crosses betterPrice
  cases incoming.isBuy <;>
    simp only [if_true, Bool.false_eq_true, if_false, decide_eq_true_eq, gt_iff_lt,
      ge_iff_le, UInt64.lt_iff_toNat_lt, UInt64.le_iff_toNat_le] <;>
    omega

theorem crosses_of_unitPrice_eq {resting other : MarketOrder}
    (crossed : crosses incoming resting = true) (same : other.unitPrice = resting.unitPrice) :
    crosses incoming other = true := by
  unfold crosses at crossed ⊢
  rwa [same]

section Queue

variable {book : OrderBook} {incoming : MarketOrder} {head : Nat × MarketOrder}
  {rest : List (Nat × MarketOrder)} (queue : book.matchQueue incoming = head :: rest)

include queue

theorem head_precedes {other : Nat × MarketOrder} (member : other ∈ rest) :
    precedes incoming.isBuy head other := by
  have sorted := inPriority_pairwise (precedes_total incoming.isBuy)
    (precedes_trans incoming.isBuy) (book.crossing incoming)
  rw [← matchQueue, queue] at sorted
  exact (List.pairwise_cons.mp sorted).1 other member

theorem crossed_cases {other : MarketOrder} (member : other ∈ (book.side (!incoming.isBuy)).entries)
    (crossed : crosses incoming other = true) :
    other = head.2 ∨ ∃ index, (index, other) ∈ rest := by
  rcases SlotArray.mem_entries_iff_get?.mp member with ⟨index, held⟩
  have queued : (index, other) ∈ book.matchQueue incoming := mem_matchQueue.mpr ⟨held, crossed⟩
  rw [queue] at queued
  rcases List.mem_cons.mp queued with first | later
  · exact .inl (congrArg Prod.snd first)
  exact .inr ⟨index, later⟩

theorem inTurn_head_iff {arrived : UInt64 → Nat}
    (inOrder : InOrder arrived (book.side (!incoming.isBuy))) (trade : TradeExecution) :
    InTurn incoming.isBuy arrived ⟨book, head.2, trade⟩ ↔
      ∀ other ∈ rest, other.2.unitPrice = head.2.unitPrice →
        other.2.placedTick = head.2.placedTick →
          arrived head.2.orderId ≤ arrived other.2.orderId := by
  have headMember : head ∈ book.matchQueue incoming := queue ▸ mem_cons_self
  obtain ⟨held, crossed⟩ := mem_matchQueue.mp headMember
  constructor
  · intro inTurn other member same _
    have queued : other ∈ book.matchQueue incoming :=
      queue ▸ mem_cons_of_mem head member
    exact inTurn.2 other.2 (SlotArray.mem_entries_of_get? (mem_matchQueue.mp queued).1) same
  intro ties
  refine ⟨?_, ?_⟩
  · intro other member
    rcases better : betterPrice incoming.isBuy other.unitPrice head.2.unitPrice with _ | _
    · rfl
    rcases betterPrice_asymm better with ⟨notBetter, different⟩
    rcases crossed_cases queue member (crosses_of_betterPrice crossed better) with
      itself | ⟨index, later⟩
    · rw [itself] at different
      exact absurd rfl different
    rcases head_precedes queue later with before | ⟨same, _⟩
    · rw [notBetter] at before
      cases before
    exact absurd same.symm different
  intro other member same
  rcases crossed_cases queue member (crosses_of_unitPrice_eq crossed same) with
    itself | ⟨index, later⟩
  · rw [itself]
  rcases head_precedes queue later with before | ⟨_, earlier | ⟨sameTick, _⟩⟩
  · rw [same, betterPrice_irrefl] at before
    cases before
  · by_contra overtaken
    have placed := inOrder other member head.2 (SlotArray.mem_entries_of_get? held)
      (Nat.lt_of_not_le overtaken)
    exact UInt64.lt_irrefl _ (UInt64.lt_of_lt_of_le earlier placed)
  exact ties (index, other) later same sameTick.symm

end Queue

theorem inOrder_filledBook {resting : MarketOrder} {idx : Nat}
    (inOrder : InOrder arrived (book.side (!incoming.isBuy)))
    (held : (book.side (!incoming.isBuy)).get? idx = some resting) :
    InOrder arrived ((book.filledBook incoming idx resting).side (!incoming.isBuy)) := by
  intro first firstMember second secondMember earlier
  rcases filledBook_origin held firstMember with ⟨firstOld, firstOldMember, firstSame⟩
  rcases filledBook_origin held secondMember with ⟨secondOld, secondOldMember, secondSame⟩
  rw [firstSame, secondSame] at earlier ⊢
  exact inOrder firstOld firstOldMember secondOld secondOldMember earlier

theorem inTurn_encounters_iff (currentTick : UInt64) (room : Nat)
    (inOrder : InOrder arrived (book.side (!incoming.isBuy))) :
    (∀ encounter ∈ encounters currentTick room book incoming,
      InTurn incoming.isBuy arrived encounter) ↔
      TiesInTurn arrived (book.matchQueue incoming) room
        incoming.remainingQuantity.toNat := by
  induction room, book, incoming using matchLoop_induction currentTick with
  | idle room book incoming why _ =>
    rw [encounters_idle why]
    refine iff_of_true (fun _ member => absurd member not_mem_nil) ?_
    rcases why with noRoom | filled | uncrossed
    · intro before head rest _ inside
      omega
    · rw [filled]
      exact tiesInTurn_zero _ _ _
    rw [uncrossed]
    intro before head rest split
    simp at split
  | trade room book incoming head rest notFilled queue held _ ih =>
    have positive : 0 < incoming.remainingQuantity.toNat := by
      rw [Ne, ← UInt32.toNat_inj, UInt32.toNat_zero] at notFilled
      omega
    rw [encounters_cons notFilled queue, forall_mem_cons, inTurn_head_iff queue inOrder,
      queue, tiesInTurn_cons positive]
    apply and_congr_right
    intro _
    by_cases consumed : head.2.remainingQuantity.toNat ≤ incoming.remainingQuantity.toNat
    · have later := ih (inOrder_filledBook inOrder held)
      rw [matchQueue_filledIncoming, matchQueue_tail queue _ (filledBook_removed consumed),
        filledIncoming_remaining] at later
      exact later
    have done : (filledIncoming incoming head.2).remainingQuantity = 0 := by
      rw [← UInt32.toNat_inj, filledIncoming_remaining, UInt32.toNat_zero]
      omega
    have nothing : incoming.remainingQuantity.toNat - head.2.remainingQuantity.toNat = 0 := by
      omega
    rw [encounters_filled done, nothing]
    exact iff_of_true (fun _ member => absurd member not_mem_nil) (tiesInTurn_zero _ _ _)

structure Admitted (book : OrderBook) (incoming : MarketOrder) : Prop where
  valid : incoming.unitPrice ≠ 0 ∧ incoming.initialQuantity ≠ 0
  deep : incoming.orderType = .fillOrKill →
    incoming.initialQuantity.toNat ≤ volume (book.crossing incoming) % 2 ^ 32

theorem inTurn_placeEncounters_iff (inOrder : InOrder arrived (book.side (!incoming.isBuy)))
    (tradesLen : Nat) (currentTick : UInt64) :
    (∀ encounter ∈ book.placeEncounters incoming tradesLen currentTick,
      InTurn incoming.isBuy arrived encounter) ↔
      (Admitted book incoming → TiesInTurn arrived (book.matchQueue incoming) tradesLen
        incoming.remainingQuantity.toNat) := by
  unfold placeEncounters
  by_cases invalid : incoming.unitPrice = 0 ∨ incoming.initialQuantity = 0
  · rw [if_pos invalid]
    apply iff_of_true (fun _ member => nomatch member)
    intro admitted
    exact absurd invalid (not_or.mpr admitted.valid)
  rw [if_neg invalid]
  by_cases rejected : incoming.orderType = .fillOrKill ∧
      book.availableQty incoming < incoming.initialQuantity
  · rw [if_pos rejected]
    apply iff_of_true (fun _ member => nomatch member)
    intro admitted
    have enough := admitted.deep rejected.1
    have shallow := rejected.2
    rw [UInt32.lt_iff_toNat_lt, toNat_availableQty] at shallow
    omega
  rw [if_neg rejected, inTurn_encounters_iff currentTick tradesLen inOrder]
  have admitted : Admitted book incoming := by
    refine ⟨not_or.mp invalid, ?_⟩
    intro kind
    by_contra shallow
    apply rejected
    rw [UInt32.lt_iff_toNat_lt, toNat_availableQty]
    exact ⟨kind, by omega⟩
  exact (imp_iff_right admitted).symm

/-- An order of a side has been there before, with its identifier and tick, or it is the
incoming order, whose identifier no order of the side had. -/
theorem placeOrder_origin {tradesLen : Nat} {isBuy : Bool} {order : MarketOrder}
    (member : order ∈ ((book.placeOrder incoming tradesLen currentTick).book.side isBuy).entries) :
    (∃ original ∈ (book.side isBuy).entries,
      original.orderId = order.orderId ∧ original.placedTick = order.placedTick) ∨
    (order.placedTick = incoming.placedTick ∧
      ∀ resting ∈ (book.side isBuy).entries, resting.orderId ≠ order.orderId) := by
  have frame := matchLoop_frame currentTick tradesLen book incoming
  have matchedOrigin : ∀ {isBuy : Bool} {order : MarketOrder},
      order ∈ ((matchLoop currentTick tradesLen book incoming).book.side isBuy).entries →
        ∃ original ∈ (book.side isBuy).entries,
          original.orderId = order.orderId ∧ original.placedTick = order.placedTick := by
    intro isBuy order member
    rcases Bool.eq_or_eq_not isBuy incoming.isBuy with own | other
    · rw [own, frame.2.1] at member
      rw [own]
      exact ⟨order, member, rfl, rfl⟩
    rw [other] at member ⊢
    rcases matchLoop_origin member with ⟨original, originalMember, same⟩
    refine ⟨original, originalMember, ?_, ?_⟩
    · rw [same]
    rw [same]
  rcases book.placeOrder_cases incoming tradesLen currentTick with
    ⟨failure, _, outcome⟩ | ⟨result, _, outcome⟩ | ⟨orders, _, room, inserted, outcome⟩ |
    ⟨failure, _, _, outcome⟩
  · rw [outcome] at member
    exact .inl ⟨order, member, rfl, rfl⟩
  · rw [outcome] at member
    exact .inl (matchedOrigin member)
  · rw [outcome] at member
    rcases Bool.eq_or_eq_not isBuy incoming.isBuy with own | other
    · rw [own, side_setSide] at member
      rcases List.mem_cons.mp ((SlotArray.fillFirst?_entries inserted).mem_iff.mp member) with
        new | old
      · rw [new, restedOrder, frame.1, own]
        exact .inr ⟨rfl, room.fresh⟩
      rw [own]
      exact .inl (matchedOrigin old)
    rw [other, side_not_setSide] at member
    rw [other]
    exact .inl (matchedOrigin member)
  rw [outcome] at member
  exact .inl (matchedOrigin member)

theorem mem_cancelOrder {orderId accountId : UInt64} {isBuy : Bool} {order : MarketOrder}
    (member : order ∈ ((book.cancelOrder orderId accountId).2.side isBuy).entries) :
    order ∈ (book.side isBuy).entries := by
  have removing : ∀ cancelIsBuy index cancelled,
      order ∈ ((book.cancelSlot cancelIsBuy index cancelled accountId).2.side isBuy).entries →
        order ∈ (book.side isBuy).entries := by
    intro cancelIsBuy index cancelled left
    unfold cancelSlot at left
    split at left
    · exact left
    cases cancelIsBuy <;> cases isBuy
    · exact SlotArray.mem_entries_set_none left
    · exact left
    · exact left
    exact SlotArray.mem_entries_set_none left
  unfold cancelOrder at member
  split at member
  · exact removing _ _ _ member
  split at member
  · exact removing _ _ _ member
  exact member

/-- A book, the number of calls so far, the last tick of a placed order, and the call with
which the order of an identifier came to rest on a side. -/
structure ArrivalHistory where
  book : OrderBook
  clock : Nat
  lastTick : UInt64
  arrived : Bool → UInt64 → Nat

namespace ArrivalHistory

def new (itemTypeId : UInt32) : ArrivalHistory where
  book := OrderBook.new itemTypeId
  clock := 0
  lastTick := 0
  arrived := fun _ _ => 0

def rests (history : ArrivalHistory) (isBuy : Bool) (orderId : UInt64) : Bool :=
  (history.book.side isBuy).entries.any fun resting => resting.orderId == orderId

/-- A call. An order that does not rest yet arrives with it at the earliest. -/
def step (history : ArrivalHistory) (event : BookEvent) : ArrivalHistory where
  book := bookStep history.book event
  clock := history.clock + 1
  lastTick :=
    match event with
    | .place incoming _ _ => incoming.placedTick
    | .cancel _ _ => history.lastTick
  arrived := fun isBuy orderId =>
    if history.rests isBuy orderId then history.arrived isBuy orderId else history.clock

/-- Orders are placed with ticks that do not decrease. -/
def TicksAscend (history : ArrivalHistory) : BookEvent → Prop
  | .place incoming _ _ => history.lastTick ≤ incoming.placedTick
  | .cancel _ _ => True

def TradesInTurn (history : ArrivalHistory) : BookEvent → Prop
  | .place incoming tradesLen currentTick =>
    ∀ encounter ∈ history.book.placeEncounters incoming tradesLen currentTick,
      InTurn incoming.isBuy (history.arrived (!incoming.isBuy)) encounter
  | .cancel _ _ => True

def NoEarlierTie (history : ArrivalHistory) : BookEvent → Prop
  | .place incoming tradesLen _ =>
    Admitted history.book incoming →
      TiesInTurn (history.arrived (!incoming.isBuy)) (history.book.matchQueue incoming)
        tradesLen incoming.remainingQuantity.toNat
  | .cancel _ _ => True

structure Chronological (history : ArrivalHistory) : Prop where
  before : ∀ isBuy, ∀ order ∈ (history.book.side isBuy).entries,
    history.arrived isBuy order.orderId < history.clock
  upToNow : ∀ isBuy, ∀ order ∈ (history.book.side isBuy).entries,
    order.placedTick ≤ history.lastTick
  inOrder : ∀ isBuy, InOrder (history.arrived isBuy) (history.book.side isBuy)

theorem chronological_new (itemTypeId : UInt32) : (new itemTypeId).Chronological := by
  have noOrder : ∀ isBuy (order : MarketOrder),
      order ∉ ((new itemTypeId).book.side isBuy).entries := by
    intro isBuy order member
    cases isBuy <;> exact not_mem_nil (SlotArray.entries_empty ▸ member)
  refine ⟨?_, ?_, ?_⟩
  · exact fun isBuy order member => absurd member (noOrder isBuy order)
  · exact fun isBuy order member => absurd member (noOrder isBuy order)
  exact fun isBuy order member => absurd member (noOrder isBuy order)

variable {history : ArrivalHistory}

theorem rests_of_mem {isBuy : Bool} {order : MarketOrder}
    (member : order ∈ (history.book.side isBuy).entries) :
    history.rests isBuy order.orderId = true :=
  List.any_eq_true.mpr ⟨order, member, beq_self_eq_true _⟩

/-- An order after a call either rested before, and its arrival stays, or it arrives now,
with the last tick. -/
theorem step_origin {event : BookEvent} {isBuy : Bool} {order : MarketOrder}
    (member : order ∈ ((history.step event).book.side isBuy).entries) :
    (∃ original ∈ (history.book.side isBuy).entries,
      original.orderId = order.orderId ∧ original.placedTick = order.placedTick ∧
        (history.step event).arrived isBuy order.orderId = history.arrived isBuy order.orderId) ∨
    (order.placedTick = (history.step event).lastTick ∧
      (history.step event).arrived isBuy order.orderId = history.clock) := by
  have stays : ∀ original ∈ (history.book.side isBuy).entries, original.orderId = order.orderId →
        (history.step event).arrived isBuy order.orderId = history.arrived isBuy order.orderId := by
    intro original originalMember same
    have resting := rests_of_mem originalMember
    rw [same] at resting
    exact if_pos resting
  cases event with
  | cancel orderId accountId =>
    have old := mem_cancelOrder member
    exact .inl ⟨order, old, rfl, rfl, stays order old rfl⟩
  | place incoming tradesLen currentTick =>
    rcases placeOrder_origin member with ⟨original, old, sameId, sameTick⟩ | ⟨tick, fresh⟩
    · exact .inl ⟨original, old, sameId, sameTick, stays original old sameId⟩
    refine .inr ⟨tick, if_neg ?_⟩
    intro resting
    rcases List.any_eq_true.mp resting with ⟨other, otherMember, same⟩
    exact fresh other otherMember (beq_iff_eq.mp same)

theorem chronological_step (chronological : history.Chronological) {event : BookEvent}
    (ascend : history.TicksAscend event) : (history.step event).Chronological := by
  have later : history.lastTick ≤ (history.step event).lastTick := by
    cases event with
    | place incoming tradesLen currentTick => exact ascend
    | cancel orderId accountId => exact UInt64.le_refl _
  have grown : (history.step event).clock = history.clock + 1 := rfl
  refine ⟨?_, ?_, ?_⟩
  · intro isBuy order member
    rcases step_origin member with ⟨original, old, sameId, _, stays⟩ | ⟨_, now⟩
    · have before := chronological.before isBuy original old
      rw [sameId] at before
      omega
    omega
  · intro isBuy order member
    rcases step_origin member with ⟨original, old, _, sameTick, _⟩ | ⟨tick, _⟩
    · rw [← sameTick]
      exact UInt64.le_trans (chronological.upToNow isBuy original old) later
    rw [tick]
    exact UInt64.le_refl _
  intro isBuy first firstMember second secondMember earlier
  rcases step_origin secondMember with
    ⟨secondOld, secondIn, secondId, secondTick, secondStays⟩ | ⟨secondTick, _⟩
  · rcases step_origin firstMember with
      ⟨firstOld, firstIn, firstId, firstTick, firstStays⟩ | ⟨_, firstNow⟩
    · rw [firstStays, secondStays, ← firstId, ← secondId] at earlier
      rw [← firstTick, ← secondTick]
      exact chronological.inOrder isBuy firstOld firstIn secondOld secondIn earlier
    -- what arrives now has not arrived before an old order
    have before := chronological.before isBuy secondOld secondIn
    rw [secondId] at before
    omega
  rw [secondTick]
  rcases step_origin firstMember with
    ⟨firstOld, firstIn, _, firstTick, _⟩ | ⟨firstTick, _⟩
  · rw [← firstTick]
    exact UInt64.le_trans (chronological.upToNow isBuy firstOld firstIn) later
  rw [firstTick]
  exact UInt64.le_refl _

theorem tradesInTurn_iff (chronological : history.Chronological) (event : BookEvent) :
    history.TradesInTurn event ↔ history.NoEarlierTie event := by
  cases event with
  | place incoming tradesLen currentTick =>
    exact inTurn_placeEncounters_iff (chronological.inOrder _) tradesLen currentTick
  | cancel orderId accountId => exact Iff.rfl

/-- When orders are placed with ticks that do not decrease, all trades of a run are made in
turn exactly if no call meets an earlier order of the same price and tick behind one that
it reaches. -/
theorem tradesInTurn_iff_noEarlierTie (itemTypeId : UInt32) (events : List BookEvent)
    (ascend : EachStep step TicksAscend (new itemTypeId) events) :
    EachStep step TradesInTurn (new itemTypeId) events ↔
      EachStep step NoEarlierTie (new itemTypeId) events := by
  have preserved : ∀ (history : ArrivalHistory) (event : BookEvent),
      history.Chronological → history.TicksAscend event → history.TradesInTurn event →
        (history.step event).Chronological :=
    fun _ _ chronological ascends _ => chronological_step chronological ascends
  have exactly : ∀ (history : ArrivalHistory) (event : BookEvent),
      history.Chronological → history.TicksAscend event →
        (history.TradesInTurn event ↔ history.NoEarlierTie event) :=
    fun _ event chronological _ => tradesInTurn_iff chronological event
  exact eachStep_iff_of_invariant preserved exactly (chronological_new itemTypeId) ascend

instance (history : ArrivalHistory) (event : BookEvent) : Decidable (history.TicksAscend event) :=
  match event with
  | .place incoming _ _ => inferInstanceAs (Decidable (history.lastTick ≤ incoming.placedTick))
  | .cancel _ _ => .isTrue trivial

instance (history : ArrivalHistory) (event : BookEvent) : Decidable (history.TradesInTurn event) :=
  match event with
  | .place incoming tradesLen currentTick =>
    inferInstanceAs (Decidable
      (∀ encounter ∈ history.book.placeEncounters incoming tradesLen currentTick,
        InTurn incoming.isBuy (history.arrived (!incoming.isBuy)) encounter))
  | .cancel _ _ => .isTrue trivial

/-- An ask of 5 units at 100, placed at tick 10. -/
private def askAt (orderId : UInt64) : BookEvent :=
  .place (MarketOrder.new orderId 20 1001 false 100 5 1 .limit 10 1000) 4 10

/-- Two asks of one tick rest; the first one is cancelled and its slot taken by a third. -/
private def slotReused : List BookEvent :=
  [askAt 1, askAt 2, .cancel 1 20, askAt 3]

private def bidForOne : BookEvent :=
  .place (MarketOrder.new 4 30 1001 true 100 5 1 .limit 10 1000) 4 10

theorem tradesInTurn_twoAsks : EachStep step TradesInTurn (new 1001) [askAt 1, askAt 2, bidForOne] ↔
      EachStep step NoEarlierTie (new 1001) [askAt 1, askAt 2, bidForOne] :=
  tradesInTurn_iff_noEarlierTie 1001 [askAt 1, askAt 2, bidForOne] (by decide)

/-- The third ask is traded with before the second one. -/
theorem not_tradesInTurn_slotReused : ¬ ∀ (itemTypeId : UInt32) (events : List BookEvent),
      EachStep step TicksAscend (new itemTypeId) events →
        EachStep step TradesInTurn (new itemTypeId) events := by
  intro always
  have ascend : EachStep step TicksAscend (new 1001) (slotReused ++ [bidForOne]) := by
    decide
  have overtaken : ¬ EachStep step TradesInTurn (new 1001) (slotReused ++ [bidForOne]) := by
    decide
  exact overtaken (always 1001 _ ascend)

end ArrivalHistory

end OrderBook

end Eidolon.Core.Market
