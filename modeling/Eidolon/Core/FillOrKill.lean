import Eidolon.Core.OrderBookConservation

/-!
# Fill or kill

A fill-or-kill order is admitted when the depth it crosses reaches its quantity, and then
matched like any other.  The depth is summed in 32 bits and does not know the output slice,
so the two agree exactly if the wrapped depth reaches the quantity for those orders that
the first orders of the queue, as many as the slice holds, can fill.
-/

namespace Eidolon.Core.Market

open Library List UInt32

namespace OrderBook

private theorem foldl_depth (incoming : MarketOrder) (orders : List MarketOrder) (total : UInt32) :
    (orders.foldl (fun total resting =>
        if crosses incoming resting then total + resting.remainingQuantity else total)
      total).toNat =
      (total.toNat + ((orders.filter (crosses incoming)).map
        fun resting => resting.remainingQuantity.toNat).sum) % 2 ^ 32 := by
  induction orders generalizing total with
  | nil => exact (Nat.mod_eq_of_lt (toNat_lt total)).symm
  | cons order orders ih =>
    rw [foldl_cons, ih]
    by_cases crossed : crosses incoming order = true
    · rw [if_pos crossed, filter_cons_of_pos crossed, map_cons, sum_cons, UInt32.toNat_add]
      omega
    rw [if_neg crossed, filter_cons_of_neg crossed]

theorem toNat_availableQty (book : OrderBook) (incoming : MarketOrder) :
    (book.availableQty incoming).toNat = volume (book.crossing incoming) % 2 ^ 32 := by
  rw [availableQty, foldl_depth, UInt32.toNat_zero, Nat.zero_add, ← SlotArray.map_snd_indexed, List.filter_map, List.map_map]
  rfl

theorem volume_append (first second : List (Nat × MarketOrder)) :
    volume (first ++ second) = volume first + volume second := by
  rw [volume, map_append, sum_append]
  rfl

theorem volume_take_le (book : OrderBook) (incoming : MarketOrder) (room : Nat) :
    volume ((book.matchQueue incoming).take room) ≤ volume (book.crossing incoming) := by
  have sorted : volume (book.matchQueue incoming) = volume (book.crossing incoming) :=
    ((inPriority_perm _).map _).sum_eq
  have parts := volume_append ((book.matchQueue incoming).take room)
    ((book.matchQueue incoming).drop room)
  rw [take_append_drop] at parts
  omega

/-- What the caller of a fill-or-kill order relies on. -/
structure FillsOrKills (book : OrderBook) (incoming : MarketOrder) (tradesLen : Nat)
    (currentTick : UInt64) : Prop where
  kills : ∀ failure,
    (book.placeOrder incoming tradesLen currentTick).result = .error failure →
      (book.placeOrder incoming tradesLen currentTick).book = book
  fills : ∀ tradeCount final,
    (book.placeOrder incoming tradesLen currentTick).result = .ok (tradeCount, final) →
      final.remainingQuantity = 0 ∧
        ((book.placeOrder incoming tradesLen currentTick).tradesOut.map
          fun trade => trade.quantity.toNat).sum = incoming.initialQuantity.toNat
  admits : incoming.initialQuantity.toNat ≤ volume (book.crossing incoming) →
    incoming.initialQuantity.toNat ≤ volume ((book.matchQueue incoming).take tradesLen) →
      ∃ tradeCount final,
        (book.placeOrder incoming tradesLen currentTick).result = .ok (tradeCount, final)

/-- The order is admitted with its whole quantity, and exactly if the orders that the slice
has room for fill it. -/
structure DepthAgrees (book : OrderBook) (incoming : MarketOrder) (tradesLen : Nat) :
    Prop where
  whole : incoming.initialQuantity.toNat ≤ volume (book.crossing incoming) % 2 ^ 32 →
    incoming.remainingQuantity = incoming.initialQuantity
  fillable : incoming.initialQuantity.toNat ≤ volume (book.crossing incoming) % 2 ^ 32 ↔
    incoming.initialQuantity.toNat ≤ volume ((book.matchQueue incoming).take tradesLen)

section Order

variable {book : OrderBook} {incoming : MarketOrder} {tradesLen : Nat} {currentTick : UInt64}
  (fillOrKill : incoming.orderType = .fillOrKill) (priced : incoming.unitPrice ≠ 0)
  (quantity : incoming.initialQuantity ≠ 0)

include fillOrKill priced quantity

theorem placeOrder_killed
    (shallow : volume (book.crossing incoming) % 2 ^ 32 < incoming.initialQuantity.toNat) :
    book.placeOrder incoming tradesLen currentTick = ⟨.error .fillOrKillUnfulfilled, [], book⟩ := by
  have invalid : ¬ (incoming.unitPrice = 0 ∨ incoming.initialQuantity = 0) := by
    simp [priced, quantity]
  rw [placeOrder, if_neg invalid, if_pos]
  refine ⟨fillOrKill, ?_⟩
  rw [lt_iff_toNat_lt, toNat_availableQty]
  exact shallow

theorem placeOrder_admitted
    (deep : incoming.initialQuantity.toNat ≤ volume (book.crossing incoming) % 2 ^ 32) :
    ∃ final, (book.placeOrder incoming tradesLen currentTick).result =
        .ok ((matchLoop currentTick tradesLen book incoming).trades.length, final) ∧
      final.remainingQuantity =
        (matchLoop currentTick tradesLen book incoming).incoming.remainingQuantity ∧
      (book.placeOrder incoming tradesLen currentTick).tradesOut =
        (matchLoop currentTick tradesLen book incoming).trades := by
  have invalid : ¬ (incoming.unitPrice = 0 ∨ incoming.initialQuantity = 0) := by
    simp [priced, quantity]
  have admitted : ¬ (incoming.orderType = .fillOrKill ∧
      book.availableQty incoming < incoming.initialQuantity) := by
    rw [lt_iff_toNat_lt, toNat_availableQty]
    omega
  have kind : (matchLoop currentTick tradesLen book incoming).incoming.orderType =
      .fillOrKill := by
    rw [(matchLoop_frame currentTick tradesLen book incoming).1]
    exact fillOrKill
  rw [placeOrder, if_neg invalid, if_neg admitted]
  unfold finalizeOrder
  by_cases filled : (matchLoop currentTick tradesLen book incoming).incoming.remainingQuantity = 0
  · simp only [if_pos filled]
    exact ⟨_, rfl, rfl, trivial⟩
  simp only [if_neg filled, kind]
  exact ⟨_, rfl, rfl, trivial⟩

/-- A fill-or-kill order is filled or killed, and filled when it can be, exactly if the
check of the depth agrees with the slice. -/
theorem fillsOrKills_iff :
    FillsOrKills book incoming tradesLen currentTick ↔ DepthAgrees book incoming tradesLen := by
  have left := matchLoop_remaining currentTick tradesLen book incoming
  have sum := quantities_matchLoop currentTick tradesLen book incoming
  have bound := volume_take_le book incoming tradesLen
  constructor
  · intro promise
    have exactly : incoming.initialQuantity.toNat ≤ volume (book.crossing incoming) % 2 ^ 32 →
          incoming.remainingQuantity.toNat = incoming.initialQuantity.toNat ∧
            incoming.initialQuantity.toNat ≤
              volume ((book.matchQueue incoming).take tradesLen) := by
      intro deep
      rcases @placeOrder_admitted book incoming tradesLen currentTick fillOrKill priced
        quantity deep with ⟨final, result, remaining, trades⟩
      rcases promise.fills _ final result with ⟨filled, traded⟩
      rw [trades] at traded
      rw [remaining, ← UInt32.toNat_inj, UInt32.toNat_zero] at filled
      omega
    refine ⟨?_, ?_, ?_⟩
    · intro deep
      exact UInt32.toNat_inj.mp (exactly deep).1
    · intro deep
      exact (exactly deep).2
    intro enough
    by_contra shallow
    rcases promise.admits (by omega) enough with ⟨tradeCount, final, result⟩
    rw [placeOrder_killed fillOrKill priced quantity (by omega)] at result
    cases result
  intro agrees
  by_cases deep : incoming.initialQuantity.toNat ≤ volume (book.crossing incoming) % 2 ^ 32
  · rcases @placeOrder_admitted book incoming tradesLen currentTick fillOrKill priced
      quantity deep with ⟨final, result, remaining, trades⟩
    have whole := congrArg UInt32.toNat (agrees.whole deep)
    have enough := agrees.fillable.mp deep
    refine ⟨?_, ?_, ?_⟩
    · intro failure failed
      rw [result] at failed
      cases failed
    · intro tradeCount other same
      rw [result] at same
      cases same
      rw [trades, remaining, ← UInt32.toNat_inj, UInt32.toNat_zero]
      omega
    intro _ _
    exact ⟨_, final, result⟩
  have killed := @placeOrder_killed book incoming tradesLen currentTick fillOrKill
    priced quantity (by omega)
  refine ⟨?_, ?_, ?_⟩
  · intro failure _
    rw [killed]
  · intro tradeCount final same
    rw [killed] at same
    cases same
  intro _ enough
  exact absurd (agrees.fillable.mpr enough) deep

end Order

private def twoAsks : OrderBook :=
  let first := MarketOrder.new 1 10 1001 false 100 5 1 .limit 10 1000
  let second := MarketOrder.new 2 20 1001 false 100 5 1 .limit 20 1000
  (((OrderBook.new 1001).placeOrder first 4 10).book.placeOrder second 4 20).book

private def bidForBoth : MarketOrder :=
  MarketOrder.new 3 30 1001 true 100 10 1 .fillOrKill 30 1000

theorem fillsOrKills_twoAsks : FillsOrKills twoAsks bidForBoth 4 30 := by
  refine (fillsOrKills_iff rfl (by decide) (by decide)).mpr ⟨fun _ => rfl, ?_⟩
  decide

/-- With room for one trade the order is reported as done with half of it open. -/
theorem not_fillsOrKills_shortSlice :
    ¬ ∀ (book : OrderBook) (incoming : MarketOrder) (tradesLen : Nat) (currentTick : UInt64),
      incoming.orderType = .fillOrKill → incoming.unitPrice ≠ 0 → incoming.initialQuantity ≠ 0 →
          FillsOrKills book incoming tradesLen currentTick := by
  intro always
  have promise := always twoAsks bidForBoth 1 30 rfl (by decide) (by decide)
  have result : (twoAsks.placeOrder bidForBoth 1 30).result =
      .ok (1, { bidForBoth with remainingQuantity := 5 }) := by
    decide
  exact absurd (promise.fills _ _ result).1 (by decide)

end OrderBook

end Eidolon.Core.Market
