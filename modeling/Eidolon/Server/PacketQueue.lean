import Eidolon.Library.Ring

/-!
# The packet queue

A ring of slots with a head, a tail and a length.  Used by one caller after another it is a
bounded queue that hands out packets in the order of their arrival, and each batch does what
single operations do one after another.
-/

namespace Eidolon.Server

open Library List

structure SpscPacketQueue (cap : Nat) (Packet : Type) where
  slots : List (Option Packet)
  head : Nat
  tail : Nat
  len : Nat
  deriving DecidableEq

namespace SpscPacketQueue

variable {cap : Nat} {Packet : Type}

def new (cap : Nat) (Packet : Type) : SpscPacketQueue cap Packet where
  slots := List.replicate cap none
  head := 0
  tail := 0
  len := 0

def nextIndex (cap index : Nat) : Nat :=
  if cap = 2 ^ cap.log2 then (index + 1) &&& (cap - 1) else (index + 1) % cap

variable (queue : SpscPacketQueue cap Packet)

def putTail (packet : Packet) : SpscPacketQueue cap Packet :=
  { queue with
    slots := queue.slots.set queue.tail (some packet)
    tail := nextIndex cap queue.tail
    len := queue.len + 1 }

def takeHead : SpscPacketQueue cap Packet :=
  { queue with
    slots := queue.slots.set queue.head none
    head := nextIndex cap queue.head }

def withLen (len : Nat) : SpscPacketQueue cap Packet :=
  { queue with len := len }

def tryPush (packet : Packet) : Bool × SpscPacketQueue cap Packet :=
  if cap ≤ queue.len then (false, queue)
  else if queue.tail < queue.slots.length then (true, queue.putTail packet)
  else (false, queue)

def tryPop : Option Packet × SpscPacketQueue cap Packet :=
  if queue.len = 0 then (none, queue)
  else
    match queue.slots[queue.head]? with
    | none => (none, queue)
    | some packet => (packet, queue.takeHead.withLen (queue.len - 1))

def tryPushBatch : List Packet → SpscPacketQueue cap Packet → Nat × SpscPacketQueue cap Packet
  | [], queue => (0, queue)
  | packet :: packets, queue =>
    if cap ≤ queue.len then (0, queue)
    else if queue.tail < queue.slots.length then
      let (pushed, queue) := tryPushBatch packets (queue.putTail packet)
      (pushed + 1, queue)
    else (0, queue)

def popSlots : Nat → SpscPacketQueue cap Packet → List Packet × SpscPacketQueue cap Packet
  | 0, queue => ([], queue)
  | count + 1, queue =>
    match queue.slots[queue.head]? with
    | some (some packet) =>
      let (packets, queue) := popSlots count queue.takeHead
      (packet :: packets, queue)
    | _ => ([], queue)

/-- The packets that are written to the front of a destination. -/
def tryPopBatch (room : Nat) (queue : SpscPacketQueue cap Packet) :
    List Packet × SpscPacketQueue cap Packet :=
  let (packets, popped) := popSlots (min room queue.len) queue
  (packets, popped.withLen (queue.len - packets.length))

def drainSlots : Nat → SpscPacketQueue cap Packet →
    List (Option Packet) × SpscPacketQueue cap Packet
  | 0, queue => ([], queue)
  | count + 1, queue =>
    let (slots, drained) := drainSlots count queue.takeHead
    ((queue.slots[queue.head]?).join :: slots, drained)

def drainInto (room : Nat) (queue : SpscPacketQueue cap Packet) :
    List (Option Packet) × SpscPacketQueue cap Packet :=
  let (slots, drained) := drainSlots (min room queue.len) queue
  (slots, drained.withLen (queue.len - min room queue.len))

/-- Single pushes one after another, and how many are accepted. -/
def repeatPush : List Packet → SpscPacketQueue cap Packet → Nat × SpscPacketQueue cap Packet
  | [], queue => (0, queue)
  | packet :: packets, queue =>
    match queue.tryPush packet with
    | (true, queue) =>
      let (pushed, queue) := repeatPush packets queue
      (pushed + 1, queue)
    | (false, queue) => repeatPush packets queue

/-- Single pops one after another, and what they return. -/
def repeatPop : Nat → SpscPacketQueue cap Packet → List Packet × SpscPacketQueue cap Packet
  | 0, queue => ([], queue)
  | count + 1, queue =>
    match queue.tryPop with
    | (some packet, queue) =>
      let (packets, queue) := repeatPop count queue
      (packet :: packets, queue)
    | (none, queue) => repeatPop count queue

end SpscPacketQueue

inductive QueueCall (Packet : Type) where
  | tryPush (packet : Packet)
  | tryPop
  | tryPushBatch (packets : List Packet)
  | tryPopBatch (room : Nat)
  | drainInto (room : Nat)
  | len

inductive QueueReply (Packet : Type) where
  | pushed (accepted : Bool)
  | popped (packet : Option Packet)
  | batch (packets : List Packet)
  | drained (slots : List (Option Packet))
  | count (packets : Nat)

/-- What a bounded queue of packets answers, oldest packet first. -/
def fifoStep {Packet : Type} (cap : Nat) (items : List Packet) :
    QueueCall Packet → QueueReply Packet × List Packet
  | .tryPush packet =>
    (.pushed (decide (items.length < cap)),
      if items.length < cap then items ++ [packet] else items)
  | .tryPop => (.popped items.head?, items.tail)
  | .tryPushBatch packets =>
    (.count (min packets.length (cap - items.length)), items ++ packets.take (cap - items.length))
  | .tryPopBatch room => (.batch (items.take room), items.drop room)
  | .drainInto room => (.drained ((items.take room).map some), items.drop room)
  | .len => (.count items.length, items)

/-- The replies to a list of calls, and the state behind them. -/
def answers {State Call Reply : Type} (step : State → Call → Reply × State) :
    State → List Call → List Reply × State
  | state, [] => ([], state)
  | state, call :: calls =>
    let (replies, last) := answers step (step state call).2 calls
    ((step state call).1 :: replies, last)

namespace SpscPacketQueue

variable {cap : Nat} {Packet : Type}

def step (queue : SpscPacketQueue cap Packet) :
    QueueCall Packet → QueueReply Packet × SpscPacketQueue cap Packet
  | .tryPush packet => ((queue.tryPush packet).map .pushed id)
  | .tryPop => queue.tryPop.map .popped id
  | .tryPushBatch packets => (queue.tryPushBatch packets).map .count id
  | .tryPopBatch room => (queue.tryPopBatch room).map .batch id
  | .drainInto room => (queue.drainInto room).map .drained id
  | .len => (.count queue.len, queue)

structure Stores (queue : SpscPacketQueue cap Packet) (items : List Packet) : Prop where
  length_eq : queue.slots.length = cap
  fits : items.length ≤ cap
  ring : 0 < cap → InRing queue.slots queue.head items
  tail_eq : 0 < cap → queue.tail = (queue.head + items.length) % cap

structure Holds (queue : SpscPacketQueue cap Packet) (items : List Packet) : Prop
    extends queue.Stores items where
  len_eq : queue.len = items.length

theorem nextIndex_eq (cap index : Nat) : nextIndex cap index = (index + 1) % cap := by
  rw [nextIndex]
  split
  · rename_i power
    have masked := Nat.and_two_pow_sub_one_eq_mod (index + 1) cap.log2
    rw [← power] at masked
    exact masked
  rfl

theorem holds_new : (new cap Packet).Holds [] where
  length_eq := length_replicate
  fits := Nat.zero_le cap
  ring := InRing.empty
  tail_eq _ := (Nat.zero_mod cap).symm
  len_eq := rfl

variable {queue : SpscPacketQueue cap Packet} {items : List Packet} {packet : Packet}

theorem Stores.putTail (stores : queue.Stores items) (room : items.length < cap)
    (packet : Packet) : (queue.putTail packet).Stores (items ++ [packet]) := by
  have positive : 0 < cap := Nat.zero_lt_of_lt room
  refine ⟨?_, ?_, fun _ => ?_, fun _ => ?_⟩
  · exact length_set.trans stores.length_eq
  · rw [length_append]
    exact room
  · have appended := (stores.ring positive).append
      (Nat.lt_of_lt_of_eq room stores.length_eq.symm) packet
    rw [stores.length_eq, ← stores.tail_eq positive] at appended
    exact appended
  rw [SpscPacketQueue.putTail, nextIndex_eq, stores.tail_eq positive, Nat.mod_add_mod,
    length_append]
  rfl

theorem Stores.takeHead (stores : queue.Stores (packet :: items)) :
    queue.slots[queue.head]? = some (some packet) ∧ queue.takeHead.Stores items := by
  have fits := stores.fits
  rw [length_cons] at fits
  have positive : 0 < cap := by omega
  have tail := (stores.ring positive).tail
  rw [stores.length_eq, ← nextIndex_eq] at tail
  refine ⟨(stores.ring positive).getElem?_head, ?_, by omega, fun _ => tail, fun _ => ?_⟩
  · exact length_set.trans stores.length_eq
  have same : queue.head + (items.length + 1) = queue.head + 1 + items.length := by
    omega
  rw [SpscPacketQueue.takeHead, nextIndex_eq, Nat.mod_add_mod]
  exact (stores.tail_eq positive).trans (congrArg (· % cap) same)

theorem Holds.tryPush (holds : queue.Holds items) (packet : Packet) :
    (queue.tryPush packet).1 = decide (items.length < cap) ∧ (queue.tryPush packet).2.Holds
        (if items.length < cap then items ++ [packet] else items) := by
  by_cases room : items.length < cap
  · have inside : queue.tail < queue.slots.length := by
      rw [holds.length_eq, holds.tail_eq (Nat.zero_lt_of_lt room)]
      exact Nat.mod_lt _ (Nat.zero_lt_of_lt room)
    rw [SpscPacketQueue.tryPush, holds.len_eq, if_neg (Nat.not_le.mpr room), if_pos inside,
      if_pos room]
    refine ⟨(decide_eq_true room).symm, holds.toStores.putTail room packet, ?_⟩
    rw [length_append, ← holds.len_eq]
    rfl
  rw [SpscPacketQueue.tryPush, holds.len_eq, if_pos (Nat.not_lt.mp room), if_neg room]
  exact ⟨(decide_eq_false room).symm, holds⟩

theorem Holds.tryPop_cons (holds : queue.Holds (packet :: items)) :
    queue.tryPop = (some packet, queue.takeHead.withLen items.length) ∧
      (queue.takeHead.withLen items.length).Holds items := by
  obtain ⟨atHead, stores⟩ := holds.toStores.takeHead
  refine ⟨?_, ⟨stores.length_eq, stores.fits, stores.ring, stores.tail_eq⟩, rfl⟩
  have notEmpty : items.length + 1 ≠ 0 := Nat.succ_ne_zero _
  rw [SpscPacketQueue.tryPop, holds.len_eq, length_cons, if_neg notEmpty, atHead]
  rfl

theorem Holds.tryPop_nil (holds : queue.Holds ([] : List Packet)) :
    queue.tryPop = (none, queue) := by
  have empty : queue.len = 0 := holds.len_eq
  rw [SpscPacketQueue.tryPop, if_pos empty]

theorem repeatPush_of_refused (packets : List Packet)
    (refused : cap ≤ queue.len ∨ ¬ queue.tail < queue.slots.length) :
    queue.repeatPush packets = (0, queue) := by
  have single (packet : Packet) : queue.tryPush packet = (false, queue) := by
    rw [SpscPacketQueue.tryPush]
    rcases refused with full | outside
    · rw [if_pos full]
    rw [if_neg outside, ite_self]
  induction packets with
  | nil => rfl
  | cons packet packets ih =>
    rw [repeatPush, single]
    exact ih

theorem tryPushBatch_eq (packets : List Packet) (queue : SpscPacketQueue cap Packet) :
    queue.tryPushBatch packets = queue.repeatPush packets := by
  induction packets generalizing queue with
  | nil => rfl
  | cons packet packets ih =>
    by_cases full : cap ≤ queue.len
    · rw [tryPushBatch, if_pos full, repeatPush_of_refused _ (Or.inl full)]
    by_cases inside : queue.tail < queue.slots.length
    · rw [tryPushBatch, if_neg full, if_pos inside, repeatPush, SpscPacketQueue.tryPush,
        if_neg full, if_pos inside, ih]
    rw [tryPushBatch, if_neg full, if_neg inside, repeatPush_of_refused _ (Or.inr inside)]

theorem Holds.repeatPush (holds : queue.Holds items) (packets : List Packet) :
    (queue.repeatPush packets).1 = min packets.length (cap - items.length) ∧
      (queue.repeatPush packets).2.Holds (items ++ packets.take (cap - items.length)) := by
  induction packets generalizing queue items with
  | nil =>
    rw [take_nil, append_nil, length_nil, Nat.zero_min]
    exact ⟨rfl, holds⟩
  | cons packet packets ih =>
    obtain ⟨accepted, after⟩ := holds.tryPush packet
    rcases pushed : queue.tryPush packet with ⟨reply, next⟩
    rw [pushed] at accepted after
    rw [SpscPacketQueue.repeatPush, pushed]
    by_cases room : items.length < cap
    · rw [if_pos room] at after
      obtain ⟨count, rest⟩ := ih after
      have isAccepted : reply = true := accepted.trans (decide_eq_true room)
      have space : cap - items.length = cap - (items ++ [packet]).length + 1 := by
        rw [length_append, length_singleton]
        omega
      rw [space, isAccepted, take_succ_cons, length_cons, Nat.add_min_add_right, ← count]
      rw [append_assoc] at rest
      exact ⟨rfl, rest⟩
    rw [if_neg room] at after
    have isRefused : reply = false := accepted.trans (decide_eq_false room)
    have space : cap - items.length = 0 := by omega
    obtain ⟨count, rest⟩ := ih after
    rw [space, Nat.min_zero] at count
    rw [space, take_zero] at rest
    rw [space, Nat.min_zero, take_zero, isRefused]
    exact ⟨count, rest⟩

theorem iterate_takeHead_len (count len : Nat) (queue : SpscPacketQueue cap Packet) :
    SpscPacketQueue.takeHead^[count] (queue.withLen len) =
      (SpscPacketQueue.takeHead^[count] queue).withLen len := by
  induction count generalizing queue with
  | zero => rfl
  | succ count ih => exact ih queue.takeHead

theorem Stores.iterate_takeHead (stores : queue.Stores items) {count : Nat}
    (enough : count ≤ items.length) :
    (SpscPacketQueue.takeHead^[count] queue).Stores (items.drop count) ∧
      popSlots count queue = (items.take count, SpscPacketQueue.takeHead^[count] queue) ∧
      drainSlots count queue =
        ((items.take count).map some, SpscPacketQueue.takeHead^[count] queue) := by
  induction count generalizing queue items with
  | zero => exact ⟨stores, rfl, rfl⟩
  | succ count ih =>
    rcases items with _ | ⟨packet, items⟩
    · cases enough
    obtain ⟨atHead, next⟩ := stores.takeHead
    obtain ⟨left, popped, drained⟩ := ih next (Nat.le_of_succ_le_succ enough)
    refine ⟨left, ?_, ?_⟩
    · rw [popSlots, atHead]
      simp only [popped]
      rfl
    rw [drainSlots, atHead, drained]
    rfl

section

variable (holds : queue.Holds items)
include holds

theorem Holds.repeatPop (count : Nat) : queue.repeatPop count =
      (items.take count, (SpscPacketQueue.takeHead^[min count items.length] queue).withLen
          (items.length - count)) := by
  induction count generalizing queue items with
  | zero =>
    rw [Nat.zero_min, Nat.sub_zero, ← holds.len_eq]
    rfl
  | succ count ih =>
    rcases items with _ | ⟨packet, items⟩
    · rw [SpscPacketQueue.repeatPop, holds.tryPop_nil]
      simp only [ih holds, take_nil, length_nil, Nat.min_zero, Nat.zero_sub]
    obtain ⟨popped, next⟩ := holds.tryPop_cons
    rw [SpscPacketQueue.repeatPop, popped]
    simp only [ih next, iterate_takeHead_len, length_cons, Nat.add_min_add_right,
      Nat.add_sub_add_right, Function.iterate_succ_apply, take_succ_cons]
    rfl

theorem Holds.tryPopBatch_eq (room : Nat) : queue.tryPopBatch room = queue.repeatPop room := by
  have popped := (holds.toStores.iterate_takeHead (Nat.min_le_right room items.length)).2.1
  have taken : items.take (min room items.length) = items.take room := take_eq_take_min.symm
  have left : items.length - (items.take room).length = items.length - room := by
    rw [length_take]
    omega
  rw [tryPopBatch, holds.len_eq, popped, holds.repeatPop]
  simp only [taken, left]

theorem Holds.drainInto_eq (room : Nat) :
    queue.drainInto room = (queue.repeatPop room).map (List.map some) id := by
  have drained := (holds.toStores.iterate_takeHead (Nat.min_le_right room items.length)).2.2
  have taken : items.take (min room items.length) = items.take room := take_eq_take_min.symm
  have left : items.length - min room items.length = items.length - room := by
    omega
  rw [drainInto, holds.len_eq, drained, holds.repeatPop]
  simp only [taken, left, Prod.map_apply, id_eq]

theorem Holds.holds_repeatPop (count : Nat) :
    (queue.repeatPop count).2.Holds (items.drop count) := by
  have left := (holds.toStores.iterate_takeHead (Nat.min_le_right count items.length)).1
  have dropped : items.drop (min count items.length) = items.drop count := by
    rcases Nat.le_total count items.length with within | past
    · rw [Nat.min_eq_left within]
    rw [Nat.min_eq_right past, drop_length, drop_eq_nil_of_le past]
  rw [dropped] at left
  rw [holds.repeatPop]
  exact ⟨⟨left.length_eq, left.fits, left.ring, left.tail_eq⟩, length_drop.symm⟩

theorem Holds.step (call : QueueCall Packet) : (queue.step call).1 = (fifoStep cap items call).1 ∧
      (queue.step call).2.Holds (fifoStep cap items call).2 := by
  cases call with
  | tryPush packet =>
    obtain ⟨accepted, after⟩ := holds.tryPush packet
    exact ⟨congrArg QueueReply.pushed accepted, after⟩
  | tryPop =>
    rcases items with _ | ⟨packet, items⟩
    · rw [SpscPacketQueue.step, holds.tryPop_nil]
      exact ⟨rfl, holds⟩
    obtain ⟨popped, next⟩ := holds.tryPop_cons
    rw [SpscPacketQueue.step, popped]
    exact ⟨rfl, next⟩
  | tryPushBatch packets =>
    obtain ⟨count, after⟩ := holds.repeatPush packets
    rw [SpscPacketQueue.step, tryPushBatch_eq]
    exact ⟨congrArg QueueReply.count count, after⟩
  | tryPopBatch room =>
    rw [SpscPacketQueue.step, holds.tryPopBatch_eq]
    refine ⟨?_, holds.holds_repeatPop room⟩
    rw [holds.repeatPop]
    rfl
  | drainInto room =>
    rw [SpscPacketQueue.step, holds.drainInto_eq]
    refine ⟨?_, holds.holds_repeatPop room⟩
    rw [holds.repeatPop]
    rfl
  | len => exact ⟨congrArg QueueReply.count holds.len_eq, holds⟩

theorem Holds.answers (calls : List (QueueCall Packet)) :
    (answers SpscPacketQueue.step queue calls).1 = (answers (fifoStep cap) items calls).1 ∧
      (answers SpscPacketQueue.step queue calls).2.Holds
        (answers (fifoStep cap) items calls).2 := by
  induction calls generalizing queue items with
  | nil => exact ⟨rfl, holds⟩
  | cons call calls ih =>
    obtain ⟨reply, after⟩ := holds.step call
    obtain ⟨replies, last⟩ := ih after
    refine ⟨?_, last⟩
    simp only [Server.answers, reply, replies]

end

/-- Every list of calls is answered as a bounded queue answers it, and in every state that is
reached a batch replies and does what its single operations do. -/
theorem answers_refine (cap : Nat) (Packet : Type) (calls : List (QueueCall Packet)) :
    (answers SpscPacketQueue.step (new cap Packet) calls).1 = (answers (fifoStep cap) [] calls).1 ∧
      (∀ packets, tryPushBatch packets (answers SpscPacketQueue.step (new cap Packet) calls).2 =
        repeatPush packets (answers SpscPacketQueue.step (new cap Packet) calls).2) ∧
      (∀ room, tryPopBatch room (answers SpscPacketQueue.step (new cap Packet) calls).2 =
        repeatPop room (answers SpscPacketQueue.step (new cap Packet) calls).2) ∧
      ∀ room, drainInto room (answers SpscPacketQueue.step (new cap Packet) calls).2 =
        (repeatPop room (answers SpscPacketQueue.step (new cap Packet) calls).2).map
          (List.map some) id := by
  obtain ⟨replies, holds⟩ := holds_new.answers calls
  exact ⟨replies, fun packets => tryPushBatch_eq packets _, holds.tryPopBatch_eq,
    holds.drainInto_eq⟩

end SpscPacketQueue

end Eidolon.Server
