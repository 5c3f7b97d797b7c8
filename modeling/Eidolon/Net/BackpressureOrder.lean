import Eidolon.Library.Run
import Eidolon.Net.Backpressure

/-!
# Order in the bounded queues

The ring of either queue stands for the list of its packets. Pushing appends to it, popping
takes its head, and evicting takes its first unreliable packet, so that reliable packets
leave in the order in which they came.
-/

namespace Eidolon.Net

open Library List

universe u

variable {T : Type u} {cap : Nat}

inductive QueueKind where
  | ingress
  | egress

def QueueKind.push (kind : QueueKind) (queue : BoundedQueue T cap) (payload : T)
    (isReliable : Bool) (sequence : UInt16) : Except NetError Unit × BoundedQueue T cap :=
  match kind with
  | .ingress => BoundedIngressQueue.push queue payload isReliable sequence
  | .egress => BoundedEgressQueue.push queue payload isReliable sequence

inductive QueueCall (T : Type u) where
  | push (payload : T) (isReliable : Bool) (sequence : UInt16)
  | pop
  | drainInto (dest : List (Option (PrioritizedPacket T)))

/-- A queue with the packets that it accepted and those that were popped. -/
structure Traffic (T : Type u) (cap : Nat) where
  queue : BoundedQueue T cap
  accepted : List (PrioritizedPacket T)
  popped : List (PrioritizedPacket T)

def Traffic.new : Traffic T cap where
  queue := .new
  accepted := []
  popped := []

def Traffic.step (kind : QueueKind) (traffic : Traffic T cap) : QueueCall T → Traffic T cap
  | .push payload isReliable sequence =>
    match kind.push traffic.queue payload isReliable sequence with
    | (.ok (), queue) =>
      { traffic with
        queue := queue
        accepted := traffic.accepted ++ [⟨payload, isReliable, sequence⟩] }
    | (.error _, queue) => { traffic with queue := queue }
  | .pop =>
    { traffic with
      queue := traffic.queue.pop.2
      popped := traffic.popped ++ traffic.queue.pop.1.toList }
  | .drainInto dest =>
    let (count, filled, queue) := traffic.queue.drainInto dest
    { traffic with
      queue := queue
      popped := traffic.popped ++ (filled.take count).reduceOption }

/-- The packets in the slots, from the head on. -/
def BoundedQueue.queued (queue : BoundedQueue T cap) : List (PrioritizedPacket T) :=
  (queue.slots.rotate queue.head).reduceOption

def EvictsOldest (before kept : List (PrioritizedPacket T)) : Prop :=
  ∃ front victim back, before = front ++ victim :: back ∧
    (∀ other ∈ front, other.isReliable = true) ∧ victim.isReliable = false ∧
    kept = front ++ back

def PushOutcome (cap : Nat) (packet : PrioritizedPacket T)
    (before after : List (PrioritizedPacket T)) : Except NetError Unit → Prop
  | .ok () => ∃ kept, (kept = before ∨ EvictsOldest before kept) ∧ after = kept ++ [packet]
  | .error _ => after = before ∧
      (packet.isReliable = true → before.length = cap ∧ ∀ other ∈ before, other.isReliable = true)

/-- No accepted reliable packet is missing, and the packets are in order and counted. -/
structure Traffic.Kept (traffic : Traffic T cap) : Prop where
  reliable : (traffic.popped ++ traffic.queue.queued).filter (·.isReliable) =
    traffic.accepted.filter (·.isReliable)
  order : (traffic.popped ++ traffic.queue.queued).Sublist traffic.accepted
  counts : traffic.queue.reliableCount + traffic.queue.unreliableCount = traffic.queue.len
  occupied : traffic.queue.len = traffic.queue.slots.countP Option.isSome

/-- What a call should do to the packets of a queue. -/
def Traffic.Behaves (kind : QueueKind) (traffic : Traffic T cap) : QueueCall T → Prop
  | .push payload isReliable sequence =>
    PushOutcome cap ⟨payload, isReliable, sequence⟩ traffic.queue.queued
      (kind.push traffic.queue payload isReliable sequence).2.queued
      (kind.push traffic.queue payload isReliable sequence).1
  | .pop =>
    traffic.queue.pop.1 = traffic.queue.queued.head? ∧
      traffic.queue.pop.2.queued = traffic.queue.queued.tail
  | .drainInto dest =>
    let count := min dest.length traffic.queue.queued.length
    (traffic.queue.drainInto dest).1 = count ∧ (traffic.queue.drainInto dest).2.1 =
        (traffic.queue.queued.take count).map some ++ dest.drop count ∧
      (traffic.queue.drainInto dest).2.2.queued = traffic.queue.queued.drop count

theorem EvictsOldest.length_eq {before kept : List (PrioritizedPacket T)}
    (evicts : EvictsOldest before kept) : before.length = kept.length + 1 := by
  obtain ⟨front, victim, back, rfl, -, -, rfl⟩ := evicts
  rw [length_append, length_append]
  rfl

theorem filter_of_made {before kept : List (PrioritizedPacket T)}
    (made : kept = before ∨ EvictsOldest before kept) :
    kept.filter (·.isReliable) = before.filter (·.isReliable) := by
  rcases made with rfl | ⟨front, victim, back, rfl, -, unreliable, rfl⟩
  · rfl
  rw [filter_append, filter_append, filter_cons_of_neg]
  rw [unreliable]
  exact Bool.false_ne_true

theorem sublist_of_made {before kept : List (PrioritizedPacket T)}
    (made : kept = before ∨ EvictsOldest before kept) : kept.Sublist before := by
  rcases made with rfl | ⟨front, victim, back, rfl, -, -, rfl⟩
  · exact List.Sublist.refl _
  exact (List.Sublist.refl front).append (sublist_cons_self victim back)

namespace BoundedQueue

structure Laid (queue : BoundedQueue T cap) (packets : List (PrioritizedPacket T)) : Prop where
  size : queue.slots.length = cap
  ring : InRing queue.slots queue.head packets
  tail : queue.tail = (queue.head + packets.length) % cap
  len : queue.len = packets.length

structure Holds (queue : BoundedQueue T cap) (packets : List (PrioritizedPacket T)) : Prop where
  laid : queue.Laid packets
  reliable : queue.reliableCount = packets.countP (·.isReliable)
  unreliable : queue.unreliableCount = packets.countP (!·.isReliable)

variable {queue : BoundedQueue T cap} {packets : List (PrioritizedPacket T)}

theorem Laid.queued_eq (laid : queue.Laid packets) : queue.queued = packets :=
  laid.ring.reduceOption_rotate

theorem Laid.length_le (laid : queue.Laid packets) : packets.length ≤ cap := by
  rw [← laid.size]
  exact laid.ring.length_le

theorem Laid.head_lt (laid : queue.Laid packets) : queue.head < cap := by
  have inside := laid.ring.inside
  rw [laid.size] at inside
  exact inside

theorem holds_new (positive : 0 < cap) : (new : BoundedQueue T cap).Holds [] := by
  refine ⟨⟨length_replicate, InRing.empty positive, ?_, rfl⟩, rfl, rfl⟩
  exact (Nat.zero_mod cap).symm

theorem countP_reliable_add (packets : List (PrioritizedPacket T)) :
    packets.countP (·.isReliable) + packets.countP (!·.isReliable) = packets.length := by
  induction packets with
  | nil => rfl
  | cons packet packets ih =>
    rw [countP_cons, countP_cons, length_cons]
    cases packet.isReliable with
    | true =>
      simp only [Bool.not_true, Bool.false_eq_true, if_true, if_false]
      omega
    | false =>
      simp only [Bool.not_false, Bool.false_eq_true, if_true, if_false]
      omega

theorem pop_of_nil (holds : queue.Holds []) : queue.pop = (none, queue) := by
  have isEmpty : queue.len = 0 := holds.laid.len
  rw [pop, if_pos isEmpty]

theorem Holds.pop_cons {packet : PrioritizedPacket T} (holds : queue.Holds (packet :: packets)) :
    queue.pop.1 = some packet ∧ queue.pop.2.Holds packets := by
  have notEmpty : queue.len ≠ 0 := by
    rw [holds.laid.len]
    exact Nat.succ_ne_zero _
  have taken := holds.laid.ring.tail
  rw [holds.laid.size] at taken
  have laid : ({ queue with
      slots := queue.slots.set queue.head none
      head := (queue.head + 1) % cap
      len := queue.len - 1 } : BoundedQueue T cap).Laid packets := by
    refine ⟨?_, taken, ?_, ?_⟩
    · rw [length_set]
      exact holds.laid.size
    · rw [holds.laid.tail, Nat.mod_add_mod, length_cons, Nat.add_assoc, Nat.add_comm 1]
    rw [holds.laid.len, length_cons, Nat.add_sub_cancel]
  have reliable := holds.reliable
  have unreliable := holds.unreliable
  rw [countP_cons] at reliable unreliable
  rw [pop, if_neg notEmpty, holds.laid.ring.getElem?_head]
  by_cases kind : packet.isReliable = true
  · simp only [kind, if_true, Bool.not_true, Bool.false_eq_true, if_false] at reliable unreliable ⊢
    refine ⟨trivial, ⟨laid.size, laid.ring, laid.tail, laid.len⟩, ?_, unreliable⟩
    dsimp only
    omega
  simp only [kind, if_true, Bool.not_false, Bool.false_eq_true, if_false] at reliable unreliable ⊢
  refine ⟨trivial, ⟨laid.size, laid.ring, laid.tail, laid.len⟩, reliable, ?_⟩
  dsimp only
  omega

theorem Holds.pop (holds : queue.Holds packets) :
    queue.pop.1 = packets.head? ∧ queue.pop.2.Holds packets.tail := by
  cases packets with
  | nil =>
    rw [pop_of_nil holds]
    exact ⟨rfl, holds⟩
  | cons packet packets => exact holds.pop_cons

theorem Holds.popInto (holds : queue.Holds packets) {count : Nat} (enough : count ≤ packets.length)
    {dest : List (Option (PrioritizedPacket T))} (room : count ≤ dest.length) :
    (popInto count queue dest).1 = (packets.take count).map some ++ dest.drop count ∧
      (popInto count queue dest).2.Holds (packets.drop count) := by
  induction count generalizing queue packets dest with
  | zero =>
    cases dest with
    | _ => exact ⟨rfl, holds⟩
  | succ count ih =>
    rcases packets with _ | ⟨packet, packets⟩
    · exact absurd enough (Nat.not_succ_le_zero count)
    rcases dest with _ | ⟨slot, dest⟩
    · exact absurd room (Nat.not_succ_le_zero count)
    obtain ⟨first, rest⟩ := holds.pop_cons
    obtain ⟨filled, left⟩ := ih rest (Nat.le_of_succ_le_succ enough) (Nat.le_of_succ_le_succ room)
    rw [BoundedQueue.popInto]
    dsimp only
    rw [first, filled]
    exact ⟨rfl, left⟩

theorem Laid.enqueueTail (laid : queue.Laid packets) (room : packets.length < cap)
    (packet : PrioritizedPacket T) : (queue.enqueueTail packet).Laid (packets ++ [packet]) := by
  have positive : 0 < cap := Nat.zero_lt_of_lt room
  have roomSlots : packets.length < queue.slots.length := by
    rw [laid.size]
    exact room
  have inside : queue.tail < queue.slots.length := by
    rw [laid.tail, laid.size]
    exact Nat.mod_lt _ positive
  have placed := laid.ring.append roomSlots packet
  rw [laid.size, ← laid.tail] at placed
  rw [BoundedQueue.enqueueTail, if_pos inside]
  refine ⟨?_, placed, ?_, ?_⟩
  · rw [length_set]
    exact laid.size
  · rw [laid.tail, Nat.mod_add_mod, length_append, length_singleton, Nat.add_assoc]
  rw [laid.len, length_append, length_singleton]

theorem enqueueTail_counts (queue : BoundedQueue T cap) (packet : PrioritizedPacket T) :
    (queue.enqueueTail packet).reliableCount = queue.reliableCount ∧
      (queue.enqueueTail packet).unreliableCount = queue.unreliableCount := by
  rw [BoundedQueue.enqueueTail]
  split <;> exact ⟨rfl, rfl⟩

theorem Holds.isFull_iff (holds : queue.Holds packets) :
    queue.isFull = true ↔ packets.length = cap := by
  rw [BoundedQueue.isFull, beq_iff_eq, holds.laid.len]

theorem Laid.beforeTail_eq (laid : queue.Laid packets) (notEmpty : 0 < packets.length) :
    queue.beforeTail = (queue.head + (packets.length - 1)) % cap := by
  have positive : 0 < cap := Nat.zero_lt_of_lt laid.head_lt
  have tailIs : queue.tail = ((queue.head + (packets.length - 1)) % cap + 1) % cap := by
    rw [laid.tail, Nat.mod_add_mod]
    congr 1
    omega
  have below := Nat.mod_lt (queue.head + (packets.length - 1)) positive
  rw [beforeTail, tailIs]
  by_cases wraps : (queue.head + (packets.length - 1)) % cap + 1 = cap
  · rw [wraps, Nat.mod_self, if_pos rfl]
    omega
  rw [Nat.mod_eq_of_lt (by omega), if_neg (Nat.succ_ne_zero _), Nat.add_sub_cancel]

theorem Laid.oldestUnreliable_eq {front back : List (PrioritizedPacket T)}
    {victim : PrioritizedPacket T} (laid : queue.Laid (front ++ victim :: back))
    (reliable : ∀ packet ∈ front, packet.isReliable = true)
    (unreliable : victim.isReliable = false) :
    queue.oldestUnreliable = some ((queue.head + front.length) % cap) := by
  have entry : ∀ i, i < (front ++ victim :: back).length →
      queue.slots[(queue.head + i) % cap]? = some (front ++ victim :: back)[i]? := by
    intro i inside
    have held := laid.ring.getElem? inside
    rw [laid.size] at held
    exact held
  have lengths : (front ++ victim :: back).length = front.length + (back.length + 1) := by
    rw [length_append, length_cons]
  rw [oldestUnreliable, laid.len, lengths, range_eq_range', List.findSome?_eq_some_iff]
  refine ⟨List.range' 0 front.length, front.length,
    List.range' (front.length + 1) back.length, ?_, ?_, ?_⟩
  · rw [← range'_append_1, Nat.zero_add, range'_succ]
  · dsimp only
    rw [entry _ (by omega), List.getElem?_append_right (Nat.le_refl _), Nat.sub_self,
      List.getElem?_cons_zero, Option.join_some]
    simp only [unreliable, Bool.false_eq_true, if_false]
  intro i before
  have inside : i < front.length := by
    rw [mem_range'_1] at before
    omega
  dsimp only
  rw [entry i (by omega), List.getElem?_append_left inside, List.getElem?_eq_getElem inside,
    Option.join_some]
  simp only [reliable _ (getElem_mem inside), if_true]

theorem shiftSlots_spec {head fuel : Nat} {front back : List (Option (PrioritizedPacket T))}
    {gap : Option (PrioritizedPacket T)} {slots items : List (Option (PrioritizedPacket T))}
    (size : slots.length = cap) (cells : slots.rotate head = front ++ gap :: (items ++ back))
    (enough : items.length < fuel) :
    ∃ last, (shiftSlots cap ((head + (front.length + items.length)) % cap) fuel
        ((head + front.length) % cap) slots).length = cap ∧
      (shiftSlots cap ((head + (front.length + items.length)) % cap) fuel
        ((head + front.length) % cap) slots).rotate head = front ++ (items ++ last :: back) := by
  have lengths := congrArg List.length cells
  simp only [length_rotate, length_append, length_cons, size] at lengths
  induction items generalizing front gap slots fuel with
  | nil =>
    refine ⟨gap, ?_⟩
    cases fuel with
    | zero => exact absurd enough (Nat.not_lt_zero _)
    | succ fuel =>
      rw [shiftSlots, length_nil, Nat.add_zero, if_pos rfl]
      exact ⟨size, cells⟩
  | cons item items ih =>
    cases fuel with
    | zero => exact absurd enough (Nat.not_lt_zero _)
    | succ fuel =>
      rw [length_cons] at lengths enough
      have inside : front.length < cap := by omega
      have nextInside : front.length + 1 < cap := by omega
      have notLast : ¬ (head + front.length) % cap =
          (head + (front.length + (item :: items).length)) % cap := by
        rw [ring_index_inj inside (by rw [length_cons]; omega), length_cons]
        omega
      have next : ((head + front.length) % cap + 1) % cap = (head + (front.length + 1)) % cap := by
        rw [Nat.mod_add_mod, Nat.add_assoc]
      have nextIs : slots[(head + (front.length + 1)) % cap]? = some item := by
        rw [← size, getElem?_ring (by rw [size]; exact nextInside), cells,
          List.getElem?_append_right (Nat.le_add_right _ 1), Nat.add_sub_cancel_left]
        rfl
      have moved : ((slots.set ((head + (front.length + 1)) % cap) none).set
          ((head + front.length) % cap) item).rotate head =
            (front ++ [item]) ++ none :: (items ++ back) := by
        have cleared := rotate_set slots head (none : Option _) (by rw [size]; exact nextInside)
        rw [size] at cleared
        have filled := rotate_set _ head item (by rw [length_set, size]; exact inside :
            front.length < (slots.set ((head + (front.length + 1)) % cap) none).length)
        rw [length_set, size] at filled
        rw [filled, cleared, cells, set_append_right _ _ (Nat.le_add_right _ 1),
          Nat.add_sub_cancel_left, set_append_right _ _ (Nat.le_refl _), Nat.sub_self,
          append_assoc]
        rfl
      have sizeAfter : ((slots.set ((head + (front.length + 1)) % cap) none).set
          ((head + front.length) % cap) item).length = cap := by
        rw [length_set, length_set, size]
      obtain ⟨last, sizeLast, cellsLast⟩ := ih sizeAfter moved (Nat.lt_of_succ_lt_succ enough) (by
          rw [length_append, length_singleton]
          omega)
      have lastIs : front.length + (item :: items).length =
          (front ++ [item]).length + items.length := by
        rw [length_cons, length_append, length_singleton]
        omega
      have currIs : front.length + 1 = (front ++ [item]).length := by
        rw [length_append, length_singleton]
      refine ⟨last, ?_⟩
      rw [shiftSlots, if_neg notLast]
      dsimp only
      rw [next, nextIs, lastIs]
      rw [currIs] at sizeLast cellsLast ⊢
      rw [append_assoc] at cellsLast
      exact ⟨sizeLast, cellsLast⟩

theorem Holds.evict {front back : List (PrioritizedPacket T)} {victim : PrioritizedPacket T}
    (holds : queue.Holds (front ++ victim :: back))
    (reliable : ∀ packet ∈ front, packet.isReliable = true)
    (unreliable : victim.isReliable = false) (count : BackpressureMetrics → BackpressureMetrics) :
    (queue.evictOldestUnreliable count).Holds (front ++ back) := by
  have laid := holds.laid
  have lengths : (front ++ victim :: back).length = front.length + (back.length + 1) := by
    rw [length_append, length_cons]
  have bound := laid.length_le
  have counted := holds.unreliable
  have reliableCount := holds.reliable
  rw [countP_append, countP_cons] at counted reliableCount
  simp only [unreliable, Bool.not_false, if_true, Bool.false_eq_true, if_false]
    at counted reliableCount
  have notNone : ¬ (queue.unreliableCount = 0 ∨ queue.len = 0) := by
    rw [laid.len]
    omega
  have last := laid.beforeTail_eq (by omega)
  have lastOffset : (front ++ victim :: back).length - 1 =
      (front.map some).length + (back.map some).length := by
    rw [length_map, length_map]
    omega
  have cells : queue.slots.rotate queue.head = front.map some ++ some victim ::
      (back.map some ++ List.replicate (cap - (front ++ victim :: back).length) none) := by
    rw [laid.ring.cells, laid.size, map_append, map_cons, append_assoc, cons_append]
  have enough : (back.map some).length < cap := by
    omega
  obtain ⟨gap, sizeAfter, cellsAfter⟩ := shiftSlots_spec laid.size cells enough
  rw [← lastOffset, ← last, length_map] at sizeAfter cellsAfter
  have inside : (front ++ victim :: back).length - 1 <
      (shiftSlots cap queue.beforeTail cap ((queue.head + front.length) % cap)
        queue.slots).length := by
    omega
  have cleared := rotate_set _ queue.head (none : Option (PrioritizedPacket T)) inside
  rw [sizeAfter, ← last, cellsAfter, lastOffset, ← append_assoc,
    ← length_append, set_append_right _ _ (Nat.le_refl _), Nat.sub_self,
    set_cons_zero] at cleared
  have free : cap - (front ++ back).length = cap - (front ++ victim :: back).length + 1 := by
    rw [length_append]
    omega
  rw [BoundedQueue.evictOldestUnreliable, if_neg notNone,
    laid.oldestUnreliable_eq reliable unreliable]
  refine ⟨⟨?_, ⟨?_, ?_⟩, ?_, ?_⟩, ?_, ?_⟩
  · rw [length_set, sizeAfter]
  · rw [length_set, sizeAfter]
    exact laid.head_lt
  · rw [length_set, sizeAfter, cleared, free, replicate_succ, map_append]
  · rw [last, lengths, length_append]
    congr 1
  · rw [laid.len, lengths, length_append]
    rfl
  · rw [reliableCount, countP_append, Nat.add_zero]
  dsimp only
  rw [countP_append]
  omega

section

variable (holds : queue.Holds packets)
include holds

theorem Holds.evictsOldest (some : queue.unreliableCount ≠ 0)
    (count : BackpressureMetrics → BackpressureMetrics) :
    ∃ kept, EvictsOldest packets kept ∧ (queue.evictOldestUnreliable count).Holds kept := by
  rw [holds.unreliable, ← Nat.pos_iff_ne_zero, countP_pos_iff] at some
  obtain ⟨packet, there, unreliable⟩ := some
  obtain ⟨victim, front, back, before, isVictim, split, -⟩ :=
    exists_of_eraseP (p := fun other : PrioritizedPacket T => !other.isReliable) there unreliable
  have reliable : ∀ other ∈ front, other.isReliable = true := by
    intro other inFront
    have notUnreliable := before other inFront
    rwa [Bool.not_eq_true, Bool.not_eq_false'] at notUnreliable
  have isUnreliable : victim.isReliable = false := by
    rwa [Bool.not_eq_true'] at isVictim
  rw [split] at holds
  exact ⟨front ++ back, ⟨front, victim, back, split, reliable, isUnreliable, rfl⟩,
    holds.evict reliable isUnreliable count⟩

theorem Holds.all_reliable (none : queue.unreliableCount = 0) :
    ∀ other ∈ packets, other.isReliable = true := by
  intro other there
  have counted := holds.unreliable
  rw [none, eq_comm, countP_eq_zero] at counted
  have notUnreliable := counted other there
  rwa [Bool.not_eq_true, Bool.not_eq_false'] at notUnreliable

theorem Holds.setMetrics (metrics : BackpressureMetrics) :
    ({ queue with metrics := metrics } : BoundedQueue T cap).Holds packets :=
  ⟨⟨holds.laid.size, holds.laid.ring, holds.laid.tail, holds.laid.len⟩, holds.reliable,
    holds.unreliable⟩

theorem Holds.enqueueReliable (room : packets.length < cap) (packet : PrioritizedPacket T)
    (reliable : packet.isReliable = true) (metrics : BackpressureMetrics) :
    ({ queue.enqueueTail packet with
      reliableCount := (queue.enqueueTail packet).reliableCount + 1
      metrics := metrics } : BoundedQueue T cap).Holds (packets ++ [packet]) := by
  have laid := holds.laid.enqueueTail room packet
  refine ⟨⟨laid.size, laid.ring, laid.tail, laid.len⟩, ?_, ?_⟩
  · rw [(enqueueTail_counts queue packet).1, holds.reliable, countP_append,
      countP_singleton, if_pos reliable]
  rw [(enqueueTail_counts queue packet).2, holds.unreliable, countP_append,
    countP_singleton, reliable]
  rfl

theorem Holds.enqueueUnreliable (room : packets.length < cap) (packet : PrioritizedPacket T)
    (unreliable : packet.isReliable = false) (metrics : BackpressureMetrics) :
    ({ queue.enqueueTail packet with
      unreliableCount := (queue.enqueueTail packet).unreliableCount + 1
      metrics := metrics } : BoundedQueue T cap).Holds (packets ++ [packet]) := by
  have laid := holds.laid.enqueueTail room packet
  refine ⟨⟨laid.size, laid.ring, laid.tail, laid.len⟩, ?_, ?_⟩
  · rw [(enqueueTail_counts queue packet).1, holds.reliable, countP_append,
      countP_singleton, unreliable]
    rfl
  rw [(enqueueTail_counts queue packet).2, holds.unreliable, countP_append,
    countP_singleton, unreliable]
  rfl

theorem Holds.exists_room (possible : ¬ (queue.isFull = true ∧ queue.unreliableCount = 0))
    (count : BackpressureMetrics → BackpressureMetrics) :
    ∃ kept, (kept = packets ∨ EvictsOldest packets kept) ∧ kept.length < cap ∧
      (if queue.isFull = true then queue.evictOldestUnreliable count else queue).Holds kept := by
  have bound := holds.laid.length_le
  by_cases full : queue.isFull = true
  · obtain ⟨kept, evicts, held⟩ :=
      holds.evictsOldest (fun none => possible ⟨full, none⟩) count
    have shorter := evicts.length_eq
    refine ⟨kept, Or.inr evicts, by omega, ?_⟩
    rw [if_pos full]
    exact held
  have notFull := full
  rw [holds.isFull_iff] at notFull
  refine ⟨packets, Or.inl rfl, by omega, ?_⟩
  rw [if_neg full]
  exact holds

theorem Holds.saturated (full : queue.isFull = true ∧ queue.unreliableCount = 0) :
    packets.length = cap ∧ ∀ other ∈ packets, other.isReliable = true :=
  ⟨holds.isFull_iff.mp full.1, holds.all_reliable full.2⟩

end

end BoundedQueue

variable {packets : List (PrioritizedPacket T)}

theorem BoundedIngressQueue.push_spec {queue : BoundedIngressQueue T cap}
    (holds : BoundedQueue.Holds queue packets) (payload : T) (isReliable : Bool)
    (sequence : UInt16) :
    ∃ after, BoundedQueue.Holds (push queue payload isReliable sequence).2 after ∧
      PushOutcome cap ⟨payload, isReliable, sequence⟩ packets after
        (push queue payload isReliable sequence).1 := by
  cases isReliable with
  | true =>
    rw [push]
    by_cases full : BoundedQueue.isFull queue = true ∧ queue.unreliableCount = 0
    · rw [if_pos full]
      exact ⟨packets, holds.setMetrics _, rfl, fun _ => holds.saturated full⟩
    rw [if_neg full]
    obtain ⟨kept, made, room, held⟩ := holds.exists_room full fun metrics =>
      { metrics with ingressStaleDropped := metrics.ingressStaleDropped + 1 }
    exact ⟨_, held.enqueueReliable room ⟨payload, true, sequence⟩ rfl _, kept, made, rfl⟩
  | false =>
    rw [push]
    simp only [Bool.false_eq_true, if_false]
    split
    · refine ⟨packets, holds.setMetrics _, rfl, ?_⟩
      intro reliable
      cases reliable
    rename_i admitted
    have room : packets.length < cap := by
      have bound := holds.laid.length_le
      have notFull : ¬ BoundedQueue.isFull queue = true := fun full => admitted (Or.inl full)
      rw [holds.isFull_iff] at notFull
      omega
    exact ⟨_, holds.enqueueUnreliable room ⟨payload, false, sequence⟩ rfl _, packets,
      Or.inl rfl, rfl⟩

theorem BoundedEgressQueue.push_spec {queue : BoundedEgressQueue T cap}
    (holds : BoundedQueue.Holds queue packets) (payload : T) (isReliable : Bool)
    (sequence : UInt16) :
    ∃ after, BoundedQueue.Holds (push queue payload isReliable sequence).2 after ∧
      PushOutcome cap ⟨payload, isReliable, sequence⟩ packets after
        (push queue payload isReliable sequence).1 := by
  rw [push]
  by_cases full : BoundedQueue.isFull queue = true ∧ queue.unreliableCount = 0
  · rw [if_pos full]
    exact ⟨packets, holds.setMetrics _, rfl, fun _ => holds.saturated full⟩
  rw [if_neg full]
  obtain ⟨kept, made, room, held⟩ := holds.exists_room full id
  generalize counted : (if BoundedQueue.isFull queue = true then
      let evicted := evictOldestUnreliable queue
      { evicted with
        metrics :=
          { evicted.metrics with
            egressUnreliableDropped := evicted.metrics.egressUnreliableDropped + 1 } }
    else queue : BoundedEgressQueue T cap) = ready
  have holdsReady : BoundedQueue.Holds ready kept := by
    rw [← counted]
    by_cases isFull : BoundedQueue.isFull queue = true
    · rw [if_pos isFull] at held ⊢
      exact held.setMetrics _
    rw [if_neg isFull] at held ⊢
    exact held
  have inside : ready.tail < ready.slots.length := by
    rw [holdsReady.laid.tail, holdsReady.laid.size]
    exact Nat.mod_lt _ (Nat.zero_lt_of_lt room)
  rw [if_pos inside]
  cases isReliable with
  | true =>
    exact ⟨_, holdsReady.enqueueReliable room ⟨payload, true, sequence⟩ rfl _, kept, made, rfl⟩
  | false =>
    exact ⟨_, holdsReady.enqueueUnreliable room ⟨payload, false, sequence⟩ rfl _, kept, made, rfl⟩

theorem QueueKind.push_spec (kind : QueueKind) {queue : BoundedQueue T cap}
    (holds : queue.Holds packets) (payload : T) (isReliable : Bool) (sequence : UInt16) :
    ∃ after, (kind.push queue payload isReliable sequence).2.Holds after ∧
      PushOutcome cap ⟨payload, isReliable, sequence⟩ packets after
        (kind.push queue payload isReliable sequence).1 := by
  cases kind with
  | ingress => exact BoundedIngressQueue.push_spec holds payload isReliable sequence
  | egress => exact BoundedEgressQueue.push_spec holds payload isReliable sequence

namespace Traffic

variable {traffic : Traffic T cap}

structure Ordered (traffic : Traffic T cap) : Prop where
  holds : ∃ packets, traffic.queue.Holds packets
  reliable : (traffic.popped ++ traffic.queue.queued).filter (·.isReliable) =
    traffic.accepted.filter (·.isReliable)
  order : (traffic.popped ++ traffic.queue.queued).Sublist traffic.accepted

theorem ordered_new (positive : 0 < cap) : (new : Traffic T cap).Ordered := by
  have holds := BoundedQueue.holds_new (T := T) positive
  have nothing := holds.laid.queued_eq
  refine ⟨⟨[], holds⟩, ?_, ?_⟩
  · rw [new, nothing]
    rfl
  rw [new, nothing]
  exact List.Sublist.refl _

section

variable (ordered : traffic.Ordered)
include ordered

theorem Ordered.kept : traffic.Kept := by
  obtain ⟨packets, holds⟩ := ordered.holds
  refine ⟨ordered.reliable, ordered.order, ?_, ?_⟩
  · rw [holds.reliable, holds.unreliable, BoundedQueue.countP_reliable_add, holds.laid.len]
  rw [holds.laid.len, holds.laid.ring.countP_isSome]

theorem Ordered.take {taken packets : List (PrioritizedPacket T)} {queue : BoundedQueue T cap}
    (before : traffic.queue.queued = taken ++ packets) (holds : queue.Holds packets) :
    Ordered ({ traffic with queue := queue, popped := traffic.popped ++ taken }) := by
  have same : traffic.popped ++ taken ++ queue.queued = traffic.popped ++ traffic.queue.queued := by
    rw [before, holds.laid.queued_eq, append_assoc]
  refine ⟨⟨packets, holds⟩, ?_, ?_⟩
  · rw [same]
    exact ordered.reliable
  rw [same]
  exact ordered.order

theorem Ordered.push (kind : QueueKind) (payload : T) (isReliable : Bool) (sequence : UInt16) :
    (traffic.step kind (.push payload isReliable sequence)).Ordered ∧
      traffic.Behaves kind (.push payload isReliable sequence) := by
  obtain ⟨packets, holds⟩ := ordered.holds
  obtain ⟨after, holdsAfter, outcome⟩ := kind.push_spec holds payload isReliable sequence
  have reliable := ordered.reliable
  have order := ordered.order
  rw [step, Behaves, holdsAfter.laid.queued_eq, holds.laid.queued_eq]
  rw [holds.laid.queued_eq] at reliable order
  refine ⟨?_, outcome⟩
  generalize kind.push traffic.queue payload isReliable sequence = result at *
  obtain ⟨result, queue⟩ := result
  rcases result with error | done
  · have same : queue.queued = packets := by
      rw [← outcome.1]
      exact holdsAfter.laid.queued_eq
    refine ⟨⟨after, holdsAfter⟩, ?_, ?_⟩
    · rw [same]
      exact reliable
    rw [same]
    exact order
  obtain ⟨kept, made, rfl⟩ := outcome
  have queuedAfter := holdsAfter.laid.queued_eq
  refine ⟨⟨_, holdsAfter⟩, ?_, ?_⟩
  · rw [queuedAfter, ← append_assoc, filter_append, filter_append,
      filter_of_made made, ← filter_append, reliable, filter_append]
  rw [queuedAfter, ← append_assoc]
  apply List.Sublist.append _ (List.Sublist.refl _)
  exact (List.Sublist.append (List.Sublist.refl _) (sublist_of_made made)).trans order

theorem Ordered.pop (kind : QueueKind) :
    (traffic.step kind .pop).Ordered ∧ traffic.Behaves kind .pop := by
  obtain ⟨packets, holds⟩ := ordered.holds
  obtain ⟨first, rest⟩ := holds.pop
  have before := holds.laid.queued_eq
  refine ⟨?_, ?_⟩
  · rw [step, first]
    apply ordered.take _ rest
    rw [before]
    cases packets with
    | _ => rfl
  rw [Behaves, before]
  exact ⟨first, rest.laid.queued_eq⟩

theorem Ordered.drainInto (kind : QueueKind) (dest : List (Option (PrioritizedPacket T))) :
    (traffic.step kind (.drainInto dest)).Ordered ∧ traffic.Behaves kind (.drainInto dest) := by
  obtain ⟨packets, holds⟩ := ordered.holds
  have before := holds.laid.queued_eq
  have size := holds.laid.len
  obtain ⟨filled, rest⟩ := holds.popInto (Nat.min_le_right dest.length packets.length)
    (Nat.min_le_left dest.length packets.length)
  refine ⟨?_, ?_⟩
  · rw [step, BoundedQueue.drainInto, size]
    apply ordered.take _ rest
    have written : ((packets.take (min dest.length packets.length)).map some).length =
        min dest.length packets.length := by
      rw [length_map, length_take, Nat.min_eq_left (Nat.min_le_right _ _)]
    rw [before, filled, take_left' written, InRing.reduceOption_map_some, take_append_drop]
  rw [Behaves, BoundedQueue.drainInto, size, before]
  exact ⟨rfl, filled, rest.laid.queued_eq⟩

theorem Ordered.step (kind : QueueKind) (call : QueueCall T) :
    (traffic.step kind call).Ordered ∧ traffic.Behaves kind call := by
  cases call with
  | push payload isReliable sequence => exact ordered.push kind payload isReliable sequence
  | pop => exact ordered.pop kind
  | drainInto dest => exact ordered.drainInto kind dest

theorem Ordered.reliable_drained (kind : QueueKind) {dest : List (Option (PrioritizedPacket T))}
    (enough : cap ≤ dest.length) :
    (traffic.step kind (.drainInto dest)).popped.filter (·.isReliable) =
      traffic.accepted.filter (·.isReliable) := by
  obtain ⟨packets, holds⟩ := ordered.holds
  obtain ⟨after, -, -, left⟩ := ordered.drainInto kind dest
  have reliable := after.reliable
  have bound := holds.laid.length_le
  have nothing : (traffic.step kind (.drainInto dest)).queue.queued = [] := by
    rw [Traffic.step]
    rw [left, holds.laid.queued_eq, Nat.min_eq_right (by omega), drop_length]
  rw [nothing, append_nil] at reliable
  exact reliable

end

/-- In any run of calls no accepted reliable packet is lost, packets leave in the order of
their pushes, and only oldest unreliable packets are evicted. -/
theorem keepsReliable (kind : QueueKind) (positive : 0 < cap) (calls : List (QueueCall T)) :
    Throughout (step kind) Kept (new : Traffic T cap) calls ∧
      EachStep (step kind) (Behaves kind) (new : Traffic T cap) calls ∧
      ∀ dest : List (Option (PrioritizedPacket T)), cap ≤ dest.length →
        (run (step kind) (new : Traffic T cap) (calls ++ [.drainInto dest])).popped.filter
            (·.isReliable) =
          (run (step kind) (new : Traffic T cap) calls).accepted.filter (·.isReliable) := by
  have preserved : ∀ (traffic : Traffic T cap) (call : QueueCall T),
      traffic.Ordered → (traffic.step kind call).Ordered :=
    fun _ call ordered => (ordered.step kind call).1
  have ordered : Throughout (Traffic.step kind) Ordered (new : Traffic T cap) calls :=
    throughout_of_preserved preserved (ordered_new positive) calls
  refine ⟨ordered.imp fun _ now => now.kept, ?_, ?_⟩
  · have all : EachStep (Traffic.step kind) (fun _ _ => True) (new : Traffic T cap) calls :=
      eachStep_of_forall (fun _ _ => trivial) _
    exact eachStep_of_invariant (fun traffic call now _ => preserved traffic call now)
      (fun _ call now _ => (now.step kind call).2) (ordered_new positive) all
  intro dest enough
  rw [run_append]
  exact ordered.run.reliable_drained kind enough

/-- A reliable packet and a fresh transform push out the two older transforms. -/
theorem keepsReliable_three : Throughout (step .egress) Kept (new : Traffic UInt32 3)
        [.push 100 true 1, .push 1 false 2, .push 2 false 3, .push 3 false 4, .push 101 true 5,
          .pop] ∧
      EachStep (step .egress) (Behaves .egress) (new : Traffic UInt32 3)
        [.push 100 true 1, .push 1 false 2, .push 2 false 3, .push 3 false 4, .push 101 true 5,
          .pop] ∧
      ∀ dest : List (Option (PrioritizedPacket UInt32)), 3 ≤ dest.length →
        (run (step .egress) (new : Traffic UInt32 3)
          ([.push 100 true 1, .push 1 false 2, .push 2 false 3, .push 3 false 4,
            .push 101 true 5, .pop] ++ [.drainInto dest])).popped.filter (·.isReliable) =
          (run (step .egress) (new : Traffic UInt32 3)
            [.push 100 true 1, .push 1 false 2, .push 2 false 3, .push 3 false 4,
              .push 101 true 5, .pop]).accepted.filter (·.isReliable) :=
  keepsReliable .egress (by decide) _

example : (run (step .egress) (new : Traffic UInt32 3)
    [.push 100 true 1, .push 1 false 2, .push 2 false 3, .push 3 false 4, .push 101 true 5,
      .pop, .pop, .pop]).popped = [⟨100, true, 1⟩, ⟨3, false, 4⟩, ⟨101, true, 5⟩] := by
  decide

end Traffic

end Eidolon.Net
