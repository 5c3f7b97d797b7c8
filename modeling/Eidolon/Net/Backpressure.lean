import Mathlib.Data.UInt
import Eidolon.Library.Ring
import Eidolon.Net.Packet

/-!
# Bounded queues under backpressure

The queues before and behind the simulation have one layout, a ring of slots with counts of
each kind of packet. They differ in what a push does at a full queue.
-/

namespace Eidolon.Net

universe u

structure PrioritizedPacket (T : Type u) where
  payload : T
  isReliable : Bool
  sequence : UInt16
  deriving DecidableEq

structure BackpressureMetrics where
  reliableEnqueued : UInt64
  unreliableEnqueued : UInt64
  ingressStaleDropped : UInt64
  egressUnreliableDropped : UInt64
  saturationEvents : UInt64
  deriving DecidableEq

structure BoundedQueue (T : Type u) (cap : Nat) where
  slots : List (Option (PrioritizedPacket T))
  head : Nat
  tail : Nat
  len : Nat
  reliableCount : Nat
  unreliableCount : Nat
  metrics : BackpressureMetrics
  deriving DecidableEq

def shiftSlots {T : Type u} (cap last : Nat) :
    Nat → Nat → List (Option (PrioritizedPacket T)) → List (Option (PrioritizedPacket T))
  | 0, _, slots => slots
  | fuel + 1, curr, slots =>
    if curr = last then
      slots
    else
      let next := (curr + 1) % cap
      let nextVal := slots[next]?.join
      shiftSlots cap last fuel next ((slots.set next none).set curr nextVal)

namespace BoundedQueue

variable {T : Type u} {cap : Nat}

def new : BoundedQueue T cap where
  slots := List.replicate cap none
  head := 0
  tail := 0
  len := 0
  reliableCount := 0
  unreliableCount := 0
  metrics := ⟨0, 0, 0, 0, 0⟩

variable (queue : BoundedQueue T cap)

def isFull : Bool :=
  queue.len == cap

def utilizationPct : UInt32 :=
  if cap = 0 then
    100
  else
    (UInt64.ofNat queue.len * 100 / UInt64.ofNat cap).toUInt32

def pop : Option (PrioritizedPacket T) × BoundedQueue T cap :=
  if queue.len = 0 then
    (none, queue)
  else
    match queue.slots[queue.head]? with
    | none => (none, queue)
    | some packet =>
      let popped :=
        { queue with
          slots := queue.slots.set queue.head none
          head := (queue.head + 1) % cap
          len := queue.len - 1 }
      match packet with
      | none => (none, popped)
      | some pkt =>
        if pkt.isReliable then
          (packet, { popped with reliableCount := queue.reliableCount - 1 })
        else
          (packet, { popped with unreliableCount := queue.unreliableCount - 1 })

def popInto : Nat → BoundedQueue T cap → List (Option (PrioritizedPacket T)) →
    List (Option (PrioritizedPacket T)) × BoundedQueue T cap
  | count + 1, queue, _ :: dest =>
    let (packet, queue) := queue.pop
    let (rest, queue) := popInto count queue dest
    (packet :: rest, queue)
  | _, queue, dest => (dest, queue)

def drainInto (dest : List (Option (PrioritizedPacket T))) :
    Nat × List (Option (PrioritizedPacket T)) × BoundedQueue T cap :=
  let count := min dest.length queue.len
  (count, popInto count queue dest)

def enqueueTail (packet : PrioritizedPacket T) : BoundedQueue T cap :=
  if queue.tail < queue.slots.length then
    { queue with
      slots := queue.slots.set queue.tail (some packet)
      tail := (queue.tail + 1) % cap
      len := queue.len + 1 }
  else queue

def oldestUnreliable : Option Nat :=
  (List.range queue.len).findSome? fun i =>
    let idx := (queue.head + i) % cap
    match queue.slots[idx]?.join with
    | none => none
    | some pkt => if pkt.isReliable then none else some idx

def beforeTail : Nat :=
  if queue.tail = 0 then cap - 1 else queue.tail - 1

/-- Evicts the oldest unreliable packet and keeps the order of the others; the queues
count this in different metrics. -/
def evictOldestUnreliable (count : BackpressureMetrics → BackpressureMetrics)
    (queue : BoundedQueue T cap) : BoundedQueue T cap :=
  if queue.unreliableCount = 0 ∨ queue.len = 0 then
    queue
  else
    match queue.oldestUnreliable with
    | none => queue
    | some unreliablePos =>
      let shifted := shiftSlots cap queue.beforeTail cap unreliablePos queue.slots
      { queue with
        slots := shifted.set queue.beforeTail none
        tail := queue.beforeTail
        len := queue.len - 1
        unreliableCount := queue.unreliableCount - 1
        metrics := count queue.metrics }

end BoundedQueue

abbrev BoundedIngressQueue := BoundedQueue

namespace BoundedIngressQueue

variable {T : Type u} {cap : Nat}

def evictOldestUnreliable (queue : BoundedIngressQueue T cap) : BoundedIngressQueue T cap :=
  BoundedQueue.evictOldestUnreliable
    (fun metrics => { metrics with ingressStaleDropped := metrics.ingressStaleDropped + 1 }) queue

/-- Reliable packets evict unreliable ones, which are refused when the queue is nearly
full. -/
def push (queue : BoundedIngressQueue T cap) (payload : T) (isReliable : Bool)
    (sequence : UInt16) : Except NetError Unit × BoundedIngressQueue T cap :=
  let packet : PrioritizedPacket T := ⟨payload, isReliable, sequence⟩
  if isReliable then
    if queue.isFull ∧ queue.unreliableCount = 0 then
      (.error .queueFull,
        { queue with
          metrics :=
            { queue.metrics with
              saturationEvents := queue.metrics.saturationEvents + 1 } })
    else
      let queue := if queue.isFull then queue.evictOldestUnreliable else queue
      let queue := queue.enqueueTail packet
      (.ok (),
        { queue with
          reliableCount := queue.reliableCount + 1
          metrics :=
            { queue.metrics with
              reliableEnqueued := queue.metrics.reliableEnqueued + 1 } })
  else if queue.isFull ∨ 95 ≤ queue.utilizationPct then
    (.error .queueFull,
      { queue with
        metrics :=
          { queue.metrics with
            ingressStaleDropped := queue.metrics.ingressStaleDropped + 1
            saturationEvents := queue.metrics.saturationEvents + 1 } })
  else
    let queue := queue.enqueueTail packet
    (.ok (),
      { queue with
        unreliableCount := queue.unreliableCount + 1
        metrics :=
          { queue.metrics with
            unreliableEnqueued := queue.metrics.unreliableEnqueued + 1 } })

end BoundedIngressQueue

abbrev BoundedEgressQueue := BoundedQueue

namespace BoundedEgressQueue

variable {T : Type u} {cap : Nat}

def evictOldestUnreliable (queue : BoundedEgressQueue T cap) : BoundedEgressQueue T cap :=
  BoundedQueue.evictOldestUnreliable id queue

/-- At a full queue the oldest unreliable packet makes room for one of either kind. -/
def push (queue : BoundedEgressQueue T cap) (payload : T) (isReliable : Bool)
    (sequence : UInt16) : Except NetError Unit × BoundedEgressQueue T cap :=
  let packet : PrioritizedPacket T := ⟨payload, isReliable, sequence⟩
  if queue.isFull ∧ queue.unreliableCount = 0 then
    (.error .queueFull,
      { queue with
        metrics :=
          { queue.metrics with
            saturationEvents := queue.metrics.saturationEvents + 1 } })
  else
    let queue : BoundedEgressQueue T cap :=
      if queue.isFull then
        let evicted := BoundedEgressQueue.evictOldestUnreliable queue
        { evicted with
          metrics :=
            { evicted.metrics with
              egressUnreliableDropped := evicted.metrics.egressUnreliableDropped + 1 } }
      else queue
    if queue.tail < queue.slots.length then
      let queue := queue.enqueueTail packet
      if isReliable then
        (.ok (),
          { queue with
            reliableCount := queue.reliableCount + 1
            metrics :=
              { queue.metrics with
                reliableEnqueued := queue.metrics.reliableEnqueued + 1 } })
      else
        (.ok (),
          { queue with
            unreliableCount := queue.unreliableCount + 1
            metrics :=
              { queue.metrics with
                unreliableEnqueued := queue.metrics.unreliableEnqueued + 1 } })
    else
      (.error .queueFull, queue)

end BoundedEgressQueue

end Eidolon.Net
