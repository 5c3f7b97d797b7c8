import Eidolon.Library.MachineInt
import Eidolon.Library.TokenBucket
import Eidolon.Net.Packet

/-!
# Ingress quotas

The policer of a socket, with one bucket for packets and one for bytes.  Both are refilled
by the ticks since the last packet, at a twentieth of the limit a tick but one token at
least.
-/

namespace Eidolon.Net

open Library List Nat

structure SocketRatePolicer where
  maxPacketsPerSec : UInt32
  maxBytesPerSec : UInt32
  packetTokens : UInt32
  byteTokens : UInt32
  lastReplenishTick : UInt64
  deriving DecidableEq

variable (perSec : UInt32)

def perTick : UInt32 :=
  max (perSec / 20) 1

def refill (tokens perSec : UInt32) (elapsedTicks : UInt64) : UInt32 :=
  min (saturatingAdd32 tokens (saturatingMul32 elapsedTicks.toUInt32 (perTick perSec))) perSec

namespace SocketRatePolicer

def new (maxPacketsPerSec maxBytesPerSec : UInt32) : SocketRatePolicer where
  maxPacketsPerSec := maxPacketsPerSec
  maxBytesPerSec := maxBytesPerSec
  packetTokens := maxPacketsPerSec
  byteTokens := maxBytesPerSec
  lastReplenishTick := 0

def replenish (self : SocketRatePolicer) (currentTick : UInt64) : SocketRatePolicer :=
  if currentTick ≤ self.lastReplenishTick then
    self
  else
    let elapsedTicks := currentTick - self.lastReplenishTick
    { self with
      packetTokens := refill self.packetTokens self.maxPacketsPerSec elapsedTicks
      byteTokens := refill self.byteTokens self.maxBytesPerSec elapsedTicks
      lastReplenishTick := currentTick }

def checkIngress (self : SocketRatePolicer) (packetLen : Nat) (currentTick : UInt64) :
    Except NetError Unit × SocketRatePolicer :=
  let self := self.replenish currentTick
  if self.packetTokens < 1 ∨ self.byteTokens.toNat < packetLen then
    (.error (.rateLimitExceeded self.maxPacketsPerSec), self)
  else
    (.ok (),
      { self with
        packetTokens := saturatingSub32 self.packetTokens 1
        byteTokens := saturatingSub32 self.byteTokens (UInt32.ofNat packetLen) })

end SocketRatePolicer

def gainPerTick : Nat :=
  if perSec = 0 then 0 else (perTick perSec).toNat

theorem toNat_min (first second : UInt32) :
    (min first second).toNat = min first.toNat second.toNat := by
  change (if first ≤ second then first else second).toNat = _
  split
  · rename_i least
    rw [UInt32.le_iff_toNat_le] at least
    omega
  rename_i greater
  rw [UInt32.le_iff_toNat_le] at greater
  omega

theorem toNat_perTick : (perTick perSec).toNat = max (perSec.toNat / 20) 1 := by
  have quotient : (perSec / 20).toNat = perSec.toNat / 20 := UInt32.toNat_div perSec 20
  change (if perSec / 20 ≤ 1 then 1 else perSec / 20).toNat = _
  split
  · rename_i least
    rw [UInt32.le_iff_toNat_le, UInt32.toNat_one] at least
    rw [UInt32.toNat_one]
    omega
  rename_i greater
  rw [UInt32.le_iff_toNat_le] at greater
  omega

theorem toNat_refill (tokens perSec : UInt32) (elapsedTicks : UInt64) :
    (refill tokens perSec elapsedTicks).toNat =
      min (min (tokens.toNat + min (elapsedTicks.toNat % 2 ^ 32 * (perTick perSec).toNat)
        (2 ^ 32 - 1)) (2 ^ 32 - 1)) perSec.toNat := by
  rw [refill, toNat_min, toNat_saturatingAdd32, toNat_saturatingMul32, UInt64.toNat_toUInt32]

theorem refill_le (tokens perSec : UInt32) (elapsedTicks : UInt64) :
    (refill tokens perSec elapsedTicks).toNat ≤ perSec.toNat := by
  rw [toNat_refill]
  exact min_le_right _ _

theorem le_refill {tokens perSec : UInt32} (fits : tokens.toNat ≤ perSec.toNat)
    (elapsedTicks : UInt64) : tokens.toNat ≤ (refill tokens perSec elapsedTicks).toNat := by
  have bound := tokens.toNat_lt
  rw [toNat_refill]
  omega

theorem refill_le_add (tokens perSec : UInt32) (elapsedTicks : UInt64) :
    (refill tokens perSec elapsedTicks).toNat ≤
      tokens.toNat + gainPerTick perSec * elapsedTicks.toNat := by
  by_cases none : perSec = 0
  · have empty := refill_le tokens perSec elapsedTicks
    rw [none, UInt32.toNat_zero] at empty
    rw [none]
    omega
  have whole : elapsedTicks.toNat % 2 ^ 32 * (perTick perSec).toNat ≤
      (perTick perSec).toNat * elapsedTicks.toNat := by
    rw [mul_comm]
    exact mul_le_mul_left _ (mod_le _ _)
  rw [toNat_refill, gainPerTick, if_neg none]
  omega

theorem refill_zero {perSec : UInt32} (some : 0 < perSec.toNat) (few : perSec.toNat < 20) :
    (refill 0 perSec 1).toNat = 1 := by
  have one : (perTick perSec).toNat = 1 := by
    rw [toNat_perTick]
    omega
  rw [toNat_refill, one]
  change min (min (0 + min (1 % 2 ^ 32 * 1) (2 ^ 32 - 1)) (2 ^ 32 - 1)) perSec.toNat = 1
  omega

structure Arrival where
  packetLen : Nat
  tick : UInt64
  deriving DecidableEq

namespace SocketRatePolicer

variable (self : SocketRatePolicer) (arrival : Arrival)

def accepts : Bool :=
  (self.checkIngress arrival.packetLen arrival.tick).1.isOk

def arrive : SocketRatePolicer :=
  (self.checkIngress arrival.packetLen arrival.tick).2

def packetsIn : Nat :=
  if self.accepts arrival then 1 else 0

def bytesIn : Nat :=
  if self.accepts arrival then arrival.packetLen else 0

structure Within (pps bps : UInt32) (policer : SocketRatePolicer) : Prop where
  packetLimit : policer.maxPacketsPerSec = pps
  byteLimit : policer.maxBytesPerSec = bps
  packets : policer.packetTokens.toNat ≤ pps.toNat
  bytes : policer.byteTokens.toNat ≤ bps.toNat

variable {pps bps : UInt32} {self : SocketRatePolicer}

theorem within_new (pps bps : UInt32) : Within pps bps (new pps bps) :=
  ⟨rfl, rfl, le_refl _, le_refl _⟩

theorem lastReplenishTick_replenish (self : SocketRatePolicer) (tick : UInt64) :
    (self.replenish tick).lastReplenishTick.toNat =
      max self.lastReplenishTick.toNat tick.toNat := by
  unfold replenish
  split
  · rename_i earlier
    rw [UInt64.le_iff_toNat_le] at earlier
    omega
  rename_i later
  rw [UInt64.le_iff_toNat_le] at later
  dsimp only
  omega

theorem Within.replenish (within : Within pps bps self) (tick : UInt64) :
    Within pps bps (self.replenish tick) := by
  unfold SocketRatePolicer.replenish
  split
  · exact within
  refine ⟨within.packetLimit, within.byteLimit, ?_, ?_⟩
  · rw [← within.packetLimit]
    exact refill_le _ _ _
  rw [← within.byteLimit]
  exact refill_le _ _ _

theorem Within.le_replenish (within : Within pps bps self) (tick : UInt64) :
    self.packetTokens.toNat ≤ (self.replenish tick).packetTokens.toNat ∧
      self.byteTokens.toNat ≤ (self.replenish tick).byteTokens.toNat := by
  unfold SocketRatePolicer.replenish
  split
  · exact ⟨le_refl _, le_refl _⟩
  constructor
  · exact le_refill (by rw [within.packetLimit]; exact within.packets) _
  exact le_refill (by rw [within.byteLimit]; exact within.bytes) _

theorem Within.replenish_le (within : Within pps bps self) (tick : UInt64) :
    (self.replenish tick).packetTokens.toNat ≤ self.packetTokens.toNat + gainPerTick pps *
        ((self.replenish tick).lastReplenishTick.toNat - self.lastReplenishTick.toNat) ∧
      (self.replenish tick).byteTokens.toNat ≤ self.byteTokens.toNat + gainPerTick bps *
        ((self.replenish tick).lastReplenishTick.toNat - self.lastReplenishTick.toNat) := by
  unfold SocketRatePolicer.replenish
  split
  · exact ⟨le_add_right _ _, le_add_right _ _⟩
  rename_i later
  have elapsed : (tick - self.lastReplenishTick).toNat =
      tick.toNat - self.lastReplenishTick.toNat :=
    UInt64.toNat_sub_of_le _ _ (UInt64.le_of_lt (UInt64.not_le.mp later))
  rw [← elapsed, ← within.packetLimit, ← within.byteLimit]
  exact ⟨refill_le_add _ _ _, refill_le_add _ _ _⟩

/-- What a check does: a packet that is let in pays with both kinds of tokens, and one that
is not only finds the buckets refilled. -/
theorem arrive_cases (self : SocketRatePolicer) (arrival : Arrival) : (self.accepts arrival = true ∧
      1 ≤ (self.replenish arrival.tick).packetTokens.toNat ∧
      arrival.packetLen ≤ (self.replenish arrival.tick).byteTokens.toNat ∧
      (self.arrive arrival).packetTokens.toNat =
        (self.replenish arrival.tick).packetTokens.toNat - 1 ∧
      (self.arrive arrival).byteTokens.toNat =
        (self.replenish arrival.tick).byteTokens.toNat - arrival.packetLen ∧
      (self.arrive arrival).maxPacketsPerSec = (self.replenish arrival.tick).maxPacketsPerSec ∧
      (self.arrive arrival).maxBytesPerSec = (self.replenish arrival.tick).maxBytesPerSec ∧
      (self.arrive arrival).lastReplenishTick = (self.replenish arrival.tick).lastReplenishTick) ∨
    (self.accepts arrival = false ∧ ((self.replenish arrival.tick).packetTokens.toNat < 1 ∨
        (self.replenish arrival.tick).byteTokens.toNat < arrival.packetLen) ∧
      self.arrive arrival = self.replenish arrival.tick) := by
  unfold accepts arrive checkIngress
  dsimp only
  split
  · rename_i short
    exact Or.inr ⟨rfl, short, rfl⟩
  rename_i enough
  rw [not_or, UInt32.lt_iff_toNat_lt, not_lt, not_lt] at enough
  obtain ⟨packet, bytes⟩ := enough
  have small : (UInt32.ofNat arrival.packetLen).toNat = arrival.packetLen := by
    have bound := (self.replenish arrival.tick).byteTokens.toNat_lt
    rw [UInt32.toNat_ofNat']
    omega
  refine Or.inl ⟨rfl, packet, bytes, ?_, ?_, rfl, rfl, rfl⟩
  · rw [toNat_saturatingSub32, UInt32.toNat_one]
  rw [toNat_saturatingSub32, small]

theorem Within.arrive (within : Within pps bps self) (arrival : Arrival) :
    Within pps bps (self.arrive arrival) := by
  have replenished := within.replenish arrival.tick
  rcases arrive_cases self arrival with
    ⟨-, -, -, packets, bytes, packetLimit, byteLimit, -⟩ | ⟨-, -, same⟩
  · have packetsWithin := replenished.packets
    have bytesWithin := replenished.bytes
    exact ⟨packetLimit.trans replenished.packetLimit, byteLimit.trans replenished.byteLimit,
      by omega, by omega⟩
  rw [same]
  exact replenished

theorem lastReplenishTick_arrive (self : SocketRatePolicer) (arrival : Arrival) :
    (self.arrive arrival).lastReplenishTick.toNat =
      max self.lastReplenishTick.toNat arrival.tick.toNat := by
  rw [← lastReplenishTick_replenish]
  rcases arrive_cases self arrival with ⟨-, -, -, -, -, -, -, clock⟩ | ⟨-, -, same⟩
  · rw [clock]
  rw [same]

theorem arrive_paid (self : SocketRatePolicer) (arrival : Arrival) :
    (self.arrive arrival).packetTokens.toNat + self.packetsIn arrival =
        (self.replenish arrival.tick).packetTokens.toNat ∧
      (self.arrive arrival).byteTokens.toNat + self.bytesIn arrival =
        (self.replenish arrival.tick).byteTokens.toNat := by
  unfold packetsIn bytesIn
  rcases arrive_cases self arrival with
    ⟨accepted, packet, bytes, packetsLeft, bytesLeft, -⟩ | ⟨rejected, -, same⟩
  · rw [accepted, if_pos rfl, if_pos rfl]
    omega
  rw [rejected, same]
  exact ⟨rfl, rfl⟩

/-- What a run of packets lets in, with what the last one leaves, is paid for by the
buckets at its start and the ticks on the way. -/
theorem run_paid (within : Within pps bps self) (arrivals : List Arrival) :
    (run arrive self arrivals).packetTokens.toNat + totalAlong arrive packetsIn self arrivals ≤
        self.packetTokens.toNat + gainPerTick pps *
          ((run arrive self arrivals).lastReplenishTick.toNat - self.lastReplenishTick.toNat) ∧
      (run arrive self arrivals).byteTokens.toNat + totalAlong arrive bytesIn self arrivals ≤
        self.byteTokens.toNat + gainPerTick bps *
          ((run arrive self arrivals).lastReplenishTick.toNat - self.lastReplenishTick.toNat) := by
  have forward : ∀ policer arrival,
      policer.lastReplenishTick.toNat ≤ (arrive policer arrival).lastReplenishTick.toNat := by
    intro policer arrival
    rw [lastReplenishTick_arrive]
    exact le_max_left _ _
  have clock : ∀ policer arrival, (arrive policer arrival).lastReplenishTick.toNat =
      (policer.replenish arrival.tick).lastReplenishTick.toNat := by
    intro policer arrival
    rw [lastReplenishTick_arrive, lastReplenishTick_replenish]
  have always : EachStep arrive (fun _ _ => True) self arrivals :=
    eachStep_of_forall (fun _ _ => trivial) self
  have kept : ∀ policer arrival, Within pps bps policer → True →
      Within pps bps (arrive policer arrival) :=
    fun _ arrival before _ => before.arrive arrival
  constructor
  · rw [← (totalAlong_rate forward (gainPerTick pps) self arrivals).2]
    refine level_add_spent_le (fun policer => policer.packetTokens.toNat) packetsIn _ kept ?_
      within always
    intro policer arrival before _
    rw [(arrive_paid policer arrival).1, clock]
    exact (before.replenish_le arrival.tick).1
  rw [← (totalAlong_rate forward (gainPerTick bps) self arrivals).2]
  refine level_add_spent_le (fun policer => policer.byteTokens.toNat) bytesIn _ kept ?_
    within always
  intro policer arrival before _
  rw [(arrive_paid policer arrival).2, clock]
  exact (before.replenish_le arrival.tick).2

theorem lastReplenishTick_run_le {last : Nat} (arrivals : List Arrival)
    (start : self.lastReplenishTick.toNat ≤ last)
    (upTo : ∀ arrival ∈ arrivals, arrival.tick.toNat ≤ last) :
    (run arrive self arrivals).lastReplenishTick.toNat ≤ last := by
  induction arrivals generalizing self with
  | nil => exact start
  | cons arrival arrivals ih =>
    have here := upTo arrival mem_cons_self
    refine ih ?_ fun later mem => upTo later (mem_cons_of_mem _ mem)
    rw [lastReplenishTick_arrive]
    omega

theorem window_paid (within : Within pps bps self) {window : List Arrival} {first ticks : Nat}
    (notAhead : self.lastReplenishTick.toNat ≤ first + ticks)
    (inside : ∀ arrival ∈ window, first ≤ arrival.tick.toNat ∧ arrival.tick.toNat ≤ first + ticks) :
    totalAlong arrive packetsIn self window ≤ pps.toNat + gainPerTick pps * ticks ∧
      totalAlong arrive bytesIn self window ≤ bps.toNat + gainPerTick bps * ticks := by
  rcases window with _ | ⟨arrival, later⟩
  · exact ⟨zero_le _, zero_le _⟩
  -- the first packet finds buckets that are full at most, at a tick within the window
  have replenished := within.replenish arrival.tick
  have paid := arrive_paid self arrival
  have begun := inside arrival mem_cons_self
  have clock := lastReplenishTick_arrive self arrival
  have rest := run_paid (within.arrive arrival) later
  have ended : (run arrive (self.arrive arrival) later).lastReplenishTick.toNat ≤
      first + ticks := by
    refine lastReplenishTick_run_le later (by omega) fun after mem => ?_
    exact (inside after (mem_cons_of_mem _ mem)).2
  have elapsed : (run arrive (self.arrive arrival) later).lastReplenishTick.toNat -
      (self.arrive arrival).lastReplenishTick.toNat ≤ ticks := by
    omega
  have packetGain := mul_le_mul_left (gainPerTick pps) elapsed
  have byteGain := mul_le_mul_left (gainPerTick bps) elapsed
  have packetsFull := replenished.packets
  have bytesFull := replenished.bytes
  rw [totalAlong_cons, totalAlong_cons]
  omega

/-- What policing by two limits promises, whatever packets arrive and when. -/
structure KeepsRates (pps bps : UInt32) : Prop where
  /-- In every window of some ticks, the packets and the bytes that are let in. -/
  window : ∀ (before window : List Arrival) (first ticks : Nat),
    (before ++ window).Pairwise (fun earlier later => earlier.tick ≤ later.tick) →
    (∀ arrival ∈ window, first ≤ arrival.tick.toNat ∧ arrival.tick.toNat ≤ first + ticks) →
    totalAlong arrive packetsIn (run arrive (new pps bps) before) window ≤
        pps.toNat + ticks * pps.toNat / 20 ∧
      totalAlong arrive bytesIn (run arrive (new pps bps) before) window ≤
        bps.toNat + ticks * bps.toNat / 20
  /-- A packet that is not let in costs nothing. -/
  rejected : ∀ (before : List Arrival) (arrival : Arrival),
    (run arrive (new pps bps) before).accepts arrival = false →
    (run arrive (new pps bps) before).packetTokens ≤
        (run arrive (new pps bps) (before ++ [arrival])).packetTokens ∧
      (run arrive (new pps bps) before).byteTokens ≤
        (run arrive (new pps bps) (before ++ [arrival])).byteTokens

theorem gainPerTick_mul_le {perSec : UInt32} (kept : perSec = 0 ∨ 20 ≤ perSec.toNat)
    (ticks : Nat) : gainPerTick perSec * ticks ≤ ticks * perSec.toNat / 20 := by
  rcases kept with none | enough
  · rw [gainPerTick, if_pos none, zero_mul]
    exact zero_le _
  have positive : perSec ≠ 0 := by
    rintro rfl
    exact absurd enough (by decide)
  have rate : (perTick perSec).toNat = perSec.toNat / 20 := by
    rw [toNat_perTick]
    omega
  rw [gainPerTick, if_neg positive, rate, mul_comm]
  exact mul_div_le_mul_div_assoc ticks perSec.toNat 20

theorem totalAlong_bytesIn_of_none (within : Within 0 bps self) (arrivals : List Arrival) :
    totalAlong arrive bytesIn self arrivals = 0 := by
  induction arrivals generalizing self with
  | nil => rfl
  | cons arrival arrivals ih =>
    have empty := (within.replenish arrival.tick).packets
    rw [UInt32.toNat_zero] at empty
    rcases arrive_cases self arrival with ⟨-, packet, -⟩ | ⟨rejected, -⟩
    · omega
    rw [totalAlong_cons, ih (within.arrive arrival), bytesIn, rejected]
    rfl

theorem within_run (within : Within pps bps self) (arrivals : List Arrival) :
    Within pps bps (run arrive self arrivals) :=
  (throughout_of_preserved (fun _ arrival before => before.arrive arrival) within arrivals).run

/-- The limits that the refill per tick does not exceed, as far as they matter. -/
def LimitsFit (pps bps : UInt32) : Prop :=
  pps = 0 ∨ (20 ≤ pps ∧ (bps = 0 ∨ 20 ≤ bps))

theorem keepsRates_of_limitsFit (fit : LimitsFit pps bps) : KeepsRates pps bps := by
  constructor
  · intro before window first ticks ordered inside
    have within := within_run (within_new pps bps) before
    rcases window with _ | ⟨arrival, later⟩
    · exact ⟨zero_le _, zero_le _⟩
    have notAhead : (run arrive (new pps bps) before).lastReplenishTick.toNat ≤
        first + ticks := by
      refine lastReplenishTick_run_le before (zero_le _) fun earlier mem => ?_
      have atMost := (pairwise_append.mp ordered).2.2 earlier mem arrival mem_cons_self
      rw [UInt64.le_iff_toNat_le] at atMost
      have here := inside arrival mem_cons_self
      omega
    have paid := window_paid within notAhead inside
    rcases fit with rfl | ⟨packetsFit, bytesFit⟩
    · have packets := gainPerTick_mul_le (Or.inl (rfl : (0 : UInt32) = 0)) ticks
      have bytes := totalAlong_bytesIn_of_none within (arrival :: later)
      omega
    have packets := gainPerTick_mul_le (Or.inr packetsFit) ticks
    have bytes := gainPerTick_mul_le bytesFit ticks
    omega
  intro before arrival rejected
  have within := within_run (within_new pps bps) before
  have refilled := within.le_replenish arrival.tick
  rw [run_append, run_cons]
  rcases arrive_cases (run arrive (new pps bps) before) arrival with ⟨accepted, -⟩ | ⟨-, -, same⟩
  · rw [rejected] at accepted
    cases accepted
  rw [same]
  exact refilled

def drip (packetLen start count : Nat) : List Arrival :=
  (List.range' start count).map fun tick => ⟨packetLen, UInt64.ofNat tick⟩

variable {tick : Nat}

theorem totalAlong_drip {amount : SocketRatePolicer → Arrival → Nat} {packetLen : Nat}
    {ready : Nat → SocketRatePolicer → Prop}
    (once : ∀ (tick : Nat) (policer : SocketRatePolicer), tick + 1 < 2 ^ 64 → ready tick policer →
      amount policer ⟨packetLen, UInt64.ofNat (tick + 1)⟩ = 1 ∧
        ready (tick + 1) (policer.arrive ⟨packetLen, UInt64.ofNat (tick + 1)⟩)) (count : Nat)
    (fits : tick + count < 2 ^ 64) (start : ready tick self) :
    totalAlong arrive amount self (drip packetLen (tick + 1) count) = count := by
  induction count generalizing tick self with
  | zero => rfl
  | succ count ih =>
    obtain ⟨one, next⟩ := once tick self (by omega) start
    have rest := ih (by omega) next
    rw [drip] at rest
    rw [drip, range'_succ, map_cons, totalAlong_cons, one, rest, add_comm]

theorem replenish_next (fits : tick + 1 < 2 ^ 64)
    (last : self.lastReplenishTick = UInt64.ofNat tick) :
    self.replenish (UInt64.ofNat (tick + 1)) =
      { self with
        packetTokens := refill self.packetTokens self.maxPacketsPerSec 1
        byteTokens := refill self.byteTokens self.maxBytesPerSec 1
        lastReplenishTick := UInt64.ofNat (tick + 1) } := by
  have small : tick < 2 ^ 64 := by
    omega
  have lastNat : (UInt64.ofNat tick).toNat = tick := UInt64.toNat_ofNat_of_lt' small
  have nextNat : (UInt64.ofNat (tick + 1)).toNat = tick + 1 := UInt64.toNat_ofNat_of_lt' fits
  have later : ¬ UInt64.ofNat (tick + 1) ≤ UInt64.ofNat tick := by
    rw [UInt64.le_iff_toNat_le]
    omega
  have elapsed : UInt64.ofNat (tick + 1) - UInt64.ofNat tick = 1 := by
    apply UInt64.toNat_inj.mp
    rw [UInt64.toNat_sub_of_le _ _ (by rw [UInt64.le_iff_toNat_le]; omega), lastNat, nextNat]
    change tick + 1 - tick = 1
    omega
  rw [replenish, last, if_neg later]
  rw [elapsed]

structure OutOfPackets (pps bps : UInt32) (tick : Nat) (policer : SocketRatePolicer) :
    Prop where
  within : Within pps bps policer
  none : policer.packetTokens = 0
  last : policer.lastReplenishTick = UInt64.ofNat tick

theorem OutOfPackets.once (positive : 0 < pps.toNat) (few : pps.toNat < 20)
    (fits : tick + 1 < 2 ^ 64) (out : OutOfPackets pps bps tick self) :
    self.packetsIn ⟨0, UInt64.ofNat (tick + 1)⟩ = 1 ∧
      OutOfPackets pps bps (tick + 1) (self.arrive ⟨0, UInt64.ofNat (tick + 1)⟩) := by
  have replenished := replenish_next fits out.last
  have one : (self.replenish (UInt64.ofNat (tick + 1))).packetTokens.toNat = 1 := by
    rw [replenished, out.none, out.within.packetLimit]
    exact refill_zero positive few
  rcases arrive_cases self ⟨0, UInt64.ofNat (tick + 1)⟩ with
    ⟨accepted, -, -, left, -, -, -, clock⟩ | ⟨-, short, -⟩
  · refine ⟨by rw [packetsIn, if_pos accepted], out.within.arrive _, ?_, ?_⟩
    · apply UInt32.toNat_inj.mp
      rw [left, one]
      rfl
    rw [clock, replenished]
  dsimp only at short
  omega

structure OutOfBytes (pps bps : UInt32) (tick : Nat) (policer : SocketRatePolicer) :
    Prop where
  within : Within pps bps policer
  none : policer.byteTokens = 0
  last : policer.lastReplenishTick = UInt64.ofNat tick

theorem OutOfBytes.once (some : 0 < pps.toNat) (positive : 0 < bps.toNat) (few : bps.toNat < 20)
    (fits : tick + 1 < 2 ^ 64) (out : OutOfBytes pps bps tick self) :
    self.bytesIn ⟨1, UInt64.ofNat (tick + 1)⟩ = 1 ∧
      OutOfBytes pps bps (tick + 1) (self.arrive ⟨1, UInt64.ofNat (tick + 1)⟩) := by
  have replenished := replenish_next fits out.last
  have one : (self.replenish (UInt64.ofNat (tick + 1))).byteTokens.toNat = 1 := by
    rw [replenished, out.none, out.within.byteLimit]
    exact refill_zero positive few
  have packet : 1 ≤ (self.replenish (UInt64.ofNat (tick + 1))).packetTokens.toNat := by
    rw [replenished]
    rw [out.within.packetLimit, toNat_refill, toNat_perTick]
    change 1 ≤ min (min (_ + min (1 % 2 ^ 32 * _) (2 ^ 32 - 1)) (2 ^ 32 - 1)) _
    omega
  rcases arrive_cases self ⟨1, UInt64.ofNat (tick + 1)⟩ with
    ⟨accepted, -, -, -, left, -, -, clock⟩ | ⟨-, short, -⟩
  · refine ⟨by rw [bytesIn, if_pos accepted], out.within.arrive _, ?_, ?_⟩
    · apply UInt32.toNat_inj.mp
      rw [left, one]
      rfl
    rw [clock, replenished]
  dsimp only at short
  omega

theorem replenish_zero (start : self.lastReplenishTick = 0) : self.replenish 0 = self := by
  rw [replenish, start, if_pos (UInt64.le_refl 0)]

theorem run_burst (within : Within pps bps self) (start : self.lastReplenishTick = 0)
    (count : Nat) (enough : count ≤ self.packetTokens.toNat) :
    totalAlong arrive packetsIn self (List.replicate count ⟨0, 0⟩) = count ∧
      Within pps bps (run arrive self (List.replicate count ⟨0, 0⟩)) ∧
      (run arrive self (List.replicate count ⟨0, 0⟩)).packetTokens.toNat =
        self.packetTokens.toNat - count ∧
      (run arrive self (List.replicate count ⟨0, 0⟩)).lastReplenishTick = 0 := by
  induction count generalizing self with
  | zero => exact ⟨rfl, within, rfl, start⟩
  | succ count ih =>
    have same := replenish_zero start
    rcases arrive_cases self ⟨0, 0⟩ with ⟨accepted, -, -, left, -, -, -, clock⟩ | ⟨-, short, -⟩
    · rw [same] at left clock
      obtain ⟨total, rest, tokens, last⟩ :=
        ih (within.arrive ⟨0, 0⟩) (clock.trans start) (by omega)
      rw [replicate_succ, totalAlong_cons, total, packetsIn, if_pos accepted]
      exact ⟨add_comm _ _, rest, by rw [run_cons]; omega, last⟩
    rw [same] at short
    dsimp only at short
    omega

theorem mem_drip {packetLen start count : Nat} (fits : start + count < 2 ^ 64)
    {arrival : Arrival} (mem : arrival ∈ drip packetLen start count) :
    start ≤ arrival.tick.toNat ∧ arrival.tick.toNat < start + count := by
  rw [drip, mem_map] at mem
  obtain ⟨tick, inRange, rfl⟩ := mem
  rw [mem_range'_1] at inRange
  have small : tick < 2 ^ 64 := by
    omega
  have same : (UInt64.ofNat tick).toNat = tick := UInt64.toNat_ofNat_of_lt' small
  dsimp only
  omega

theorem pairwise_drip {packetLen start count : Nat} (fits : start + count < 2 ^ 64) :
    (drip packetLen start count).Pairwise fun earlier later => earlier.tick ≤ later.tick := by
  rw [drip, pairwise_map]
  refine List.Pairwise.imp_of_mem ?_ pairwise_lt_range'
  intro earlier later earlierMem laterMem ordered
  rw [mem_range'_1] at earlierMem laterMem
  have earlierSmall : earlier < 2 ^ 64 := by
    omega
  have laterSmall : later < 2 ^ 64 := by
    omega
  rw [UInt64.le_iff_toNat_le, UInt64.toNat_ofNat_of_lt' earlierSmall,
    UInt64.toNat_ofNat_of_lt' laterSmall]
  exact le_of_lt ordered

theorem window_burst_drip (burst : List Arrival) (packetLen : Nat)
    (first : ∀ arrival ∈ burst, arrival.tick = 0) :
    ([] ++ (burst ++ drip packetLen 1 20)).Pairwise
        (fun earlier later : Arrival => earlier.tick ≤ later.tick) ∧
      ∀ arrival ∈ burst ++ drip packetLen 1 20,
        0 ≤ arrival.tick.toNat ∧ arrival.tick.toNat ≤ 0 + 21 := by
  constructor
  · rw [nil_append]
    refine pairwise_append.mpr ⟨?_, pairwise_drip (by decide), ?_⟩
    · refine pairwise_of_forall_mem_list ?_
      intro earlier earlierMem later laterMem
      rw [first earlier earlierMem, first later laterMem]
      exact UInt64.le_refl 0
    intro earlier earlierMem later _
    rw [first earlier earlierMem]
    exact zero_le _
  intro arrival mem
  refine ⟨zero_le _, ?_⟩
  rcases mem_append.mp mem with inBurst | inDrip
  · rw [first arrival inBurst]
    exact zero_le _
  have place := mem_drip (by decide) inDrip
  omega

theorem packets_exceed (positive : 0 < pps.toNat) (few : pps.toNat < 20) :
    ¬ KeepsRates pps bps := by
  intro keeps
  have within := within_new pps bps
  obtain ⟨total, rest, tokens, last⟩ :=
    run_burst within rfl pps.toNat (le_refl _)
  have out : OutOfPackets pps bps 0
      (run arrive (new pps bps) (List.replicate pps.toNat ⟨0, 0⟩)) := by
    refine ⟨rest, ?_, last⟩
    apply UInt32.toNat_inj.mp
    rw [tokens]
    exact Nat.sub_self _
  have dripped := totalAlong_drip (fun tick _ fits ready => ready.once positive few fits) 20
    (by decide) out
  obtain ⟨ordered, inside⟩ := window_burst_drip (List.replicate pps.toNat ⟨0, 0⟩) 0
    fun arrival mem => by rw [eq_of_mem_replicate mem]
  have promised := (keeps.window [] _ 0 21 ordered inside).1
  rw [run_nil, totalAlong_append, dripped] at promised
  omega

theorem bytes_exceed (some : 0 < pps.toNat) (positive : 0 < bps.toNat)
    (few : bps.toNat < 20) : ¬ KeepsRates pps bps := by
  intro keeps
  have within := within_new pps bps
  have large : (new pps bps).bytesIn ⟨bps.toNat, 0⟩ = bps.toNat ∧
      OutOfBytes pps bps 0 ((new pps bps).arrive ⟨bps.toNat, 0⟩) := by
    rcases arrive_cases (new pps bps) ⟨bps.toNat, 0⟩ with
      ⟨accepted, -, -, -, left, -, -, clock⟩ | ⟨-, short, -⟩
    · refine ⟨by rw [bytesIn, if_pos accepted], within.arrive _, ?_, ?_⟩
      · apply UInt32.toNat_inj.mp
        rw [left]
        exact Nat.sub_self _
      rw [clock]
      rfl
    change pps.toNat < 1 ∨ bps.toNat < bps.toNat at short
    omega
  have dripped := totalAlong_drip (fun tick _ fits ready => ready.once some positive few fits)
    20 (by decide) large.2
  obtain ⟨ordered, inside⟩ := window_burst_drip [⟨bps.toNat, 0⟩] 1
    fun arrival mem => by rw [mem_singleton.mp mem]
  have promised := (keeps.window [] _ 0 21 ordered inside).2
  rw [run_nil, singleton_append, totalAlong_cons, dripped] at promised
  omega

/-- The limits are kept exactly if no limit that matters is one to nineteen, which the least
refill of one token a tick exceeds. -/
theorem keepsRates_iff (pps bps : UInt32) : KeepsRates pps bps ↔ LimitsFit pps bps := by
  constructor
  · intro keeps
    by_contra unfit
    obtain ⟨somePackets, fewBytes⟩ := not_or.mp unfit
    rw [not_and, not_or] at fewBytes
    have positive : 0 < pps.toNat :=
      pos_of_ne_zero fun zero => somePackets (UInt32.toNat_inj.mp zero)
    by_cases enough : 20 ≤ pps.toNat
    · obtain ⟨someBytes, few⟩ := fewBytes enough
      have positiveBytes : 0 < bps.toNat :=
        pos_of_ne_zero fun zero => someBytes (UInt32.toNat_inj.mp zero)
      exact bytes_exceed positive positiveBytes (Nat.lt_of_not_le few) keeps
    exact packets_exceed positive (Nat.lt_of_not_le enough) keeps
  exact keepsRates_of_limitsFit

/-- With a limit of one packet a second, two packets in two successive ticks are let in. -/
theorem not_keepsRates : ¬ KeepsRates 1 100 := by
  intro keeps
  have promised := (keeps.window [] [⟨0, 0⟩, ⟨0, 1⟩] 0 2 (by decide) (by decide)).1
  revert promised
  decide

end SocketRatePolicer

end Eidolon.Net
