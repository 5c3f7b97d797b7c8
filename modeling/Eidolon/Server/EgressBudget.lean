import Eidolon.Net.Quota
import Eidolon.Server.UpdateStarvation

/-!
# The egress budget

What a client is sent is taken from its bucket, and the bucket is refilled only by ticks, so
that the datagrams of some ticks fit a full bucket and what the ticks add.
-/

namespace Eidolon.Net

open Library List Nat

namespace BandwidthGovernor

variable (governor : BandwidthGovernor) (client : UInt32)

def tokensOf : Nat :=
  (governor.buckets[client.toNat]?).elim 0 fun bucket => bucket.tokens.toNat

def epochOf : Nat :=
  (governor.buckets[client.toNat]?).elim 0 fun bucket => bucket.bytesSentEpoch.toNat

def epochLimit : Nat := 2 ^ 64 - 1

theorem epochOf_le : governor.epochOf client ≤ epochLimit := by
  unfold epochOf epochLimit
  cases governor.buckets[client.toNat]? with
  | none => exact zero_le _
  | some bucket => exact le_pred_of_lt bucket.bytesSentEpoch.toNat_lt

/-- So many bytes are taken from a client's bucket and counted, and the rest of what concerns
the client is as before. -/
structure Spends (client : UInt32) (bytes : Nat) (before after : BandwidthGovernor) :
    Prop where
  profile : after.profile = before.profile
  tokens : after.tokensOf client + bytes = before.tokensOf client
  epoch : after.epochOf client = min (before.epochOf client + bytes) epochLimit

theorem Spends.nothing (governor : BandwidthGovernor) : Spends client 0 governor governor :=
  ⟨rfl, rfl, (min_eq_left (governor.epochOf_le client)).symm⟩

theorem Spends.trans {client : UInt32} {first second third : BandwidthGovernor}
    {earlier later : Nat} (left : Spends client earlier first second)
    (right : Spends client later second third) : Spends client (earlier + later) first third := by
  have leftTokens := left.tokens
  have rightTokens := right.tokens
  have leftEpoch := left.epoch
  have rightEpoch := right.epoch
  refine ⟨right.profile.trans left.profile, ?_, ?_⟩ <;> omega

variable {governor : BandwidthGovernor} {client : UInt32} {bytes : Nat}

theorem spends_of_bucket {before after : BandwidthGovernor} {bucket changed : ClientTokenBucket}
    (profile : after.profile = before.profile) (held : before.buckets[client.toNat]? = some bucket)
    (later : after.buckets[client.toNat]? = some changed)
    (tokens : changed.tokens.toNat + bytes = bucket.tokens.toNat)
    (epoch : changed.bytesSentEpoch.toNat = min (bucket.bytesSentEpoch.toNat + bytes) epochLimit) :
    Spends client bytes before after := by
  refine ⟨profile, ?_, ?_⟩
  · unfold tokensOf
    rw [held, later]
    exact tokens
  unfold epochOf
  rw [held, later]
  exact epoch

theorem spends_consume (governor : BandwidthGovernor) (client : UInt32) (small : bytes < 2 ^ 32) :
    Spends client (if (governor.consume client bytes).1 then bytes else 0) governor
      (governor.consume client bytes).2 := by
  rcases found : governor.bucketOf client with _ | bucket
  · have refused : governor.consume client bytes = (false, governor) := by
      unfold consume
      rw [found]
    rw [refused]
    exact Spends.nothing client governor
  have held : governor.buckets[client.toNat]? = some bucket := by
    unfold bucketOf at found
    split at found
    · exact found
    cases found
  have after : (governor.consume client bytes).2.buckets[client.toNat]? =
      some (bucket.consume bytes).2 := by
    unfold consume
    rw [found]
    exact getElem?_set_self (lt_of_bucketOf found)
  have payment : (UInt32.ofNat bytes).toNat = bytes := UInt32.toNat_ofNat_of_lt' small
  rw [consume_fst found]
  refine spends_of_bucket (profile_consume _ _ _) held after ?_ ?_
  · unfold ClientTokenBucket.consume
    split
    · rename_i enough
      rw [UInt32.toNat_sub_of_le _ _ enough, if_pos rfl]
      rw [UInt32.le_iff_toNat_le] at enough
      omega
    rfl
  unfold ClientTokenBucket.consume
  split
  · rw [toNat_saturatingAdd64, UInt32.toNat_toUInt64, payment]
    rfl
  have bound := bucket.bytesSentEpoch.toNat_lt
  unfold epochLimit
  dsimp only
  rw [if_neg Bool.false_ne_true]
  omega

theorem spends_consume_of_ne {payer : UInt32} (different : payer ≠ client) (bytes : Nat) :
    Spends client 0 governor (governor.consume payer bytes).2 := by
  have apart : payer.toNat ≠ client.toNat :=
    fun equal => different (UInt32.toNat_inj.mp equal)
  have same : (governor.consume payer bytes).2.buckets[client.toNat]? =
      governor.buckets[client.toNat]? := by
    unfold consume
    split
    · rfl
    exact getElem?_set_ne apart
  refine ⟨profile_consume _ _ _, ?_, ?_⟩
  · unfold tokensOf
    rw [same]
    rfl
  rw [add_zero, min_eq_left (governor.epochOf_le client)]
  unfold epochOf
  rw [same]

structure Capped (profile : DensityProfile) (governor : BandwidthGovernor) : Prop where
  fixed : governor.profile = profile
  tokens : ∀ client, governor.tokensOf client ≤ profile.bucketCapacity.toNat

theorem capped_new (maxClients : Nat) (profile : DensityProfile) :
    Capped profile (new maxClients profile) := by
  refine ⟨rfl, fun client => ?_⟩
  unfold tokensOf new
  rw [getElem?_replicate]
  split
  · exact le_refl _
  exact zero_le _

variable {profile : DensityProfile}

section

variable (capped : Capped profile governor)
include capped

theorem tick_spec (client : UInt32) : governor.tick.tokensOf client ≤ profile.bucketCapacity.toNat ∧
      governor.tick.tokensOf client ≤ governor.tokensOf client + profile.bytesPerTick.toNat ∧
      governor.tick.epochOf client = governor.epochOf client := by
  have before := capped.tokens client
  have sameProfile := capped.fixed
  unfold tokensOf at before
  unfold tokensOf epochOf tick
  rw [getElem?_mapIdx]
  rcases held : governor.buckets[client.toNat]? with _ | bucket
  · exact ⟨zero_le _, zero_le _, rfl⟩
  rw [held] at before
  dsimp only [Option.map_some, Option.elim_some] at before ⊢
  split
  · unfold ClientTokenBucket.replenish
    dsimp only
    rw [toNat_min, toNat_saturatingAdd32, sameProfile]
    omega
  exact ⟨before, le_add_right _ _, rfl⟩

theorem Capped.tick : Capped profile governor.tick :=
  ⟨capped.fixed, fun client => (tick_spec capped client).1⟩

theorem Capped.of_spends {after : BandwidthGovernor} (same : after.profile = governor.profile)
    (spends : ∀ client, ∃ bytes, Spends client bytes governor after) : Capped profile after := by
  refine ⟨same.trans capped.fixed, fun client => ?_⟩
  obtain ⟨bytes, spent⟩ := spends client
  have before := capped.tokens client
  have tokens := spent.tokens
  omega

theorem Capped.registerClient (client : UInt32) :
    Capped profile (governor.registerClient client) := by
  refine ⟨capped.fixed, fun other => ?_⟩
  have before := capped.tokens other
  unfold tokensOf at before ⊢
  unfold BandwidthGovernor.registerClient
  rw [getElem?_set]
  split
  · split
    · rw [capped.fixed]
      exact le_refl _
    exact zero_le _
  exact before

end

theorem spends_registerClient_of_ne {other : UInt32} (different : other ≠ client) :
    Spends client 0 governor (governor.registerClient other) := by
  have apart : other.toNat ≠ client.toNat :=
    fun equal => different (UInt32.toNat_inj.mp equal)
  have same : (governor.registerClient other).buckets[client.toNat]? =
      governor.buckets[client.toNat]? :=
    getElem?_set_ne apart
  refine ⟨rfl, ?_, ?_⟩
  · unfold tokensOf
    rw [same]
    rfl
  rw [add_zero, min_eq_left (governor.epochOf_le client)]
  unfold epochOf
  rw [same]

theorem spends_unregisterClient (governor : BandwidthGovernor) (other client : UInt32) :
    Spends client 0 governor (governor.unregisterClient other) :=
  ⟨rfl, rfl, (min_eq_left (governor.epochOf_le client)).symm⟩

end BandwidthGovernor

end Eidolon.Net

namespace Eidolon.Server

open Core Library List Nat Net Spatial
open BandwidthGovernor

def totalBytes (packets : List (List UInt8)) : Nat :=
  (packets.map List.length).sum

theorem totalBytes_append (first second : List (List UInt8)) :
    totalBytes (first ++ second) = totalBytes first + totalBytes second := by
  rw [totalBytes, map_append, sum_append]
  rfl

def bytesTo {Peer : Type} (client : UInt32) (datagrams : List (StateDatagram Peer)) : Nat :=
  totalBytes ((datagrams.filter fun datagram => datagram.player = client).map StateDatagram.bytes)

theorem bytesTo_append {Peer : Type} (client : UInt32) (first second : List (StateDatagram Peer)) :
    bytesTo client (first ++ second) = bytesTo client first + bytesTo client second := by
  rw [bytesTo, filter_append, map_append, totalBytes_append]
  rfl

theorem bytesTo_turn {Peer : Type} (client player : UInt32) (peer : Peer)
    (packets : List (List UInt8)) :
    bytesTo client (packets.map fun bytes => ⟨player, peer, bytes⟩) =
      if player = client then totalBytes packets else 0 := by
  have bytesBack : (packets.map fun bytes => (⟨player, peer, bytes⟩ : StateDatagram Peer)).map
      StateDatagram.bytes = packets := by
    rw [map_map]
    exact map_id packets
  unfold bytesTo
  by_cases same : player = client
  · have all : (packets.map fun bytes => (⟨player, peer, bytes⟩ : StateDatagram Peer)).filter
        (fun datagram => datagram.player = client) =
          packets.map fun bytes => ⟨player, peer, bytes⟩ := by
      refine filter_eq_self.mpr fun datagram mem => ?_
      obtain ⟨bytes, -, rfl⟩ := mem_map.mp mem
      exact decide_eq_true same
    rw [if_pos same, all, bytesBack]
  have none : (packets.map fun bytes => (⟨player, peer, bytes⟩ : StateDatagram Peer)).filter
      (fun datagram => datagram.player = client) = [] := by
    refine filter_eq_nil_iff.mpr fun datagram mem => ?_
    obtain ⟨bytes, -, rfl⟩ := mem_map.mp mem
    simpa using same
  rw [if_neg same, none]
  rfl

namespace UpdateWriter

structure Accounts (client player : UInt32) (before after : UpdateWriter) : Prop where
  sent : ∃ packets, after.sent = before.sent ++ packets ∧
    Spends client (if player = client then totalBytes packets else 0) before.governor
      after.governor

theorem Accounts.same {client player : UInt32} {before after : UpdateWriter}
    (sent : after.sent = before.sent) (governor : after.governor = before.governor) :
    Accounts client player before after := by
  refine ⟨[], sent.trans (append_nil _).symm, ?_⟩
  rw [governor, show totalBytes [] = 0 from rfl, ite_self]
  exact Spends.nothing client before.governor

theorem Accounts.trans {client player : UInt32} {first second third : UpdateWriter}
    (left : Accounts client player first second)
    (right : Accounts client player second third) : Accounts client player first third := by
  obtain ⟨earlier, earlierSent, earlierSpends⟩ := left.sent
  obtain ⟨later, laterSent, laterSpends⟩ := right.sent
  refine ⟨earlier ++ later, ?_, ?_⟩
  · rw [laterSent, earlierSent, append_assoc]
  have both := earlierSpends.trans laterSpends
  rw [totalBytes_append]
  by_cases same : player = client
  · rw [if_pos same, if_pos same] at both
    rw [if_pos same]
    exact both
  rw [if_neg same, if_neg same] at both
  rw [if_neg same]
  exact both

def Fits (writer : UpdateWriter) : Prop :=
  headerSize + writer.records.length ≤ maxPacketSize

theorem accounts_flush {writer : UpdateWriter} (fits : writer.Fits) (client player : UInt32) :
    Accounts client player writer (writer.flush player) := by
  have small : headerSize + writer.records.length < 2 ^ 32 :=
    lt_of_le_of_lt fits (by decide)
  unfold flush
  split
  · exact Accounts.same rfl rfl
  dsimp only
  refine ⟨if (writer.governor.consume player (headerSize + writer.records.length)).1 then
    [writer.header.encoded ++ writer.records] else [], ?_, ?_⟩
  · split
    · rfl
    exact (append_nil _).symm
  by_cases same : player = client
  · subst same
    have spends := spends_consume writer.governor player small
    have bytes : totalBytes (if (writer.governor.consume player
        (headerSize + writer.records.length)).1 then
          [writer.header.encoded ++ writer.records] else []) =
        if (writer.governor.consume player (headerSize + writer.records.length)).1 then
          headerSize + writer.records.length else 0 := by
      split
      · rw [totalBytes, map_singleton, sum_singleton, length_append, PacketHeader.length_encoded]
      rfl
    rw [if_pos rfl, bytes]
    exact spends
  rw [if_neg same]
  exact spends_consume_of_ne same _

end UpdateWriter

namespace EidolonApp

variable {Peer : Type} {app : EidolonApp Peer Mobile AoiWorld} (player : ServerEntity Peer Mobile)

variable (client : UInt32)

theorem accounts_writeUpdates (visible : List UInt32) {writer : UpdateWriter} (fits : writer.Fits) :
    (app.writeUpdates player visible writer).Fits ∧ UpdateWriter.Accounts client player.id writer
        (app.writeUpdates player visible writer) := by
  induction visible generalizing writer with
  | nil => exact ⟨fits, UpdateWriter.Accounts.same rfl rfl⟩
  | cons visibleId rest ih =>
    rw [writeUpdates]
    rcases app.admittedTarget writer.governor player visibleId with _ | target
    · exact ih fits
    have recordFits := length_updateRecord target.id target.body
    have flushed := UpdateWriter.accounts_flush fits client player.id
    dsimp only
    split
    · split
      · -- the datagram is full, and the next one begins with the record
        have nextFits : ((writer.flush player.id).next
            (updateRecord target.id target.body)).Fits := by
          unfold UpdateWriter.Fits UpdateWriter.next
          rw [recordFits]
          decide
        obtain ⟨restFits, restPaid⟩ := ih nextFits
        have begun : UpdateWriter.Accounts client player.id (writer.flush player.id)
            ((writer.flush player.id).next (updateRecord target.id target.body)) :=
          UpdateWriter.Accounts.same rfl rfl
        exact ⟨restFits, (flushed.trans begun).trans restPaid⟩
      refine ⟨?_, flushed⟩
      have records : (writer.flush player.id).records = writer.records := by
        unfold UpdateWriter.flush
        split <;> rfl
      unfold UpdateWriter.Fits
      rw [records]
      exact fits
    have writtenFits : (writer.write (updateRecord target.id target.body)).Fits := by
      unfold UpdateWriter.Fits UpdateWriter.write
      rw [length_append]
      omega
    obtain ⟨restFits, restPaid⟩ := ih writtenFits
    have written : UpdateWriter.Accounts client player.id writer
        (writer.write (updateRecord target.id target.body)) :=
      UpdateWriter.Accounts.same rfl rfl
    exact ⟨restFits, written.trans restPaid⟩

theorem spends_playerUpdates (governor : BandwidthGovernor) : Spends client
      (if player.id = client then totalBytes (app.playerUpdates governor player).2 else 0)
      governor (app.playerUpdates governor player).1 := by
  have startFits : (UpdateWriter.start governor app.world.currentTick).Fits := by
    change headerSize + 0 ≤ maxPacketSize
    decide
  obtain ⟨fits, written⟩ := app.accounts_writeUpdates player client
    (app.visibleIds player.body.position) startFits
  obtain ⟨packets, sent, spends⟩ :=
    (written.trans (UpdateWriter.accounts_flush fits client player.id)).sent
  unfold playerUpdates
  dsimp only
  rw [sent]
  exact spends

theorem spends_foldl_observe (observers : List (ServerEntity Peer Mobile × Peer))
    (state : BandwidthGovernor × List (StateDatagram Peer)) :
    ∃ datagrams, (observers.foldl app.observe state).2 = state.2 ++ datagrams ∧
      Spends client (bytesTo client datagrams) state.1 (observers.foldl app.observe state).1 := by
  induction observers generalizing state with
  | nil => exact ⟨[], (append_nil _).symm, Spends.nothing client state.1⟩
  | cons observer observers ih =>
    obtain ⟨datagrams, sent, spends⟩ := ih (app.observe state observer)
    have turn := app.spends_playerUpdates observer.1 client state.1
    rw [← bytesTo_turn client observer.1.id observer.2] at turn
    refine ⟨(app.playerUpdates state.1 observer.1).2.map
      (fun bytes => ⟨observer.1.id, observer.2, bytes⟩) ++ datagrams, ?_, ?_⟩
    · rw [foldl_cons, sent, ← append_assoc]
      rfl
    rw [bytesTo_append, foldl_cons]
    rw [fst_observe] at spends
    exact turn.trans spends

def withGovernor (app : EidolonApp Peer Mobile AoiWorld) (governor : BandwidthGovernor) :
    EidolonApp Peer Mobile AoiWorld :=
  { app with world := { app.world with bandwidthGovernor := governor } }

end EidolonApp

/-- What happens to a governor.  A tick comes with the server as it is by then: its entities,
where they are and who is connected. -/
inductive GovernorEvent (Peer : Type) where
  | tick (app : EidolonApp Peer Mobile AoiWorld)
  | registerClient (client : UInt32)
  | unregisterClient (client : UInt32)

namespace GovernorEvent

variable {Peer : Type}

def isTick : GovernorEvent Peer → Bool
  | tick _ => true
  | _ => false

def govern (governor : BandwidthGovernor) : GovernorEvent Peer → BandwidthGovernor
  | tick app => (app.withGovernor governor).broadcastAoiUpdates.1.world.bandwidthGovernor
  | registerClient client => governor.registerClient client
  | unregisterClient client => governor.unregisterClient client

def sentTo (client : UInt32) (governor : BandwidthGovernor) : GovernorEvent Peer → Nat
  | tick app => bytesTo client (app.withGovernor governor).broadcastAoiUpdates.2
  | _ => 0

theorem spends_tick (client : UInt32) (governor : BandwidthGovernor)
    (app : EidolonApp Peer Mobile AoiWorld) :
    Spends client (sentTo client governor (.tick app)) governor.tick
      (govern governor (.tick app)) := by
  obtain ⟨datagrams, sent, spends⟩ := (app.withGovernor governor).spends_foldl_observe client
    (app.withGovernor governor).observers (governor.tick, [])
  rw [nil_append] at sent
  rw [← sent] at spends
  exact spends

variable {profile : DensityProfile} {governor : BandwidthGovernor} {client : UInt32}

theorem capped_govern (capped : Capped profile governor) (event : GovernorEvent Peer) :
    Capped profile (govern governor event) := by
  cases event with
  | tick app =>
    exact capped.tick.of_spends (spends_tick 0 governor app).profile
      fun client => ⟨_, spends_tick client governor app⟩
  | registerClient client => exact capped.registerClient client
  | unregisterClient client =>
    exact capped.of_spends rfl fun other => ⟨0, spends_unregisterClient governor client other⟩

theorem capped_run (capped : Capped profile governor) (events : List (GovernorEvent Peer)) :
    Capped profile (run govern governor events) := by
  have preserved : ∀ governor (event : GovernorEvent Peer), Capped profile governor →
      Capped profile (govern governor event) :=
    fun _ event before => capped_govern before event
  exact (throughout_of_preserved preserved capped events).run

/-- An event that does not register the client anew takes what it sends from the bucket, and
only a tick adds to it. -/
theorem govern_spec (capped : Capped profile governor) {event : GovernorEvent Peer}
    (kept : event ≠ .registerClient client) :
    (govern governor event).tokensOf client + sentTo client governor event ≤
        governor.tokensOf client + (if event.isTick then profile.bytesPerTick.toNat else 0) ∧
      (govern governor event).epochOf client =
        min (governor.epochOf client + sentTo client governor event) epochLimit := by
  cases event with
  | tick app =>
    have spends := spends_tick client governor app
    obtain ⟨-, added, sameEpoch⟩ := tick_spec capped client
    rw [← sameEpoch, spends.tokens]
    exact ⟨added, spends.epoch⟩
  | registerClient other =>
    have different : other ≠ client := fun same => kept (congrArg registerClient same)
    have spends : Spends client 0 governor (governor.registerClient other) :=
      spends_registerClient_of_ne different
    exact ⟨le_of_eq spends.tokens, spends.epoch⟩
  | unregisterClient other =>
    have spends := spends_unregisterClient governor other client
    exact ⟨le_of_eq spends.tokens, spends.epoch⟩

theorem totalAlong_ticks (added : Nat) (start : BandwidthGovernor)
    (window : List (GovernorEvent Peer)) :
    totalAlong govern (fun _ event => if event.isTick then added else 0) start window =
      window.countP isTick * added := by
  induction window generalizing start with
  | nil => exact (zero_mul added).symm
  | cons event window ih =>
    rw [totalAlong_cons, ih, countP_cons, add_mul, add_comm]
    split
    · rw [one_mul]
    rw [zero_mul]

/-- In every window in which a client is not registered anew, it is sent what a full bucket
and the ticks pay for at most, and its count of the epoch grows by what it is sent until it
stays at the greatest value. -/
theorem egress_budget (maxClients : Nat) (profile : DensityProfile)
    (before window : List (GovernorEvent Peer)) (client : UInt32)
    (kept : ∀ event ∈ window, event ≠ .registerClient client) :
    let start := run govern (BandwidthGovernor.new maxClients profile) before
    totalAlong govern (sentTo client) start window ≤
        profile.bucketCapacity.toNat + window.countP isTick * profile.bytesPerTick.toNat ∧
      (run govern start window).epochOf client =
        min (start.epochOf client + totalAlong govern (sentTo client) start window)
          epochLimit := by
  intro start
  have capped : Capped profile start := capped_run (capped_new maxClients profile) before
  have steps : EachStep govern (fun _ event => event ≠ .registerClient client) start window :=
    eachStep_of_forall kept start
  have preserved : ∀ governor (event : GovernorEvent Peer), Capped profile governor →
      event ≠ .registerClient client → Capped profile (govern governor event) :=
    fun _ event before _ => capped_govern before event
  constructor
  · have paid := level_add_spent_le (fun governor => governor.tokensOf client) (sentTo client)
      (fun _ event => if event.isTick then profile.bytesPerTick.toNat else 0) preserved
      (fun _ _ before kept => (govern_spec before kept).1) capped steps
    have full := capped.tokens client
    rw [totalAlong_ticks] at paid
    omega
  exact counter_run (fun governor => governor.epochOf client) (sentTo client) preserved
    (fun _ _ before kept => (govern_spec before kept).2) capped
    (start.epochOf_le client) steps

def lonelyServer : EidolonApp UInt16 Mobile AoiWorld where
  entities :=
    [{ id := 0
       equipment := World.EquipmentContainer.new
       peerAddr := some 4001
       accountId := none
       sessionId := none
       body := ⟨Vec3Fix.fromI32 0 0 0, Vec3Fix.fromI32 0 0 0, QuantizedYaw.fromByte 0, 0⟩ }]
  accounts := ∅
  serverSecret := []
  serverNonce := FixedBytes.replicate nonceLen 0x55
  world :=
    { spatialGrid := ((SpatialHashGrid.withCapacity 4 64).insert 0 (Vec3Fix.fromI32 0 0 0)).2
      interiorCells := ∅
      densityProfile := .budgetMobile
      bandwidthGovernor := BandwidthGovernor.new 1 .budgetMobile
      currentTick := 0 }

/-- In two ticks the player is sent two datagrams of one record, itself, each. -/
theorem egress_budget_lonelyServer :
    let start := (BandwidthGovernor.new 1 .budgetMobile).registerClient 0
    let window := [.tick lonelyServer, .tick lonelyServer]
    totalAlong govern (sentTo 0) start window = 68 ∧
      totalAlong govern (sentTo 0) start window ≤ 180 + 2 * 60 ∧
      (run govern start window).epochOf 0 = 68 := by
  have budget := egress_budget 1 .budgetMobile [.registerClient 0]
    [.tick lonelyServer, .tick lonelyServer] 0 (by
      intro event mem
      rcases mem_cons.mp mem with rfl | mem
      · exact nofun
      rw [mem_singleton.mp mem]
      exact nofun)
  refine ⟨by decide +kernel, budget.1, by decide +kernel⟩

end GovernorEvent

end Eidolon.Server
