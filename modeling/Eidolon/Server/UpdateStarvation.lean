import Eidolon.Server.StateUpdates

/-!
# Whether a player is told anything

Records are admitted one by one against the tokens that a datagram has not been taken from
yet, and a datagram is sent only as a whole.  While nothing is sent, full datagrams are
dropped, so that what decides is whether the tokens pay for the last one.
-/

namespace Eidolon.Net

open Library List

theorem ofNat_le_iff {bytes : Nat} (small : bytes < 2 ^ 32) (tokens : UInt32) :
    UInt32.ofNat bytes ≤ tokens ↔ bytes ≤ tokens.toNat := by
  rw [UInt32.le_iff_toNat_le, UInt32.toNat_ofNat_of_lt' small]

namespace ClientTokenBucket

variable {bucket : ClientTokenBucket} {bytes : Nat}

theorem consume_of_le (small : bytes < 2 ^ 32) (enough : bytes ≤ bucket.tokens.toNat) :
    (bucket.consume bytes).1 = true := by
  rw [consume, if_pos ((ofNat_le_iff small _).mpr enough)]

theorem consume_of_lt (small : bytes < 2 ^ 32) (short : bucket.tokens.toNat < bytes) :
    bucket.consume bytes = (false, bucket) := by
  rw [consume, if_neg fun pays => Nat.not_le.mpr short ((ofNat_le_iff small _).mp pays)]

end ClientTokenBucket

namespace BandwidthGovernor

variable {governor : BandwidthGovernor} {client : UInt32} {bucket : ClientTokenBucket}
  {bytes : Nat}

theorem lt_of_bucketOf (found : governor.bucketOf client = some bucket) :
    client.toNat < governor.buckets.length := by
  unfold bucketOf at found
  split at found
  · exact (List.getElem?_eq_some_iff.mp found).1
  cases found

theorem profile_consume (governor : BandwidthGovernor) (client : UInt32) (bytes : Nat) :
    (governor.consume client bytes).2.profile = governor.profile := by
  unfold consume
  split <;> rfl

theorem bucketOf_consume (found : governor.bucketOf client = some bucket) (bytes : Nat) :
    (governor.consume client bytes).2.bucketOf client = some (bucket.consume bytes).2 := by
  have inside := lt_of_bucketOf found
  have isActive : governor.active.getD client.toNat false = true := by
    unfold bucketOf at found
    split at found
    · assumption
    cases found
  unfold consume
  rw [found]
  change (if governor.active.getD client.toNat false then _ else none) = _
  rw [if_pos isActive, getElem?_set_self inside]

theorem bucketOf_consume_of_ne {other : UInt32} (different : other ≠ client) (bytes : Nat) :
    (governor.consume client bytes).2.bucketOf other = governor.bucketOf other := by
  have apart : client.toNat ≠ other.toNat := fun same => different (UInt32.toNat_inj.mp same).symm
  unfold consume
  split
  · rfl
  change (if governor.active.getD other.toNat false then _ else none) = _
  rw [getElem?_set_ne apart]
  rfl

theorem consume_fst (found : governor.bucketOf client = some bucket) (bytes : Nat) :
    (governor.consume client bytes).1 = (bucket.consume bytes).1 := by
  unfold consume
  rw [found]

end BandwidthGovernor

end Eidolon.Net

namespace Eidolon.Server

open Core Library List Net Spatial World

def recordsPerPacket : Nat := 54

def lastRecords (admitted : Nat) : Nat :=
  (admitted - 1) % recordsPerPacket + 1

theorem lastRecords_le (admitted : Nat) : lastRecords admitted ≤ recordsPerPacket :=
  Nat.succ_le_of_lt (Nat.mod_lt _ (by decide))

theorem lastRecords_of_le {admitted : Nat} (some : 0 < admitted)
    (few : admitted ≤ recordsPerPacket) : lastRecords admitted = admitted := by
  unfold lastRecords
  rw [Nat.mod_eq_of_lt (by omega)]
  omega

theorem lastRecords_add {admitted : Nat} (some : 0 < admitted) :
    lastRecords (recordsPerPacket + admitted) = lastRecords admitted := by
  unfold lastRecords
  rw [show recordsPerPacket + admitted - 1 = admitted - 1 + recordsPerPacket by omega,
    Nat.add_mod_right]

structure SameFor (client : UInt32) (governor other : BandwidthGovernor) : Prop where
  bucket : other.bucketOf client = governor.bucketOf client
  profile : other.profile = governor.profile

theorem SameFor.refl (client : UInt32) (governor : BandwidthGovernor) :
    SameFor client governor governor :=
  ⟨rfl, rfl⟩

theorem SameFor.trans {client : UInt32} {first second third : BandwidthGovernor}
    (left : SameFor client first second) (right : SameFor client second third) :
    SameFor client first third :=
  ⟨right.bucket.trans left.bucket, right.profile.trans left.profile⟩

theorem SameFor.shouldAdmitTier {client : UInt32} {governor other : BandwidthGovernor}
    (same : SameFor client governor other) (tierIndex : UInt8) (bytes : Nat) :
    other.shouldAdmitTier client tierIndex bytes =
      governor.shouldAdmitTier client tierIndex bytes := by
  unfold BandwidthGovernor.shouldAdmitTier
  rw [same.bucket, same.profile]

namespace UpdateWriter

variable {writer : UpdateWriter} {client : UInt32} {bucket : ClientTokenBucket}

theorem sameFor_flush_of_ne {other : UInt32} (different : other ≠ client) :
    SameFor other writer.governor (writer.flush client).governor := by
  unfold flush
  split
  · exact SameFor.refl other writer.governor
  exact ⟨BandwidthGovernor.bucketOf_consume_of_ne different _,
    BandwidthGovernor.profile_consume _ _ _⟩

theorem flush_of_paid (found : writer.governor.bucketOf client = some bucket)
    (written : writer.records ≠ []) (small : headerSize + writer.records.length < 2 ^ 32)
    (enough : headerSize + writer.records.length ≤ bucket.tokens.toNat) :
    (writer.flush client).sent = writer.sent ++ [writer.header.encoded ++ writer.records] := by
  have paid : (writer.governor.consume client (headerSize + writer.records.length)).1 = true :=
    (BandwidthGovernor.consume_fst found _).trans (ClientTokenBucket.consume_of_le small enough)
  unfold flush
  rw [if_neg written]
  dsimp only
  rw [if_pos paid]

theorem flush_of_unpaid (found : writer.governor.bucketOf client = some bucket)
    (small : headerSize + writer.records.length < 2 ^ 32)
    (short : bucket.tokens.toNat < headerSize + writer.records.length) :
    (writer.flush client).sent = writer.sent ∧
      SameFor client writer.governor (writer.flush client).governor := by
  have unpaid := ClientTokenBucket.consume_of_lt small short
  unfold flush
  split
  · exact ⟨rfl, SameFor.refl client writer.governor⟩
  have refused := BandwidthGovernor.consume_fst found (headerSize + writer.records.length)
  rw [unpaid] at refused
  refine ⟨if_neg (Bool.eq_false_iff.mp refused), ?_, BandwidthGovernor.profile_consume _ _ _⟩
  rw [found]
  exact (BandwidthGovernor.bucketOf_consume found _).trans (by rw [unpaid])

theorem sent_flush (writer : UpdateWriter) (client : UInt32) :
    ∃ packets, (writer.flush client).sent = writer.sent ++ packets := by
  unfold flush
  split
  · exact ⟨[], (append_nil _).symm⟩
  dsimp only
  split
  · exact ⟨_, rfl⟩
  exact ⟨[], (append_nil _).symm⟩

end UpdateWriter

namespace EidolonApp

variable {Peer : Type} {app : EidolonApp Peer Mobile AoiWorld}
  {player : ServerEntity Peer Mobile}

variable {governor : BandwidthGovernor}

theorem admittedTarget_of_sameFor {other : BandwidthGovernor}
    (same : SameFor player.id governor other) (visibleId : UInt32) :
    app.admittedTarget other player visibleId = app.admittedTarget governor player visibleId := by
  unfold admittedTarget
  split
  · rfl
  rcases KeyedList.find ServerEntity.id app.entities visibleId with _ | target
  · rfl
  dsimp only
  rw [same.shouldAdmitTier]

theorem sent_writeUpdates (visible : List UInt32) (writer : UpdateWriter) :
    ∃ packets, (app.writeUpdates player visible writer).sent = writer.sent ++ packets := by
  induction visible generalizing writer with
  | nil => exact ⟨[], (append_nil _).symm⟩
  | cons visibleId rest ih =>
    rw [writeUpdates]
    rcases app.admittedTarget writer.governor player visibleId with _ | target
    · exact ih writer
    dsimp only
    split
    · rcases writer.sent_flush player.id with ⟨packets, flushed⟩
      split
      · rcases ih ((writer.flush player.id).next
          (updateRecord target.id target.body)) with ⟨more, later⟩
        refine ⟨packets ++ more, later.trans ?_⟩
        change (writer.flush player.id).sent ++ more = _
        rw [flushed, append_assoc]
      exact ⟨packets, flushed⟩
    exact ih (writer.write (updateRecord target.id target.body))

def admittedIds (app : EidolonApp Peer Mobile AoiWorld) (governor : BandwidthGovernor)
    (player : ServerEntity Peer Mobile) (visible : List UInt32) : List UInt32 :=
  visible.filter fun visibleId => (app.admittedTarget governor player visibleId).isSome

theorem admittedIds_cons_of_none {visibleId : UInt32}
    (refused : app.admittedTarget governor player visibleId = none) (rest : List UInt32) :
    app.admittedIds governor player (visibleId :: rest) = app.admittedIds governor player rest := by
  unfold admittedIds
  rw [filter_cons_of_neg]
  rw [refused]
  exact Bool.false_ne_true

theorem length_admittedIds_cons_of_some {visibleId : UInt32} {target : ServerEntity Peer Mobile}
    (admitted : app.admittedTarget governor player visibleId = some target) (rest : List UInt32) :
    (app.admittedIds governor player (visibleId :: rest)).length =
      (app.admittedIds governor player rest).length + 1 := by
  unfold admittedIds
  rw [filter_cons_of_pos, length_cons]
  rw [admitted]
  rfl

theorem sent_ne_nil_of_sent {visible : List UInt32} {writer : UpdateWriter}
    (sent : writer.sent ≠ []) :
    ((app.writeUpdates player visible writer).flush player.id).sent ≠ [] := by
  rcases app.sent_writeUpdates visible writer with ⟨packets, written⟩
  rcases (app.writeUpdates player visible writer).sent_flush player.id with ⟨more, flushed⟩
  rw [flushed, written, append_assoc]
  intro none
  exact sent (append_eq_nil_iff.mp none).1

/-- With nothing sent yet, the records so far are sent exactly if there are any and they are
paid for. -/
theorem sent_flush_iff {writer : UpdateWriter} {bucket : ClientTokenBucket}
    (found : writer.governor.bucketOf player.id = some bucket) (unsent : writer.sent = [])
    {records : Nat} (written : writer.records.length = 22 * records) (few : records ≤ 54) :
    (writer.flush player.id).sent ≠ [] ↔
      0 < records ∧ headerSize + recordLen * lastRecords records ≤ bucket.tokens.toNat := by
  by_cases none : records = 0
  · have empty : writer.records = [] := eq_nil_of_length_eq_zero (by omega)
    refine iff_of_false (not_not.mpr ?_) (by omega)
    rw [UpdateWriter.flush, if_pos empty]
    exact unsent
  have positive : 0 < records := Nat.pos_of_ne_zero none
  have notEmpty : writer.records ≠ [] := by
    intro empty
    rw [empty, length_nil] at written
    omega
  rw [lastRecords_of_le positive few, and_iff_right positive]
  by_cases enough : 12 + 22 * records ≤ bucket.tokens.toNat
  · refine iff_of_true ?_ enough
    rw [UpdateWriter.flush_of_paid found notEmpty (by unfold headerSize; omega)
      (by unfold headerSize; omega)]
    exact append_ne_nil_of_right_ne_nil _ (cons_ne_nil _ _)
  refine iff_of_false (not_not.mpr ?_) enough
  rw [(UpdateWriter.flush_of_unpaid found (by unfold headerSize; omega)
    (by unfold headerSize; omega)).1]
  exact unsent

/-- With nothing sent yet, something will be sent exactly if the last datagram is paid
for by the tokens that are there now. -/
theorem sent_flush_writeUpdates_iff {governor : BandwidthGovernor} {bucket : ClientTokenBucket}
    (found : governor.bucketOf player.id = some bucket)
    (room : headerSize + recordLen ≤ bucket.tokens.toNat) (visible : List UInt32)
    (writer : UpdateWriter) (same : SameFor player.id governor writer.governor)
    (unsent : writer.sent = []) (records : Nat)
    (written : writer.records.length = recordLen * records) (few : records ≤ recordsPerPacket) :
    ((app.writeUpdates player visible writer).flush player.id).sent ≠ [] ↔
      0 < records + (app.admittedIds governor player visible).length ∧ headerSize + recordLen *
            lastRecords (records + (app.admittedIds governor player visible).length) ≤
          bucket.tokens.toNat := by
  have hasBucket : ∀ other, SameFor player.id governor other →
      other.bucketOf player.id = some bucket :=
    fun other same => same.bucket.trans found
  unfold recordsPerPacket at few
  unfold recordLen at written
  induction visible generalizing writer records with
  | nil => exact sent_flush_iff (hasBucket _ same) unsent written few
  | cons visibleId rest ih =>
    rw [writeUpdates]
    rcases admitted : app.admittedTarget governor player visibleId with _ | target
    · rw [admittedTarget_of_sameFor same, admitted, admittedIds_cons_of_none admitted]
      exact ih writer same unsent records written few
    rw [admittedTarget_of_sameFor same, admitted, length_admittedIds_cons_of_some admitted]
    have recordLength : (updateRecord target.id target.body).length = 22 :=
      length_updateRecord target.id target.body
    dsimp only
    split
    · rename_i full
      unfold maxPacketSize headerSize recordLen at full
      have isFull : records = recordsPerPacket := by
        unfold recordsPerPacket
        omega
      subst isFull
      have notEmpty : writer.records ≠ [] := by
        intro empty
        rw [empty] at written
        exact absurd written (by decide)
      have long : headerSize + writer.records.length = 1200 := by
        rw [written]
        rfl
      by_cases enough : 1200 ≤ bucket.tokens.toNat
      · have flushed := UpdateWriter.flush_of_paid (hasBucket _ same) notEmpty (by omega) (by omega)
        have nonempty : (writer.flush player.id).sent ≠ [] := by
          rw [flushed]
          exact append_ne_nil_of_right_ne_nil _ (cons_ne_nil _ _)
        refine iff_of_true ?_ ⟨by omega, ?_⟩
        · split
          · exact sent_ne_nil_of_sent nonempty
          exact @sent_ne_nil_of_sent _ app player [] _ nonempty
        have bound := lastRecords_le
          (recordsPerPacket + ((app.admittedIds governor player rest).length + 1))
        unfold recordsPerPacket at bound
        unfold headerSize recordLen
        unfold recordsPerPacket
        omega
      rcases UpdateWriter.flush_of_unpaid (hasBucket _ same) (by omega)
        (by omega) with ⟨flushed, sameFlushed⟩
      have stillSame := same.trans sameFlushed
      have affords : (writer.flush player.id).governor.canSend player.id
          (headerSize + recordLen) = true := by
        rw [BandwidthGovernor.canSend, hasBucket _ stillSame, Option.any_some,
          ClientTokenBucket.canSend, decide_eq_true_iff]
        exact room
      rw [if_pos affords, Nat.add_comm _ 1, lastRecords_add (by omega)]
      refine (ih ((writer.flush player.id).next
        (updateRecord target.id target.body)) stillSame (flushed.trans unsent) 1
        recordLength (by decide)).trans ?_
      exact and_congr_left fun _ => iff_of_true (by omega) (by omega)
    rename_i fits
    unfold maxPacketSize headerSize recordLen at fits
    have length : (writer.write (updateRecord target.id target.body)).records.length =
        22 * (records + 1) := by
      rw [UpdateWriter.write, length_append]
      omega
    rw [Nat.add_comm _ 1, ← Nat.add_assoc]
    exact ih (writer.write (updateRecord target.id target.body)) same
      unsent (records + 1) length (by omega)

def admittedAtStart (app : EidolonApp Peer Mobile AoiWorld)
    (player : ServerEntity Peer Mobile) : List UInt32 :=
  app.admittedIds app.world.bandwidthGovernor.tick player (app.visibleIds player.body.position)

def tokensAtStart (app : EidolonApp Peer Mobile AoiWorld)
    (player : ServerEntity Peer Mobile) : Nat :=
  (app.world.bandwidthGovernor.tick.availableTokens player.id).toNat

theorem sameFor_writeUpdates {other : UInt32} (different : other ≠ player.id)
    (visible : List UInt32) (writer : UpdateWriter) :
    SameFor other writer.governor (app.writeUpdates player visible writer).governor := by
  induction visible generalizing writer with
  | nil => exact SameFor.refl other writer.governor
  | cons visibleId rest ih =>
    rw [writeUpdates]
    rcases app.admittedTarget writer.governor player visibleId with _ | target
    · exact ih writer
    dsimp only
    split
    · have flushed := @UpdateWriter.sameFor_flush_of_ne writer player.id other different
      split
      · exact flushed.trans (ih ((writer.flush player.id).next
          (updateRecord target.id target.body)))
      exact flushed
    exact ih (writer.write (updateRecord target.id target.body))

theorem sameFor_playerUpdates {other : UInt32} (different : other ≠ player.id)
    (governor : BandwidthGovernor) :
    SameFor other governor (app.playerUpdates governor player).1 := by
  unfold playerUpdates
  generalize app.visibleIds player.body.position = visible
  exact (sameFor_writeUpdates different visible
    (UpdateWriter.start governor app.world.currentTick)).trans
      (UpdateWriter.sameFor_flush_of_ne different)

/-- In its turn a player is sent something exactly if the tokens pay for the last
datagram. -/
theorem playerUpdates_ne_nil_iff {other : BandwidthGovernor} {bucket : ClientTokenBucket}
    (found : governor.bucketOf player.id = some bucket)
    (room : headerSize + recordLen ≤ bucket.tokens.toNat) (same : SameFor player.id governor other) :
    (app.playerUpdates other player).2 ≠ [] ↔
      0 < (app.admittedIds governor player (app.visibleIds player.body.position)).length ∧
        headerSize + recordLen * lastRecords
            (app.admittedIds governor player (app.visibleIds player.body.position)).length ≤
          bucket.tokens.toNat := by
  unfold playerUpdates
  generalize app.visibleIds player.body.position = visible
  have turn := @sent_flush_writeUpdates_iff _ app player _ _ found room visible
    (UpdateWriter.start other app.world.currentTick) same rfl 0 rfl (Nat.zero_le _)
  rw [Nat.zero_add] at turn
  exact turn

theorem fst_observe (state : BandwidthGovernor × List (StateDatagram Peer))
    (observer : ServerEntity Peer Mobile × Peer) :
    (app.observe state observer).1 = (app.playerUpdates state.1 observer.1).1 := by
  unfold observe
  dsimp only

theorem mem_observe_iff {state : BandwidthGovernor × List (StateDatagram Peer)}
    {observer : ServerEntity Peer Mobile × Peer} {datagram : StateDatagram Peer} :
    datagram ∈ (app.observe state observer).2 ↔
      datagram ∈ state.2 ∨ ∃ bytes ∈ (app.playerUpdates state.1 observer.1).2,
        ⟨observer.1.id, observer.2, bytes⟩ = datagram := by
  unfold observe
  rw [mem_append, mem_map]

theorem mem_foldl_observe_iff_of_absent {datagram : StateDatagram Peer}
    (observers : List (ServerEntity Peer Mobile × Peer))
    (absent : ∀ observer ∈ observers, observer.1.id ≠ datagram.player)
    (state : BandwidthGovernor × List (StateDatagram Peer)) :
    datagram ∈ (observers.foldl app.observe state).2 ↔ datagram ∈ state.2 := by
  induction observers generalizing state with
  | nil => exact Iff.rfl
  | cons observer rest ih =>
    rw [foldl_cons, ih (fun other there => absent other (mem_cons_of_mem observer there)),
      mem_observe_iff]
    refine or_iff_left ?_
    intro sent
    rcases sent with ⟨bytes, _, rfl⟩
    exact absent observer mem_cons_self rfl

theorem sent_foldl_observe_iff {peer : Peer} {sends : Prop}
    (turn : ∀ other, SameFor player.id governor other →
      ((app.playerUpdates other player).2 ≠ [] ↔ sends))
    (observers : List (ServerEntity Peer Mobile × Peer))
    (distinct : (observers.map fun observer => observer.1.id).Nodup)
    (here : (player, peer) ∈ observers) (state : BandwidthGovernor × List (StateDatagram Peer))
    (same : SameFor player.id governor state.1)
    (unsent : ∀ datagram ∈ state.2, datagram.player ≠ player.id) :
    (∃ bytes, ⟨player.id, peer, bytes⟩ ∈ (observers.foldl app.observe state).2) ↔ sends := by
  induction observers generalizing state with
  | nil => cases here
  | cons observer rest ih =>
    rw [foldl_cons]
    rw [map_cons, nodup_cons] at distinct
    rcases distinct with ⟨different, restDistinct⟩
    rcases mem_cons.mp here with isObserver | there
    · subst isObserver
      have absent : ∀ other ∈ rest, other.1.id ≠ player.id := fun other otherThere same =>
        different (mem_map.mpr ⟨other, otherThere, same⟩)
      refine Iff.trans ?_ (turn state.1 same)
      constructor
      · intro sent
        rcases sent with ⟨bytes, sent⟩
        rw [mem_foldl_observe_iff_of_absent rest absent, mem_observe_iff] at sent
        rcases sent with before | ⟨packet, inTurn, _⟩
        · exact absurd rfl (unsent _ before)
        exact ne_nil_of_mem inTurn
      intro notEmpty
      rcases exists_mem_of_ne_nil _ notEmpty with ⟨bytes, inTurn⟩
      refine ⟨bytes, ?_⟩
      rw [mem_foldl_observe_iff_of_absent rest absent, mem_observe_iff]
      exact Or.inr ⟨bytes, inTurn, rfl⟩
    have other : player.id ≠ observer.1.id := fun same =>
      different (mem_map.mpr ⟨(player, peer), there, same⟩)
    have after := same.trans (@sameFor_playerUpdates _ app observer.1 _ other state.1)
    rw [← fst_observe] at after
    refine ih restDistinct there (app.observe state observer) after ?_
    intro datagram sent
    rcases mem_observe_iff.mp sent with before | ⟨bytes, _, rfl⟩
    · exact unsent datagram before
    exact Ne.symm other

theorem ids_filterMap_sublist (entities : List (ServerEntity Peer Mobile)) :
    ((entities.filterMap fun entity => entity.peerAddr.map fun peer => (entity, peer)).map
      fun observer => observer.1.id).Sublist (entities.map ServerEntity.id) := by
  induction entities with
  | nil => exact List.Sublist.slnil
  | cons entity rest ih =>
    rcases connected : entity.peerAddr with _ | peer
    · rw [filterMap_cons_none (by rw [connected]; rfl)]
      exact ih.cons _
    rw [filterMap_cons_some (by rw [connected]; rfl)]
    exact ih.cons_cons _

/-- A connected player with tokens for one record, of whose visible entities some are
admitted, is sent an update exactly if its tokens pay for the last datagram. -/
theorem update_sent_iff (app : EidolonApp Peer Mobile AoiWorld) (player : ServerEntity Peer Mobile)
    (peer : Peer) (distinct : (app.entities.map ServerEntity.id).Nodup)
    (connected : player ∈ app.entities ∧ player.peerAddr = some peer)
    (room : headerSize + recordLen ≤ app.tokensAtStart player)
    (admitted : app.admittedAtStart player ≠ []) :
    (∃ bytes, ⟨player.id, peer, bytes⟩ ∈ app.broadcastAoiUpdates.2) ↔
      headerSize + recordLen * lastRecords (app.admittedAtStart player).length ≤
        app.tokensAtStart player := by
  have observed : (player, peer) ∈ app.observers :=
    mem_filterMap.mpr ⟨player, connected.1, by rw [connected.2]; rfl⟩
  unfold tokensAtStart BandwidthGovernor.availableTokens at room ⊢
  rcases found : app.world.bandwidthGovernor.tick.bucketOf player.id with _ | bucket
  · rw [found] at room
    exact absurd room (by decide)
  rw [found] at room
  refine sent_foldl_observe_iff ?_ app.observers 
    (distinct.sublist (ids_filterMap_sublist app.entities)) observed
    (app.world.bandwidthGovernor.tick, []) (SameFor.refl _ _)
    (fun datagram none => by cases none)
  intro other same
  refine (playerUpdates_ne_nil_iff found room same).trans ?_
  exact and_iff_right (length_pos_of_ne_nil admitted)

/-- So many entities stand in one place; the first one is a player. -/
private def bystander (index : Nat) : ServerEntity UInt16 Mobile where
  id := UInt32.ofNat index
  equipment := EquipmentContainer.new
  peerAddr := if index = 0 then some 4001 else none
  accountId := none
  sessionId := none
  body := ⟨(Vec3Fix.fromI32 0 0 0), (Vec3Fix.fromI32 0 0 0), QuantizedYaw.fromByte 0, 0⟩

private def crowd (count : Nat) : EidolonApp UInt16 Mobile AoiWorld where
  entities := (List.range count).map bystander
  accounts := ∅
  serverSecret := []
  serverNonce := FixedBytes.replicate nonceLen 0x55
  world :=
    { spatialGrid := (List.range count).foldl
        (fun grid index => (grid.insert (UInt32.ofNat index) (Vec3Fix.fromI32 0 0 0)).2)
        (SpatialHashGrid.withCapacity 16 2048)
      interiorCells := ∅
      densityProfile := .budgetMobile
      bandwidthGovernor := (BandwidthGovernor.new 16 .budgetMobile).registerClient 0
      currentTick := 0 }

theorem update_sent_iff_alone : ∃ bytes, ⟨0, 4001, bytes⟩ ∈ (crowd 1).broadcastAoiUpdates.2 := by
  refine (update_sent_iff (crowd 1) (bystander 0) 4001 ?_ ⟨?_, rfl⟩ ?_ ?_).mpr ?_
  · decide +kernel
  · exact mem_map_of_mem (mem_range.mpr Nat.zero_lt_one)
  · decide +kernel
  · intro none
    have count := congrArg List.length none
    revert count
    decide +kernel
  decide +kernel

/-- A player with a full bucket among seven others is sent nothing: the datagram of eight
records takes 188 bytes, and the bucket of a mobile player holds 180. -/
theorem not_update_sent_crowd : ((crowd 8).entities.map ServerEntity.id).Nodup ∧
      (bystander 0 ∈ (crowd 8).entities ∧ (bystander 0).peerAddr = some 4001) ∧
        headerSize + recordLen ≤ (crowd 8).tokensAtStart (bystander 0) ∧
          (crowd 8).admittedAtStart (bystander 0) ≠ [] ∧
            ¬ ∃ bytes, ⟨0, 4001, bytes⟩ ∈ (crowd 8).broadcastAoiUpdates.2 := by
  refine ⟨?_, ⟨?_, rfl⟩, ?_, ?_, ?_⟩
  · decide +kernel
  · exact mem_map_of_mem (mem_range.mpr (by decide))
  · decide +kernel
  · intro none
    have count := congrArg List.length none
    revert count
    decide +kernel
  intro sent
  rcases sent with ⟨bytes, there⟩
  have silent : (crowd 8).broadcastAoiUpdates.2.length = 0 := by
    decide +kernel
  rw [eq_nil_of_length_eq_zero silent] at there
  cases there

end EidolonApp

end Eidolon.Server
