import Eidolon.Library.Run
import Eidolon.Server.Continental

/-!
# Replication of migration tokens

A source that issues and consumes tokens, and a target that learns of them over a network
which loses, delays and repeats datagrams.  What the target keeps is what the source
issued, and consumed there is consumed here, as long as no announcement arrives after the
commitment that it precedes.
-/

namespace Eidolon.World

open Library List Option

namespace PredictiveSeamPredictor

variable {predictor : PredictiveSeamPredictor}

variable {token : PredictiveMigrationPreAuth} {currentTick : UInt64}

theorem mem_storeToken {slot : Option PredictiveMigrationPreAuth}
    (stored : slot ∈ (predictor.storeToken token currentTick).tokens) :
    slot = some token ∨ slot ∈ predictor.tokens := by
  unfold storeToken at stored
  dsimp only at stored
  split at stored
  · exact KeyedList.mem_of_mem_replace stored
  split at stored
  · exact KeyedList.mem_of_mem_replace stored
  exact (mem_or_eq_of_mem_set stored).symm

theorem mem_of_activeToken {entityId targetShard : UInt32}
    (found : predictor.activeToken entityId targetShard currentTick = some token) :
    some token ∈ predictor.tokens ∧ token.isConsumed = false := by
  rcases exists_of_findSome?_eq_some found with ⟨slot, stored, active⟩
  rw [filter_eq_some_iff] at active
  rcases active with ⟨held, isActive⟩
  rw [held] at stored
  refine ⟨stored, ?_⟩
  rw [PredictiveMigrationPreAuth.isActiveFor] at isActive
  simp only [Bool.and_eq_true, Bool.not_eq_true'] at isActive
  exact isActive.1.2

theorem mem_of_mem_purgeExpired (stored : some token ∈ (predictor.purgeExpired currentTick).tokens) :
    some token ∈ predictor.tokens := by
  rcases mem_map.mp stored with ⟨slot, wasStored, kept⟩
  rw [filter_eq_some_iff] at kept
  rw [← kept.1]
  exact wasStored

/-- The identifier that a new token would get is not in use, if a new one is needed. -/
def IssuesFresh (predictor : PredictiveSeamPredictor) (used : UInt64 → Prop)
    (entityId : UInt32) (crossed : Option (Core.GlobalCoord × UInt32))
    (currentTick : UInt64) : Prop :=
  ∀ projected targetShard, crossed = some (projected, targetShard) →
    predictor.activeToken entityId targetShard currentTick = none → ¬ used predictor.nextTokenId

theorem evaluateAndPreAuthenticate_cases (predictor : PredictiveSeamPredictor)
    (entityId : UInt32) (coord : Core.GlobalCoord) (velocity : Core.Vec3Fix)
    (sourceShard : UInt32) (shardManager : AdaptiveShardManager) (currentTick : UInt64) :
    let crossed := crossing coord velocity sourceShard shardManager
    predictor.evaluateAndPreAuthenticate entityId coord velocity sourceShard shardManager
        currentTick = (predictor, none) ∨
      (∃ token, some token ∈ predictor.tokens ∧ token.isConsumed = false ∧
        predictor.evaluateAndPreAuthenticate entityId coord velocity sourceShard shardManager
          currentTick = (predictor, some token)) ∨
        ∃ projected targetShard, crossed = some (projected, targetShard) ∧
          predictor.activeToken entityId targetShard currentTick = none ∧
            predictor.evaluateAndPreAuthenticate entityId coord velocity sourceShard
                shardManager currentTick =
              ({ predictor.storeToken (predictor.newToken entityId projected sourceShard
                  targetShard currentTick) currentTick with
                nextTokenId := predictor.nextTokenId + 1 },
                some (predictor.newToken entityId projected sourceShard targetShard
                  currentTick)) := by
  intro crossed
  unfold evaluateAndPreAuthenticate
  rcases there : crossing coord velocity sourceShard shardManager with _ | ⟨projected, targetShard⟩
  · exact .inl rfl
  cases found : predictor.activeToken entityId targetShard currentTick with
  | some token =>
    rcases mem_of_activeToken found with ⟨stored, unused⟩
    refine .inr (.inl ⟨token, stored, unused, ?_⟩)
    simp only [found]
  | none =>
    refine .inr (.inr ⟨projected, targetShard, there, found, ?_⟩)
    simp only [found]

theorem validateAndConsume_cases (predictor : PredictiveSeamPredictor) (tokenId : UInt64)
    (entityId targetShard : UInt32) (currentTick : UInt64) :
    (∃ error, predictor.validateAndConsume tokenId entityId targetShard currentTick =
      (.error error, predictor)) ∨
    ∃ token changed, some token ∈ predictor.tokens ∧ token.tokenId = tokenId ∧
      predictor.validateAndConsume tokenId entityId targetShard currentTick =
        (.ok { token with isConsumed := true }, changed) ∧
      changed.tokenTtlTicks = predictor.tokenTtlTicks ∧
      ∀ slot ∈ changed.tokens,
        slot = some { token with isConsumed := true } ∨ slot ∈ predictor.tokens := by
  unfold validateAndConsume
  rcases found : KeyedList.find slotId predictor.tokens (some tokenId) with _ | slot
  · exact .inl ⟨_, rfl⟩
  rcases slot with _ | token
  · exact .inl ⟨_, rfl⟩
  dsimp only
  split
  · exact .inl ⟨_, rfl⟩
  split
  · exact .inl ⟨_, rfl⟩
  split
  · exact .inl ⟨_, rfl⟩
  have named : slotId (some token) = some tokenId :=
    KeyedList.key_of_find found
  exact .inr ⟨token, _, KeyedList.mem_of_find found, some.inj named,
    rfl, rfl, fun slot stored => KeyedList.mem_of_mem_replace stored⟩

end PredictiveSeamPredictor

end Eidolon.World

namespace Eidolon.Server

open Core Library List Option World

universe u

theorem readU64_of_laidOut {bytes before after : List UInt8} {value : UInt64}
    (laidOut : bytes = before ++ (bigEndian 8 value.toNat ++ after)) {offset : Nat}
    (place : before.length = offset) : readU64 bytes offset = value := by
  rw [readU64, take_drop_bigEndian laidOut place, ofBigEndian_bigEndian value.toNat_lt,
    UInt64.ofNat_toNat]

theorem readU32_of_laidOut {bytes before after : List UInt8} {value : UInt32}
    (laidOut : bytes = before ++ (bigEndian 4 value.toNat ++ after)) {offset : Nat}
    (place : before.length = offset) : readU32 bytes offset = value := by
  rw [readU32, take_drop_bigEndian laidOut place, ofBigEndian_bigEndian value.toNat_lt,
    UInt32.ofNat_toNat]

theorem readI32_of_laidOut {bytes before after : List UInt8} {value : Int32}
    (laidOut : bytes = before ++ (bigEndian 4 value.toUInt32.toNat ++ after)) {offset : Nat}
    (place : before.length = offset) : readI32 bytes offset = value := by
  rw [readI32, readU32_of_laidOut laidOut place]
  exact Int32.toInt32_toUInt32 value

theorem readU64_preAuthPacket (entityId : UInt32) (token : PredictiveMigrationPreAuth) :
    readU64 (preAuthPacket entityId token).payload 0 = token.tokenId :=
  @readU64_of_laidOut _ [] _ token.tokenId rfl 0 rfl

theorem readPreAuth_preAuthPacket (entityId : UInt32) (token : PredictiveMigrationPreAuth) :
    readPreAuth (preAuthPacket entityId token).payload =
      (checkedAdd64 token.issuedTick 30).map fun expiryTick =>
        { token with expiryTick := expiryTick, isConsumed := false } := by
  let payload := (preAuthPacket entityId token).payload
  let first := bigEndian 8 token.tokenId.toNat
  let second := first ++ bigEndian 4 token.entityId.toNat
  let third := second ++ bigEndian 4 token.sourceShard.toNat
  let fourth := third ++ bigEndian 4 token.targetShard.toNat
  let fifth := fourth ++ bigEndian 4 token.targetSectorX.toUInt32.toNat
  let sixth := fifth ++ bigEndian 4 token.targetSectorZ.toUInt32.toNat
  have secondLength : second.length = 12 := by
    simp only [second, first, length_append, length_bigEndian]
  have thirdLength : third.length = 16 := by
    simp only [third, length_append, length_bigEndian, secondLength]
  have fourthLength : fourth.length = 20 := by
    simp only [fourth, length_append, length_bigEndian, thirdLength]
  have fifthLength : fifth.length = 24 := by
    simp only [fifth, length_append, length_bigEndian, fourthLength]
  have sixthLength : sixth.length = 28 := by
    simp only [sixth, length_append, length_bigEndian, fifthLength]
  have afterSixth : payload = sixth ++
      (bigEndian 8 token.issuedTick.toNat ++ bigEndian 8 token.expiryTick.toNat) := by
    simp only [payload, preAuthPacket, sixth, fifth, fourth, third, second, first, append_assoc]
  have afterFifth := afterSixth.trans (append_assoc fifth _ _)
  have afterFourth := afterFifth.trans (append_assoc fourth _ _)
  have afterThird := afterFourth.trans (append_assoc third _ _)
  have afterSecond := afterThird.trans (append_assoc second _ _)
  have afterFirst := afterSecond.trans (append_assoc first _ _)
  have tokenId : readU64 payload 0 = token.tokenId := readU64_preAuthPacket entityId token
  have entity : readU32 payload 8 = token.entityId :=
    readU32_of_laidOut afterFirst (length_bigEndian 8 _)
  have sourceShard : readU32 payload 12 = token.sourceShard :=
    readU32_of_laidOut afterSecond secondLength
  have targetShard : readU32 payload 16 = token.targetShard :=
    readU32_of_laidOut afterThird thirdLength
  have sectorX : readI32 payload 20 = token.targetSectorX :=
    readI32_of_laidOut afterFourth fourthLength
  have sectorZ : readI32 payload 24 = token.targetSectorZ :=
    readI32_of_laidOut afterFifth fifthLength
  have issuedTick : readU64 payload 28 = token.issuedTick :=
    readU64_of_laidOut afterSixth sixthLength
  rw [readPreAuth, tokenId, entity, sourceShard, targetShard, sectorX, sectorZ, issuedTick]

theorem readU64_commitPacket (tokenId : UInt64) (entityId : UInt32) :
    readU64 (commitPacket tokenId entityId).payload 0 = tokenId :=
  @readU64_of_laidOut _ [] _ tokenId rfl 0 rfl

/-- The two workers, the datagrams sent to the target so far, the tokens that the source
has issued and the identifiers of those whose consumption it has accepted. -/
structure PreAuthReplication (Address : Type u) where
  source : ContinentalOrchestrator Address
  target : ContinentalOrchestrator Address
  targetAddr : Address
  network : List (List UInt8)
  issued : List PredictiveMigrationPreAuth
  accepted : List UInt64

/-- An operation of the source, or the arrival of a datagram at the target. -/
inductive ReplicationEvent where
  | evaluate (entityId : UInt32) (coord : GlobalCoord) (velocity : Vec3Fix)
  | commit (tokenId : UInt64) (entityId targetShard : UInt32)
  | stepTick (currentTick : UInt64) (sectorOrder : List (Int32 × Int32))
      (nodeOrder : List UInt32)
  | deliver (index : Nat)

def acceptedBy (tokenId : UInt64) : Except WorldError PredictiveMigrationPreAuth → List UInt64
  | .ok _ => [tokenId]
  | .error _ => []

namespace PreAuthReplication

variable {Address : Type u} [DecidableEq Address] (system : PreAuthReplication Address)

def reaching (sent : List (Address × List UInt8)) : List (List UInt8) :=
  sent.filterMap fun datagram =>
    if datagram.1 = system.targetAddr then some datagram.2 else none

/-- What a datagram of the network is decoded to by a receiver with a buffer of 1024
bytes. -/
def carried (index : Nat) : Option RealSocketPacket :=
  system.network[index]?.bind fun bytes => (RealSocketPacket.decode (bytes.take 1024)).toOption

def step (event : ReplicationEvent) : PreAuthReplication Address :=
  match event with
  | .evaluate entityId coord velocity =>
    match system.source.evaluateEntityMovement entityId coord velocity with
    | none => system
    | some (outcome, source, sent) =>
      { system with
        source := source
        network := system.reaching sent ++ system.network
        issued := outcome.toList ++ system.issued }
  | .commit tokenId entityId targetShard =>
    match system.source.commitMigration tokenId entityId targetShard with
    | none => system
    | some (outcome, source, sent) =>
      { system with
        source := source
        network := system.reaching sent ++ system.network
        accepted := acceptedBy tokenId outcome ++ system.accepted }
  | .stepTick currentTick sectorOrder nodeOrder =>
    match system.source.stepTick currentTick sectorOrder nodeOrder with
    | none => system
    | some (_, source, sent) =>
      { system with
        source := source
        network := system.reaching sent ++ system.network }
  | .deliver index =>
    match (system.carried index).bind system.target.handleClusterPacket with
    | none => system
    | some target => { system with target := target }

end PreAuthReplication

namespace ContinentalOrchestrator

variable {Address : Type u} (orchestrator : ContinentalOrchestrator Address)

/-- Handling the packet adds nothing that overflows. -/
def LeavesRoom (packet : RealSocketPacket) :
    Prop :=
  (packet.opcode = opPredictiveMigrationPreAuth → 36 ≤ packet.payload.length →
    (readU64 packet.payload 28).toNat + 30 < 2 ^ 64) ∧
  (packet.opcode = opPredictiveMigrationCommit → 8 ≤ packet.payload.length →
    readU64 packet.payload 0 ∈ orchestrator.inboundPreAuths →
      orchestrator.metrics.preAuthsCommitted.toNat + 1 < 2 ^ 64)

def Precedes (packet : RealSocketPacket) :
    Prop :=
  packet.opcode = opPredictiveMigrationPreAuth → 36 ≤ packet.payload.length →
    ∀ entry, orchestrator.inboundPreAuths.lookup (readU64 packet.payload 0) = some entry →
      entry.isConsumed = false

end ContinentalOrchestrator

namespace PreAuthReplication

variable {Address : Type u} [DecidableEq Address]

/-- Every token that the target keeps was issued, as the only one of its identifier, and
is kept as consumed only if the source accepted its consumption. -/
structure Replicated (system : PreAuthReplication Address) : Prop where
  once : ∀ first ∈ system.issued, ∀ second ∈ system.issued,
    first.tokenId = second.tokenId → first = second
  entry : ∀ tokenId entry, system.target.inboundPreAuths.lookup tokenId = some entry →
    ∃ token ∈ system.issued, token.tokenId = tokenId ∧
      entry = { token with isConsumed := entry.isConsumed }
  consumed : ∀ tokenId entry, system.target.inboundPreAuths.lookup tokenId = some entry →
    entry.isConsumed = true → tokenId ∈ system.accepted

variable (system : PreAuthReplication Address)

/-- What is kept as consumed stays so, and no packet that arrives overflows. -/
def KeepsConsumed (event : ReplicationEvent) : Prop :=
  (∀ tokenId entry, system.target.inboundPreAuths.lookup tokenId = some entry →
    entry.isConsumed = true → ∃ after,
      (system.step event).target.inboundPreAuths.lookup tokenId = some after ∧
        after.isConsumed = true) ∧
  ∀ index packet, event = .deliver index → system.carried index = some packet →
    system.target.handleClusterPacket packet ≠ none

/-- A new token gets a new identifier; a packet that arrives overflows nothing, and is no
announcement of a token that is kept as consumed. -/
def EventFits (event : ReplicationEvent) : Prop :=
  match event with
  | .evaluate entityId coord velocity =>
    system.source.predictor.IssuesFresh
      (fun tokenId => ∃ token ∈ system.issued, token.tokenId = tokenId) entityId
      (PredictiveSeamPredictor.crossing coord velocity system.source.localShardId
        system.source.shardManager) system.source.currentTick
  | .deliver index =>
    ∀ packet, system.carried index = some packet →
      system.target.LeavesRoom packet ∧ system.target.Precedes packet
  | _ => True

/-- The source has issued nothing yet, and the target knows of nothing. -/
structure Fresh (system : PreAuthReplication Address) : Prop where
  predictor : system.source.predictor = PredictiveSeamPredictor.default
  inbound : system.target.inboundPreAuths = ∅
  network : system.network = []
  issued : system.issued = []
  accepted : system.accepted = []

def Explains (packet : RealSocketPacket) : Prop :=
  (∃ token ∈ system.issued, ∃ entityId, packet = preAuthPacket entityId token) ∨
    (∃ tokenId ∈ system.accepted, ∃ entityId, packet = commitPacket tokenId entityId) ∨
      packet.opcode = opShardRebalance

structure Traced (system : PreAuthReplication Address) : Prop where
  lifetime : system.source.predictor.tokenTtlTicks = defaultPreAuthTtlTicks
  stored : ∀ token, some token ∈ system.source.predictor.tokens →
    token.unconsumed ∈ system.issued
  issued : ∀ token ∈ system.issued, token.isConsumed = false ∧
    token.expiryTick = saturatingAdd64 token.issuedTick 30
  network : ∀ bytes ∈ system.network, ∃ packet,
    RealSocketPacket.decode (bytes.take 1024) = .ok packet ∧ system.Explains packet
  replicated : system.Replicated

end PreAuthReplication

namespace ContinentalOrchestrator

variable {Address : Type u} {orchestrator : ContinentalOrchestrator Address}

theorem handleClusterPacket_eq_none_iff {packet : RealSocketPacket} :
    orchestrator.handleClusterPacket packet = none ↔ ¬ orchestrator.LeavesRoom packet := by
  have different : opPredictiveMigrationPreAuth ≠ opPredictiveMigrationCommit := by
    decide
  unfold handleClusterPacket LeavesRoom
  by_cases announces : packet.opcode = opPredictiveMigrationPreAuth ∧ 36 ≤ packet.payload.length
  · have notCommit : packet.opcode ≠ opPredictiveMigrationCommit := by
      rw [announces.1]
      exact different
    rw [if_pos announces, map_eq_none_iff, readPreAuth, map_eq_none_iff,
      checkedAdd64_eq_none_iff, not_and_or]
    constructor
    · intro large
      exact .inl fun room => absurd (room announces.1 announces.2) (Nat.not_lt.mpr large)
    intro tight
    rcases tight with tight | tight
    · exact Nat.not_lt.mp fun small => tight fun _ _ => small
    exact absurd (fun commit => absurd commit notCommit) tight
  rw [if_neg announces]
  have announced : packet.opcode = opPredictiveMigrationPreAuth →
      36 ≤ packet.payload.length → (readU64 packet.payload 28).toNat + 30 < 2 ^ 64 :=
    fun opcode length => absurd ⟨opcode, length⟩ announces
  rw [and_iff_right announced]
  by_cases commits : packet.opcode = opPredictiveMigrationCommit ∧ 8 ≤ packet.payload.length
  · rw [if_pos commits]
    dsimp only
    rcases found : orchestrator.inboundPreAuths.lookup (readU64 packet.payload 0) with _ | entry
    · refine iff_of_false (some_ne_none _) (not_not.mpr fun _ _ known => ?_)
      rcases Finmap.mem_iff.mp known with ⟨entry, here⟩
      rw [found] at here
      cases here
    have known := Finmap.mem_of_lookup_eq_some found
    rw [map_eq_none_iff, checkedAdd64_eq_none_iff]
    constructor
    · intro large room
      exact absurd (room commits.1 commits.2 known) (Nat.not_lt.mpr large)
    intro tight
    exact Nat.not_lt.mp fun small => tight fun _ _ _ => small
  rw [if_neg commits]
  have committed : packet.opcode = opPredictiveMigrationCommit →
      8 ≤ packet.payload.length → readU64 packet.payload 0 ∈ orchestrator.inboundPreAuths →
        orchestrator.metrics.preAuthsCommitted.toNat + 1 < 2 ^ 64 :=
    fun opcode length => absurd ⟨opcode, length⟩ commits
  refine iff_of_false ?_ (not_not.mpr committed)
  split
  · split <;> exact some_ne_none _
  exact some_ne_none _

theorem decode_of_mem_datagrams {packet : RealSocketPacket} {bufferLen : Nat}
    (small : bufferLen ≤ 1024) {destinations : List Address} {datagram : Address × List UInt8}
    (sent : datagram ∈ orchestrator.datagrams packet bufferLen destinations) :
    RealSocketPacket.decode (datagram.2.take 1024) = .ok packet := by
  unfold datagrams at sent
  rcases encoded : packet.encode bufferLen with error | bytes
  · rw [encoded] at sent
    cases sent
  rcases RealSocketPacket.encode_ok_iff.mp encoded with ⟨fits, rfl⟩
  rw [encoded] at sent
  dsimp only at sent
  split at sent
  · rcases mem_map.mp sent with ⟨peer, _, rfl⟩
    have length := RealSocketPacket.length_wireBytes packet
    dsimp only
    rw [take_of_length_le (by omega)]
    exact RealSocketPacket.decode_wireBytes (by omega)
  cases sent

variable {after : ContinentalOrchestrator Address} {sent : List (Address × List UInt8)}

theorem evaluateEntityMovement_eq {entityId : UInt32} {coord : GlobalCoord} {velocity : Vec3Fix}
    {outcome : Option PredictiveMigrationPreAuth}
    (moved : orchestrator.evaluateEntityMovement entityId coord velocity =
      some (outcome, after, sent)) :
    orchestrator.predictor.evaluateAndPreAuthenticate entityId coord velocity
        orchestrator.localShardId orchestrator.shardManager orchestrator.currentTick =
      (after.predictor, outcome) ∧
    ∀ datagram ∈ sent, ∃ token, outcome = some token ∧
      RealSocketPacket.decode (datagram.2.take 1024) = .ok (preAuthPacket entityId token) := by
  unfold evaluateEntityMovement at moved
  split at moved
  · rename_i predictor evaluated
    cases moved
    exact ⟨evaluated, fun datagram none => by cases none⟩
  rename_i predictor token evaluated
  rcases Option.map_eq_some_iff.mp moved with ⟨issued, _, same⟩
  cases same
  exact ⟨evaluated, fun datagram here =>
    ⟨token, rfl, decode_of_mem_datagrams (by decide) here⟩⟩

theorem commitMigration_eq {tokenId : UInt64} {entityId targetShard : UInt32}
    {outcome : Except WorldError PredictiveMigrationPreAuth}
    (committed : orchestrator.commitMigration tokenId entityId targetShard =
      some (outcome, after, sent)) :
    orchestrator.predictor.validateAndConsume tokenId entityId targetShard
        orchestrator.currentTick = (outcome, after.predictor) ∧
    ∀ datagram ∈ sent, (∃ token, outcome = .ok token) ∧
      RealSocketPacket.decode (datagram.2.take 1024) = .ok (commitPacket tokenId entityId) := by
  unfold commitMigration at committed
  split at committed
  · rename_i error predictor validated
    cases committed
    exact ⟨validated, fun datagram none => by cases none⟩
  rename_i token predictor validated
  rcases Option.map_eq_some_iff.mp committed with ⟨count, _, same⟩
  cases same
  exact ⟨validated, fun datagram here =>
    ⟨⟨token, rfl⟩, decode_of_mem_datagrams (by decide) here⟩⟩

theorem stepTick_eq {currentTick : UInt64} {sectorOrder : List (Int32 × Int32)}
    {nodeOrder : List UInt32} {actions : List ShardRebalanceAction}
    (stepped : orchestrator.stepTick currentTick sectorOrder nodeOrder =
      some (actions, after, sent)) :
    after.predictor = orchestrator.predictor.purgeExpired currentTick ∧
    ∀ datagram ∈ sent, ∃ action, RealSocketPacket.decode (datagram.2.take 1024) =
        .ok (rebalancePacket currentTick action) := by
  rcases Option.map_eq_some_iff.mp stepped with ⟨executed, _, same⟩
  cases same
  refine ⟨rfl, fun datagram here => ?_⟩
  rcases mem_flatMap.mp here with ⟨action, _, sent⟩
  exact ⟨action, decode_of_mem_datagrams (by decide) sent⟩

end ContinentalOrchestrator

namespace PreAuthReplication

variable {Address : Type u} {system : PreAuthReplication Address} {packet : RealSocketPacket}

theorem Traced.explains (traced : system.Traced) {index : Nat}
    (arrived : system.carried index = some packet) : system.Explains packet := by
  rcases Option.bind_eq_some_iff.mp arrived with ⟨bytes, there, decoded⟩
  rcases traced.network bytes (mem_of_getElem? there) with ⟨sent, decodedTo, explained⟩
  rw [decodedTo] at decoded
  cases some.inj decoded
  exact explained

theorem length_preAuthPacket (entityId : UInt32) (token : PredictiveMigrationPreAuth) :
    (preAuthPacket entityId token).payload.length = 44 := by
  simp only [preAuthPacket, length_append, length_bigEndian]

theorem Traced.handle_announcement (traced : system.Traced)
    {token : PredictiveMigrationPreAuth} (issued : token ∈ system.issued) (entityId : UInt32)
    (room : system.target.LeavesRoom (preAuthPacket entityId token)) :
    system.target.handleClusterPacket (preAuthPacket entityId token) =
      some { system.target with
        inboundPreAuths := system.target.inboundPreAuths.insert token.tokenId token } := by
  have length := length_preAuthPacket entityId token
  have announces : (preAuthPacket entityId token).opcode = opPredictiveMigrationPreAuth ∧
      36 ≤ (preAuthPacket entityId token).payload.length := ⟨rfl, by omega⟩
  have possible := mt ContinentalOrchestrator.handleClusterPacket_eq_none_iff.mp (not_not.mpr room)
  unfold ContinentalOrchestrator.handleClusterPacket at possible ⊢
  rw [if_pos announces, readPreAuth_preAuthPacket] at possible ⊢
  rcases added : checkedAdd64 token.issuedTick 30 with _ | expiryTick
  · rw [added] at possible
    exact absurd rfl possible
  rcases traced.issued token issued with ⟨unconsumed, expiry⟩
  have same : { token with expiryTick := expiryTick, isConsumed := false } = token := by
    rw [eq_saturatingAdd64_of_checkedAdd64 added, ← expiry, ← unconsumed]
  rw [map_some, map_some, same]

theorem handle_commitment {target : ContinentalOrchestrator Address} {tokenId : UInt64}
    {entityId : UInt32} (room : target.LeavesRoom (commitPacket tokenId entityId)) :
    (target.inboundPreAuths.lookup tokenId = none ∧
      target.handleClusterPacket (commitPacket tokenId entityId) = some target) ∨
    ∃ entry committed, target.inboundPreAuths.lookup tokenId = some entry ∧
      target.handleClusterPacket (commitPacket tokenId entityId) = some { target with
        inboundPreAuths := target.inboundPreAuths.insert tokenId { entry with isConsumed := true }
        metrics := { target.metrics with preAuthsCommitted := committed } } := by
  have possible := mt ContinentalOrchestrator.handleClusterPacket_eq_none_iff.mp (not_not.mpr room)
  unfold ContinentalOrchestrator.handleClusterPacket at possible ⊢
  rw [readU64_commitPacket] at possible ⊢
  dsimp only at possible ⊢
  rcases found : target.inboundPreAuths.lookup tokenId with _ | entry
  · exact .inl ⟨rfl, rfl⟩
  rw [found] at possible
  cases added : checkedAdd64 target.metrics.preAuthsCommitted 1 with
  | none =>
    rw [added] at possible
    exact absurd rfl possible
  | some committed => exact .inr ⟨entry, committed, rfl, rfl⟩

theorem handle_rebalance {target : ContinentalOrchestrator Address}
    (moves : packet.opcode = opShardRebalance) :
    ∃ after, target.handleClusterPacket packet = some after ∧
      after.inboundPreAuths = target.inboundPreAuths := by
  have notAnnounces : ¬ (packet.opcode = opPredictiveMigrationPreAuth ∧
      36 ≤ packet.payload.length) := by
    rw [moves]
    exact fun both => absurd both.1 (by decide)
  have notCommits : ¬ (packet.opcode = opPredictiveMigrationCommit ∧
      8 ≤ packet.payload.length) := by
    rw [moves]
    exact fun both => absurd both.1 (by decide)
  unfold ContinentalOrchestrator.handleClusterPacket
  rw [if_neg notAnnounces, if_neg notCommits]
  split
  · split <;> exact ⟨_, rfl, rfl⟩
  exact ⟨_, rfl, rfl⟩

/-- The target after a packet, in what concerns the kept tokens. -/
structure Follows (system : PreAuthReplication Address)
    (after : ContinentalOrchestrator Address) : Prop where
  entry : ∀ tokenId entry, after.inboundPreAuths.lookup tokenId = some entry →
    ∃ token ∈ system.issued, token.tokenId = tokenId ∧
      entry = { token with isConsumed := entry.isConsumed }
  consumed : ∀ tokenId entry, after.inboundPreAuths.lookup tokenId = some entry →
    entry.isConsumed = true → tokenId ∈ system.accepted
  kept : ∀ tokenId entry, system.target.inboundPreAuths.lookup tokenId = some entry →
    entry.isConsumed = true → ∃ changed,
      after.inboundPreAuths.lookup tokenId = some changed ∧ changed.isConsumed = true

theorem Traced.follows_of_same (traced : system.Traced) {after : ContinentalOrchestrator Address}
    (same : after.inboundPreAuths = system.target.inboundPreAuths) : system.Follows after := by
  constructor
  · intro tokenId entry found
    rw [same] at found
    exact traced.replicated.entry tokenId entry found
  · intro tokenId entry found
    rw [same] at found
    exact traced.replicated.consumed tokenId entry found
  intro tokenId entry found isConsumed
  exact ⟨entry, same ▸ found, isConsumed⟩

/-- One entry is written that agrees with an issued token, and is consumed only if that
was accepted and whenever the entry before it was. -/
theorem Traced.follows_of_insert (traced : system.Traced)
    {after : ContinentalOrchestrator Address} {token written : PredictiveMigrationPreAuth}
    (issued : token ∈ system.issued)
    (agrees : written = { token with isConsumed := written.isConsumed })
    (changed : after.inboundPreAuths = system.target.inboundPreAuths.insert token.tokenId written)
    (accepted : written.isConsumed = true → token.tokenId ∈ system.accepted)
    (stays : ∀ entry, system.target.inboundPreAuths.lookup token.tokenId = some entry →
      entry.isConsumed = true → written.isConsumed = true) : system.Follows after := by
  constructor
  · intro tokenId entry found
    rw [changed] at found
    by_cases here : tokenId = token.tokenId
    · rw [here, Finmap.lookup_insert, some.injEq] at found
      subst found
      exact ⟨token, issued, here.symm, agrees⟩
    rw [Finmap.lookup_insert_of_ne _ here] at found
    exact traced.replicated.entry tokenId entry found
  · intro tokenId entry found isConsumed
    rw [changed] at found
    by_cases here : tokenId = token.tokenId
    · rw [here, Finmap.lookup_insert, some.injEq] at found
      subst found
      exact here ▸ accepted isConsumed
    rw [Finmap.lookup_insert_of_ne _ here] at found
    exact traced.replicated.consumed tokenId entry found isConsumed
  intro tokenId entry found isConsumed
  rw [changed]
  by_cases here : tokenId = token.tokenId
  · subst here
    exact ⟨written, Finmap.lookup_insert _, stays entry found isConsumed⟩
  rw [Finmap.lookup_insert_of_ne _ here]
  exact ⟨entry, found, isConsumed⟩

theorem Traced.handle (traced : system.Traced) (explained : system.Explains packet)
    (room : system.target.LeavesRoom packet) (precedes : system.target.Precedes packet) :
    ∃ after, system.target.handleClusterPacket packet = some after ∧ system.Follows after := by
  rcases explained with ⟨token, issued, entityId, rfl⟩ | ⟨tokenId, accepted, entityId, rfl⟩ | moves
  · refine ⟨_, traced.handle_announcement issued entityId room, ?_⟩
    have unconsumed := (traced.issued token issued).1
    refine traced.follows_of_insert issued rfl rfl ?_ ?_
    · intro isConsumed
      rw [unconsumed] at isConsumed
      cases isConsumed
    intro entry found isConsumed
    have length := length_preAuthPacket entityId token
    rw [← readU64_preAuthPacket entityId token] at found
    rw [precedes rfl (by omega) entry found] at isConsumed
    cases isConsumed
  · rcases handle_commitment room with ⟨_, handled⟩ | ⟨entry, committed, found, handled⟩
    · exact ⟨_, handled, traced.follows_of_same rfl⟩
    refine ⟨_, handled, ?_⟩
    rcases traced.replicated.entry tokenId entry found with ⟨token, issued, rfl, agrees⟩
    refine traced.follows_of_insert issued ?_ rfl (fun _ => accepted) fun _ _ _ => rfl
    rw [agrees]
  rcases handle_rebalance moves with ⟨after, handled, same⟩
  exact ⟨after, handled, traced.follows_of_same same⟩

section Source

variable [DecidableEq Address]

theorem mem_of_mem_reaching {sent : List (Address × List UInt8)} {bytes : List UInt8}
    (arrived : bytes ∈ system.reaching sent) : ∃ datagram ∈ sent, datagram.2 = bytes := by
  rcases mem_filterMap.mp arrived with ⟨datagram, here, same⟩
  split at same
  · exact ⟨datagram, here, some.inj same⟩
  cases same

theorem Traced.network_mono (traced : system.Traced) {after : PreAuthReplication Address}
    {sent : List (Address × List UInt8)}
    (network : after.network = system.reaching sent ++ system.network)
    (issued : ∀ token ∈ system.issued, token ∈ after.issued)
    (accepted : ∀ tokenId ∈ system.accepted, tokenId ∈ after.accepted)
    (explained : ∀ datagram ∈ sent, ∃ packet,
      RealSocketPacket.decode (datagram.2.take 1024) = .ok packet ∧ after.Explains packet) :
    ∀ bytes ∈ after.network, ∃ packet,
      RealSocketPacket.decode (bytes.take 1024) = .ok packet ∧ after.Explains packet := by
  intro bytes there
  rw [network, mem_append] at there
  rcases there with arrived | before
  · rcases mem_of_mem_reaching arrived with ⟨datagram, here, rfl⟩
    exact explained datagram here
  rcases traced.network bytes before with ⟨packet, decoded, was⟩
  refine ⟨packet, decoded, ?_⟩
  rcases was with ⟨token, wasIssued, announces⟩ | ⟨tokenId, wasAccepted, commits⟩ | moves
  · exact .inl ⟨token, issued token wasIssued, announces⟩
  · exact .inr (.inl ⟨tokenId, accepted tokenId wasAccepted, commits⟩)
  exact .inr (.inr moves)

theorem Traced.issue (traced : system.Traced) {after : ContinentalOrchestrator Address}
    {sent : List (Address × List UInt8)} {token : PredictiveMigrationPreAuth}
    {entityId : UInt32}
    (lifetime : after.predictor.tokenTtlTicks = system.source.predictor.tokenTtlTicks)
    (stored : ∀ other, some other ∈ after.predictor.tokens →
      other = token ∨ some other ∈ system.source.predictor.tokens)
    (form : token.isConsumed = false ∧ token.expiryTick = saturatingAdd64 token.issuedTick 30)
    (once : ∀ other ∈ system.issued, other.tokenId = token.tokenId → other = token)
    (announced : ∀ datagram ∈ sent,
      RealSocketPacket.decode (datagram.2.take 1024) = .ok (preAuthPacket entityId token)) :
    Traced { system with
      source := after
      network := system.reaching sent ++ system.network
      issued := token :: system.issued } := by
  have unconsumed : token.unconsumed = token := by
    rw [PredictiveMigrationPreAuth.unconsumed, ← form.1]
  have grows : ∀ other ∈ system.issued, other ∈ token :: system.issued :=
    fun other wasIssued => mem_cons_of_mem token wasIssued
  refine ⟨lifetime.trans traced.lifetime, ?_, ?_, ?_, ⟨?_, ?_, traced.replicated.consumed⟩⟩
  · intro other here
    rcases stored other here with same | before
    · rw [same, unconsumed]
      exact mem_cons_self
    exact grows _ (traced.stored other before)
  · intro other isIssued
    rcases mem_cons.mp isIssued with rfl | before
    · exact form
    exact traced.issued other before
  · refine traced.network_mono rfl grows (fun _ wasAccepted => wasAccepted) ?_
    intro datagram here
    exact ⟨_, announced datagram here, .inl ⟨token, mem_cons_self, entityId, rfl⟩⟩
  · intro first firstIssued second secondIssued same
    rcases mem_cons.mp firstIssued with rfl | firstBefore
    · rcases mem_cons.mp secondIssued with rfl | secondBefore
      · rfl
      exact (once second secondBefore same.symm).symm
    rcases mem_cons.mp secondIssued with rfl | secondBefore
    · exact once first firstBefore same
    exact traced.replicated.once first firstBefore second secondBefore same
  intro tokenId entry found
  rcases traced.replicated.entry tokenId entry found with ⟨source, wasIssued, agrees⟩
  exact ⟨source, grows source wasIssued, agrees⟩

theorem Traced.evaluate (traced : system.Traced) {entityId : UInt32} {coord : GlobalCoord}
    {velocity : Vec3Fix} (fits : system.EventFits (.evaluate entityId coord velocity)) :
    (system.step (.evaluate entityId coord velocity)).Traced := by
  unfold step
  dsimp only
  split
  · exact traced
  rename_i outcome after sent moved
  rcases ContinentalOrchestrator.evaluateEntityMovement_eq moved with ⟨evaluated, announced⟩
  rcases PredictiveSeamPredictor.evaluateAndPreAuthenticate_cases system.source.predictor
    entityId coord velocity system.source.localShardId system.source.shardManager
    system.source.currentTick with same | ⟨token, stored, unused, same⟩ |
      ⟨projected, targetShard, crossed, inactive, same⟩
  · rw [same, Prod.mk.injEq] at evaluated
    rcases evaluated with ⟨predictor, rfl⟩
    have silent : sent = [] := by
      rcases sent with _ | ⟨datagram, rest⟩
      · rfl
      rcases announced datagram mem_cons_self with ⟨token, none, _⟩
      cases none
    rw [silent]
    refine ⟨?_, ?_, traced.issued, traced.network, ⟨traced.replicated.once,
      traced.replicated.entry, traced.replicated.consumed⟩⟩
    · rw [← predictor]
      exact traced.lifetime
    rw [← predictor]
    exact traced.stored
  · rw [same, Prod.mk.injEq] at evaluated
    rcases evaluated with ⟨predictor, rfl⟩
    have unconsumed : token.unconsumed = token := by
      rw [PredictiveMigrationPreAuth.unconsumed, ← unused]
    have wasIssued := traced.stored token stored
    rw [unconsumed] at wasIssued
    refine @Traced.issue _ _ _ traced after sent token entityId ?_ ?_
      (traced.issued token wasIssued) ?_ ?_
    · rw [← predictor]
    · rw [← predictor]
      exact fun other here => .inr here
    · exact fun other otherIssued => traced.replicated.once other otherIssued token wasIssued
    intro datagram here
    rcases announced datagram here with ⟨_, isToken, decoded⟩
    cases some.inj isToken
    exact decoded
  rw [same, Prod.mk.injEq] at evaluated
  rcases evaluated with ⟨predictor, rfl⟩
  have fresh := fits projected targetShard crossed inactive
  refine @Traced.issue _ _ _ traced after sent _ entityId ?_ ?_ ⟨rfl, ?_⟩ ?_ ?_
  · rw [← predictor]
    unfold PredictiveSeamPredictor.storeToken
    dsimp only
    split
    · rfl
    split <;> rfl
  · intro other here
    rw [← predictor] at here
    rcases PredictiveSeamPredictor.mem_storeToken here with new | before
    · exact .inl (some.inj new)
    exact .inr before
  · change saturatingAdd64 _ system.source.predictor.tokenTtlTicks = _
    rw [traced.lifetime]
    rfl
  · exact fun other otherIssued used => absurd ⟨other, otherIssued, used⟩ fresh
  intro datagram here
  rcases announced datagram here with ⟨_, isToken, decoded⟩
  cases some.inj isToken
  exact decoded

theorem Traced.commit (traced : system.Traced) (tokenId : UInt64) (entityId targetShard : UInt32) :
    (system.step (.commit tokenId entityId targetShard)).Traced := by
  unfold step
  dsimp only
  split
  · exact traced
  rename_i outcome after sent committed
  rcases ContinentalOrchestrator.commitMigration_eq committed with ⟨validated, announced⟩
  have grows : ∀ accepted ∈ system.accepted,
      accepted ∈ acceptedBy tokenId outcome ++ system.accepted :=
    fun accepted here => mem_append_right _ here
  have consumed : ∀ other entry,
      system.target.inboundPreAuths.lookup other = some entry → entry.isConsumed = true →
        other ∈ acceptedBy tokenId outcome ++ system.accepted :=
    fun other entry found isConsumed =>
      grows other (traced.replicated.consumed other entry found isConsumed)
  let next : PreAuthReplication Address :=
    { system with
      source := after
      network := system.reaching sent ++ system.network
      accepted := acceptedBy tokenId outcome ++ system.accepted }
  have network : ∀ bytes ∈ next.network, ∃ packet,
      RealSocketPacket.decode (bytes.take 1024) = .ok packet ∧ next.Explains packet := by
    refine traced.network_mono rfl (fun _ wasIssued => wasIssued) grows ?_
    intro datagram here
    rcases announced datagram here with ⟨⟨token, rfl⟩, decoded⟩
    exact ⟨_, decoded, .inr (.inl ⟨tokenId, mem_cons_self, entityId, rfl⟩)⟩
  rcases PredictiveSeamPredictor.validateAndConsume_cases system.source.predictor tokenId
    entityId targetShard system.source.currentTick with ⟨error, same⟩ |
      ⟨token, changed, stored, _, same, lifetime, kept⟩
  · rw [same, Prod.mk.injEq] at validated
    refine ⟨?_, ?_, traced.issued, network, ⟨traced.replicated.once,
      traced.replicated.entry, consumed⟩⟩
    · rw [← validated.2]
      exact traced.lifetime
    rw [← validated.2]
    exact traced.stored
  rw [same, Prod.mk.injEq] at validated
  refine ⟨?_, ?_, traced.issued, network, ⟨traced.replicated.once,
    traced.replicated.entry, consumed⟩⟩
  · rw [← validated.2]
    exact lifetime.trans traced.lifetime
  intro other here
  rw [← validated.2] at here
  rcases kept _ here with isToken | before
  · rw [some.inj isToken]
    exact traced.stored token stored
  exact traced.stored other before

theorem Traced.stepTick (traced : system.Traced) (currentTick : UInt64)
    (sectorOrder : List (Int32 × Int32)) (nodeOrder : List UInt32) :
    (system.step (.stepTick currentTick sectorOrder nodeOrder)).Traced := by
  unfold step
  dsimp only
  split
  · exact traced
  rename_i actions after sent stepped
  rcases ContinentalOrchestrator.stepTick_eq stepped with ⟨purged, announced⟩
  refine ⟨?_, ?_, traced.issued, ?_, ⟨traced.replicated.once, traced.replicated.entry,
    traced.replicated.consumed⟩⟩
  · rw [purged]
    exact traced.lifetime
  · intro token here
    rw [purged] at here
    exact traced.stored token (PredictiveSeamPredictor.mem_of_mem_purgeExpired here)
  refine traced.network_mono rfl (fun _ wasIssued => wasIssued)
    (fun _ wasAccepted => wasAccepted) ?_
  intro datagram here
  rcases announced datagram here with ⟨action, decoded⟩
  exact ⟨_, decoded, .inr (.inr rfl)⟩

theorem Traced.deliver (traced : system.Traced) {index : Nat}
    (fits : system.EventFits (.deliver index)) :
    (system.step (.deliver index)).Traced ∧ system.KeepsConsumed (.deliver index) := by
  cases arrived : system.carried index with
  | none =>
    have same : system.step (.deliver index) = system := by
      simp only [step, arrived, bind_none]
    refine ⟨same.symm ▸ traced, ?_, ?_⟩
    · intro tokenId entry found isConsumed
      rw [same]
      exact ⟨entry, found, isConsumed⟩
    intro other packet sameEvent carries
    cases sameEvent
    rw [arrived] at carries
    cases carries
  | some packet =>
    rcases fits packet arrived with ⟨room, precedes⟩
    rcases traced.handle (traced.explains arrived) room precedes with
      ⟨after, handled, follows⟩
    have moved : system.step (.deliver index) = { system with target := after } := by
      simp only [step, arrived, bind_some, handled]
    rw [KeepsConsumed, moved]
    refine ⟨⟨traced.lifetime, traced.stored, traced.issued, traced.network,
      ⟨traced.replicated.once, follows.entry, follows.consumed⟩⟩, follows.kept, ?_⟩
    intro other otherPacket sameEvent carries
    cases sameEvent
    rw [arrived, some.injEq] at carries
    rw [← carries, handled]
    exact some_ne_none after

theorem keepsConsumed_of_source {event : ReplicationEvent}
    (same : (system.step event).target = system.target)
    (source : ∀ index, event ≠ .deliver index) : system.KeepsConsumed event := by
  refine ⟨?_, fun index _ isDeliver => absurd isDeliver (source index)⟩
  intro tokenId entry found isConsumed
  exact ⟨entry, same.symm ▸ found, isConsumed⟩

theorem Traced.step (traced : system.Traced) {event : ReplicationEvent}
    (fits : system.EventFits event) : (system.step event).Traced ∧ system.KeepsConsumed event := by
  cases event with
  | evaluate entityId coord velocity =>
    refine ⟨traced.evaluate fits, keepsConsumed_of_source ?_ fun _ same => by cases same⟩
    simp only [PreAuthReplication.step]
    split <;> rfl
  | commit tokenId entityId targetShard =>
    refine ⟨traced.commit tokenId entityId targetShard,
      keepsConsumed_of_source ?_ fun _ same => by cases same⟩
    simp only [PreAuthReplication.step]
    split <;> rfl
  | stepTick currentTick sectorOrder nodeOrder =>
    refine ⟨traced.stepTick currentTick sectorOrder nodeOrder,
      keepsConsumed_of_source ?_ fun _ same => by cases same⟩
    simp only [PreAuthReplication.step]
    split <;> rfl
  | deliver index => exact traced.deliver fits

end Source

theorem Fresh.traced (fresh : system.Fresh) : system.Traced := by
  have nothing : ∀ tokenId entry, system.target.inboundPreAuths.lookup tokenId ≠ some entry := by
    intro tokenId entry found
    rw [fresh.inbound] at found
    cases found
  refine ⟨?_, ?_, ?_, ?_, ⟨?_, ?_, ?_⟩⟩
  · rw [fresh.predictor]
    rfl
  · intro token stored
    rw [fresh.predictor] at stored
    cases eq_of_mem_replicate stored
  · intro token issued
    rw [fresh.issued] at issued
    cases issued
  · intro bytes there
    rw [fresh.network] at there
    cases there
  · intro first issued
    rw [fresh.issued] at issued
    cases issued
  · intro tokenId entry found
    exact absurd found (nothing tokenId entry)
  intro tokenId entry found
  exact absurd found (nothing tokenId entry)

/-- Handling a packet overflows exactly if the packet leaves no room.  From a fresh start,
as long as every event fits, the target keeps only what the source issued, as consumed only
what the source accepted, and as consumed for good. -/
theorem preAuths_replicated [DecidableEq Address] :
    (∀ (orchestrator : ContinentalOrchestrator Address) (packet : RealSocketPacket),
      orchestrator.handleClusterPacket packet = none ↔ ¬ orchestrator.LeavesRoom packet) ∧
    ∀ (system : PreAuthReplication Address) (events : List ReplicationEvent),
      system.Fresh → EachStep step EventFits system events →
        Throughout step Replicated system events ∧ EachStep step KeepsConsumed system events := by
  refine ⟨fun orchestrator packet =>
    ContinentalOrchestrator.handleClusterPacket_eq_none_iff, ?_⟩
  intro system events fresh fits
  have traced : Throughout step Traced system events :=
    throughout_of_eachStep (fun _ _ traced meets => (traced.step meets).1) fresh.traced fits
  exact ⟨traced.imp fun _ traced => traced.replicated,
    eachStep_of_invariant (fun _ _ traced meets => (traced.step meets).1)
      (fun _ _ traced meets => (traced.step meets).2) fresh.traced fits⟩

private def twoShards : AdaptiveShardManager where
  shards := ((List.range maxWorkerShards).map fun index =>
    ShardMetrics.new (if index < 4 then UInt32.ofNat index else 0)).modify 0 (·.gaining 0)
      |>.modify 1 (·.gaining 0)
  shardCount := 4
  sectors := ((∅ : Finmap fun _ : Int32 × Int32 => SectorMetadata).insert (0, 0)
    ⟨0, 0, 0⟩).insert (1, 0) ⟨1, 0, 0⟩
  hotspotThreshold := defaultHotspotEntityThreshold
  wildernessThreshold := defaultWildernessEntityThreshold
  backgroundShardId := 0

private def worker (shard : UInt32) (nodeAddrs : Finmap fun _ : UInt32 => UInt16) :
    ContinentalOrchestrator UInt16 where
  localShardId := shard
  shardManager := twoShards
  predictor := PredictiveSeamPredictor.default
  isBound := true
  nodeAddrs := nodeAddrs
  inboundPreAuths := ∅
  currentTick := 0
  metrics := ⟨0, 0, 0⟩

/-- Shard 0 knows shard 1 on port 4001. -/
private def twoWorkers : PreAuthReplication UInt16 where
  source := worker 0 ((∅ : Finmap fun _ : UInt32 => UInt16).insert 1 4001)
  target := worker 1 ∅
  targetAddr := 4001
  network := []
  issued := []
  accepted := []

private theorem fresh_twoWorkers : twoWorkers.Fresh :=
  ⟨rfl, rfl, rfl, rfl, rfl⟩

private def approach : ReplicationEvent :=
  .evaluate 123 ⟨0, 0, Vec3Fix.fromI32 230 0 50⟩ (Vec3Fix.fromI32 150 0 0)

private def crossing : List ReplicationEvent :=
  [approach, .deliver 0, .commit 1 123 1, .deliver 0]

private def tokenOne : PredictiveMigrationPreAuth where
  tokenId := 1
  entityId := 123
  sourceShard := 0
  targetShard := 1
  targetSectorX := 1
  targetSectorZ := 0
  issuedTick := 0
  expiryTick := 30
  isConsumed := false

private theorem carried_announcement :
    (step twoWorkers approach).carried 0 = some (preAuthPacket 123 tokenOne) := by
  decide +kernel

private theorem carried_commitment :
    (step (step (step twoWorkers approach) (.deliver 0)) (.commit 1 123 1)).carried 0 =
      some (commitPacket 1 123) := by
  decide +kernel

private theorem fits_crossing : EachStep step EventFits twoWorkers crossing := by
  refine ⟨?_, ?_, trivial, ?_, trivial⟩
  · intro projected targetShard _ _ used
    rcases used with ⟨token, issued, _⟩
    cases issued
  · intro packet arrived
    rw [← some.inj (carried_announcement.symm.trans arrived)]
    refine ⟨⟨fun _ _ => by decide, fun commits => absurd commits (by decide)⟩, ?_⟩
    intro _ _ entry found
    have unknown : (step twoWorkers approach).target.inboundPreAuths.lookup 1 = none := by
      decide +kernel
    cases unknown.symm.trans found
  intro packet arrived
  rw [← some.inj (carried_commitment.symm.trans arrived)]
  exact ⟨⟨fun announces => absurd announces (by decide), fun _ _ _ => by decide +kernel⟩,
    fun announces => absurd announces (by decide)⟩

theorem preAuths_replicated_crossing : Throughout step Replicated twoWorkers crossing ∧
      EachStep step KeepsConsumed twoWorkers crossing :=
  preAuths_replicated.2 twoWorkers crossing fresh_twoWorkers fits_crossing

/-- A second copy of the announcement arrives after the commitment; and an announcement of
the last tick overflows. -/
theorem not_preAuths_replicated_late_announcement : (twoWorkers.Fresh ∧
      ¬ EachStep step KeepsConsumed twoWorkers (crossing ++ [.deliver 1])) ∧
    (worker 1 ∅).handleClusterPacket
      (preAuthPacket 123 { tokenOne with issuedTick := 0xFFFFFFFFFFFFFFFF }) = none := by
  refine ⟨⟨fresh_twoWorkers, ?_⟩, ?_⟩
  · intro always
    have last := ((eachStep_append twoWorkers crossing _).mp always).2.1.1
    have consumed : (run step twoWorkers crossing).target.inboundPreAuths.lookup 1 =
        some { tokenOne with isConsumed := true } := by
      decide +kernel
    have resurrected : (step (run step twoWorkers crossing)
        (.deliver 1)).target.inboundPreAuths.lookup 1 = some tokenOne := by
      decide +kernel
    rcases last 1 _ consumed rfl with ⟨after, found, isConsumed⟩
    rw [resurrected, some.injEq] at found
    rw [← found] at isConsumed
    cases isConsumed
  rfl

end PreAuthReplication

end Eidolon.Server
