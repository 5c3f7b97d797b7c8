import Eidolon.Server.HandshakeSoundness

/-!
# Which entity acts for whom

The entity of an account is named by the low bits of its number, a spawn is left out when
that name is taken, and what a peer asks for is done by the first entity with its address.
A peer is therefore bound to the entity of the account it finalizes only when the name is
free or already belongs to this very peer and account, and when no other entity has the
address of the peer.
-/

namespace Eidolon.Server

open Core Function Library List Net Option World

variable {Peer Body World : Type} [DecidableEq Peer]

/-- The application, and the account each peer has finalized last, as long as the entity of
the account has not been despawned since. -/
structure SessionSystem (Peer Body World : Type) where
  app : EidolonApp Peer Body World
  session : Peer → Option UInt64

def sessionsAfter (session : Peer → Option UInt64) (event : Event Peer) : Peer → Option UInt64 :=
  match event with
  | .tick => session
  | .kickPlayer entityId =>
    fun peer => (session peer).filter fun accountId => decide (playerEid accountId ≠ entityId)
  | .datagram peer bytes =>
    match requestOf bytes with
    | some (.finalize request) => Function.update session peer (some request.accountId)
    | _ => session

def SessionSystem.step (hmacSha256 : List UInt8 → List UInt8 → FixedBytes 32)
    (gameplay : Gameplay Peer Body World) (system : SessionSystem Peer Body World)
    (event : Event Peer) : SessionSystem Peer Body World where
  app := system.app.step hmacSha256 gameplay event
  session := sessionsAfter system.session event

/-- The entity is the only one of the account, it has the address of the peer, and it is
what the peer's packets are applied to in whatever order the map is iterated. -/
structure BoundTo (app : EidolonApp Peer Body World) (peer : Peer) (accountId : UInt64)
    (entity : ServerEntity Peer Body) : Prop where
  named : entity.id = playerEid accountId
  only : app.entities.filter (fun other => decide (other.accountId = some accountId)) = [entity]
  addressed : entity.peerAddr = some peer
  routed : ∀ listing : List (ServerEntity Peer Body), listing.Perm app.entities →
    KeyedList.find ServerEntity.peerAddr listing (some peer) = some entity

variable (system : SessionSystem Peer Body World)

namespace EidolonApp

variable {hmacSha256 : List UInt8 → List UInt8 → FixedBytes 32}
variable {gameplay : Gameplay Peer Body World}

inductive Identified (hmacSha256 : List UInt8 → List UInt8 → FixedBytes 32)
    (gameplay : Gameplay Peer Body World) (app : EidolonApp Peer Body World) :
    Event Peer → Prop
  | finalize (peer : Peer) (bytes : List UInt8) (request : ConnectFinalizeRequest)
      (requested : requestOf bytes = some (.finalize request))
      (result : app.step hmacSha256 gameplay (.datagram peer bytes) =
        (app.finalizeConnection gameplay peer request).1) :
      Identified hmacSha256 gameplay app (.datagram peer bytes)
  | kick (entityId : UInt32) : Identified hmacSha256 gameplay app (.kickPlayer entityId)
  | tick : Identified hmacSha256 gameplay app .tick
  | other (peer : Peer) (bytes : List UInt8)
      (notFinalize : ∀ request, requestOf bytes ≠ some (.finalize request))
      (kept : (app.step hmacSha256 gameplay (.datagram peer bytes)).identities =
        app.identities) :
      Identified hmacSha256 gameplay app (.datagram peer bytes)

variable (app : EidolonApp Peer Body World)

theorem identified (event : Event Peer) : Identified hmacSha256 gameplay app event := by
  have handling : Handling hmacSha256 gameplay app event := handling app event
  cases handling with
  | tick result => exact .tick
  | kick entityId result => exact .kick entityId
  | finalize peer bytes request requested result =>
    exact .finalize peer bytes request requested (congrArg Prod.fst result)
  | ignored peer bytes requested result =>
    refine .other peer bytes (by simp [requested]) ?_
    rw [step, result]
  | played peer bytes requested result =>
    refine .other peer bytes (fun request finalize => requested _ finalize) ?_
    rw [step, result]
    exact identities_play app _
  | challenge peer bytes request requested result =>
    refine .other peer bytes (by simp [requested]) ?_
    rw [step, result]
  | equipItem peer bytes inventorySlot slot requested result =>
    refine .other peer bytes (by simp [requested]) ?_
    rw [step, result]
    exact (reequipped_equipItem app peer inventorySlot slot).identities_eq
  | unequipItem peer bytes slot requested result =>
    refine .other peer bytes (by simp [requested]) ?_
    rw [step, result]
    exact (reequipped_unequipItem app peer slot).identities_eq

end EidolonApp

section Bindings

variable {hmacSha256 : List UInt8 → List UInt8 → FixedBytes 32}
variable {gameplay : Gameplay Peer Body World}

theorem BoundTo.mem {app : EidolonApp Peer Body World} {peer : Peer} {accountId : UInt64}
    {entity : ServerEntity Peer Body} (bound : BoundTo app peer accountId entity) :
    entity ∈ app.entities ∧ entity.accountId = some accountId := by
  have kept : entity ∈ app.entities.filter
      (fun other => decide (other.accountId = some accountId)) := by
    rw [bound.only]
    exact List.mem_singleton.mpr rfl
  exact ⟨mem_of_mem_filter kept, of_decide_eq_true (List.mem_filter.mp kept).2⟩

end Bindings

/-- Nobody has come yet: the entities are creatures of the world. -/
structure SessionSystem.Fresh (system : SessionSystem Peer Body World) : Prop where
  distinct : system.app.ids.Nodup
  creatures : ∀ entity ∈ system.app.entities, entity.peerAddr = none ∧ entity.accountId = none
  noSession : ∀ peer, system.session peer = none

omit [DecidableEq Peer] in
theorem SessionSystem.Fresh.joined {system : SessionSystem Peer Body World}
    (fresh : system.Fresh) : system.app.Joined := by
  refine ⟨fresh.distinct, ?_, ?_⟩
  · intro entity here addressed
    exact absurd (fresh.creatures entity here).1 addressed
  intro entity here accountId owned
  rw [(fresh.creatures entity here).2] at owned
  cases owned

private def quiet : Gameplay UInt16 Unit Unit where
  spawnBody := ()
  enter := fun _ world => world
  leave := fun _ world => world
  bodyAfter := fun _ _ entity => entity.body
  worldAfter := fun app _ => app.world

end Eidolon.Server
