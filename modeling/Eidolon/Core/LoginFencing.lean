import Eidolon.Core.Identity
import Eidolon.Library.Run

/-!
# Fencing of logins

A later login to an account should end the authorizations from before it, and an
authorization should be worth something only while its account owns the character.  The
check of an authorization reads the ticket and the generation of the account's session, so
this holds as long as no login gives a session a ticket and a generation that were given out
before and no character changes its owner under an authorization.
-/

namespace Eidolon.Core

open Library List Option

variable {maxAccounts maxCharacters : Nat}

inductive IdentityCall where
  | registerCharacter (accountId : AccountId) (characterId : CharacterId)
  | authenticateSession (accountId : AccountId) (ticket : SessionTicket)
  | selectCharacter (ticket : SessionTicket) (characterId : CharacterId)
  | revokeSession (accountId : AccountId)
  deriving DecidableEq

def IdentityCall.Ends (call : IdentityCall) (accountId : AccountId) : Prop :=
  match call with
  | .authenticateSession account _ => account = accountId
  | .revokeSession account => account = accountId
  | _ => False

structure IssuedAuthorization where
  authorization : CharacterAuthorization
  since : List IdentityCall
  deriving DecidableEq

namespace IssuedAuthorization

variable (issued : IssuedAuthorization)

def note (call : IdentityCall) : IssuedAuthorization :=
  { issued with since := issued.since ++ [call] }

/-- No login to the account and no logout from it since the authorization was given out. -/
def Undisturbed : Prop :=
  ∀ call ∈ issued.since, ¬ call.Ends issued.authorization.accountId

theorem undisturbed_note {issued : IssuedAuthorization} {call : IdentityCall} :
    (issued.note call).Undisturbed ↔
      issued.Undisturbed ∧ ¬ call.Ends issued.authorization.accountId := by
  simp only [Undisturbed, note, mem_append, mem_singleton, or_imp, forall_and, forall_eq]

end IssuedAuthorization

structure IdentityHistory (maxAccounts maxCharacters : Nat) where
  registry : IdentityRegistry maxAccounts maxCharacters
  issued : List IssuedAuthorization

namespace IdentityHistory

def start (maxAccounts maxCharacters : Nat) : IdentityHistory maxAccounts maxCharacters where
  registry := IdentityRegistry.new _ _
  issued := []

variable (history : IdentityHistory maxAccounts maxCharacters) (call : IdentityCall)

def given : List IssuedAuthorization :=
  match call with
  | .selectCharacter ticket characterId =>
    match (history.registry.selectCharacter ticket characterId).1 with
    | .ok authorization => [⟨authorization, []⟩]
    | .error _ => []
  | _ => []

def registryAfter : IdentityRegistry maxAccounts maxCharacters :=
  match call with
  | .registerCharacter accountId characterId =>
    (history.registry.registerCharacter accountId characterId).2
  | .authenticateSession accountId ticket =>
    (history.registry.authenticateSession accountId ticket).2
  | .selectCharacter ticket characterId => (history.registry.selectCharacter ticket characterId).2
  | .revokeSession accountId => history.registry.revokeSession accountId

def step : IdentityHistory maxAccounts maxCharacters where
  registry := history.registryAfter call
  issued := history.issued.map (·.note call) ++ history.given call

/-- What should hold of the authorizations at any moment. -/
structure Fenced (history : IdentityHistory maxAccounts maxCharacters) : Prop where
  current : ∀ issued ∈ history.issued, history.registry.Passes issued.authorization →
    issued.Undisturbed ∧
      history.registry.owner issued.authorization.characterId =
        some issued.authorization.accountId
  single : ∀ first ∈ history.issued, ∀ second ∈ history.issued,
    first.authorization.characterId = second.authorization.characterId →
      history.registry.Passes first.authorization →
        history.registry.Passes second.authorization →
          first.authorization.accountId = second.authorization.accountId

/-- A character keeps its owner while an undisturbed authorization is out for it, and a login
does not bring back the ticket and the generation of an earlier authorization. -/
def KeepsFence :
    Prop :=
  match call with
  | .registerCharacter accountId characterId =>
    ∀ issued ∈ history.issued, issued.Undisturbed → issued.authorization.characterId = characterId →
        issued.authorization.accountId = accountId
  | .authenticateSession accountId ticket =>
    ∀ issued ∈ history.issued, issued.authorization.accountId = accountId →
      issued.authorization.sessionTicket = ticket →
        ¬ history.registry.Follows accountId issued.authorization.generation
  | _ => True

/-- Sessions stay as they were while nobody logs in or out. -/
structure Sound (history : IdentityHistory maxAccounts maxCharacters) : Prop where
  wellFormed : history.registry.WellFormed
  undisturbed : ∀ issued ∈ history.issued, issued.Undisturbed →
    history.registry.Passes issued.authorization

theorem sound_start : (start maxAccounts maxCharacters).Sound :=
  ⟨IdentityRegistry.wellFormed_new, fun _ member => absurd member not_mem_nil⟩

theorem fenced_start : (start maxAccounts maxCharacters).Fenced :=
  ⟨fun _ member => absurd member not_mem_nil, fun _ member => absurd member not_mem_nil⟩

variable {history : IdentityHistory maxAccounts maxCharacters}

theorem fenced_iff : history.Fenced ↔
    ∀ issued ∈ history.issued, history.registry.Passes issued.authorization → issued.Undisturbed ∧
        history.registry.owner issued.authorization.characterId =
          some issued.authorization.accountId := by
  constructor
  · exact Fenced.current
  intro current
  refine ⟨current, ?_⟩
  intro first firstMember second secondMember same firstPasses secondPasses
  have firstOwner := (current first firstMember firstPasses).2
  have secondOwner := (current second secondMember secondPasses).2
  rw [same, secondOwner, some.injEq] at firstOwner
  exact firstOwner.symm

/-- A call that does not end the authorizations of an account leaves them as they are, and an
authorization that it gives out passes and is for a character of its account. -/
structure Respects (history : IdentityHistory maxAccounts maxCharacters) (call : IdentityCall) :
    Prop where
  wellFormed : (history.registryAfter call).WellFormed
  kept : ∀ auth : CharacterAuthorization, ¬ call.Ends auth.accountId →
    ((history.registryAfter call).Passes auth ↔ history.registry.Passes auth)
  given : ∀ issued ∈ history.given call, issued.since = [] ∧
    (history.registryAfter call).Passes issued.authorization ∧
      (history.registryAfter call).owner issued.authorization.characterId =
        some issued.authorization.accountId

private theorem passes_of_changes {before after : IdentityRegistry maxAccounts maxCharacters}
    (wellFormed : before.WellFormed) {accountId : AccountId}
    (changes : before.ChangesSession after accountId) {auth : CharacterAuthorization}
    (different : auth.accountId ≠ accountId) : after.Passes auth ↔ before.Passes auth := by
  rw [IdentityRegistry.passes_iff changes.wellFormed, IdentityRegistry.passes_iff wellFormed,
    changes.others auth.accountId different]

section

variable (wellFormed : history.registry.WellFormed)
include wellFormed

theorem respects_registerCharacter (accountId : AccountId) (characterId : CharacterId) :
    history.Respects (.registerCharacter accountId characterId) := by
  have registers :=
    IdentityRegistry.registers_registerCharacter wellFormed accountId characterId
  refine ⟨registers.wellFormed, ?_, fun _ member => absurd member not_mem_nil⟩
  intro auth _
  rw [registryAfter, IdentityRegistry.passes_iff registers.wellFormed,
    IdentityRegistry.passes_iff wellFormed]
  simp only [IdentityRegistry.session, registers.sessions]

theorem respects_authenticateSession (accountId : AccountId) (ticket : SessionTicket) :
    history.Respects (.authenticateSession accountId ticket) := by
  have logsIn := IdentityRegistry.logsIn_authenticateSession wellFormed accountId ticket
  refine ⟨logsIn.changes.wellFormed, ?_, fun _ member => absurd member not_mem_nil⟩
  intro auth notEnded
  exact passes_of_changes wellFormed logsIn.changes (Ne.symm notEnded)

theorem respects_revokeSession (accountId : AccountId) :
    history.Respects (.revokeSession accountId) := by
  have changes := (IdentityRegistry.revokeSession_spec wellFormed accountId).1
  refine ⟨changes.wellFormed, ?_, fun _ member => absurd member not_mem_nil⟩
  intro auth notEnded
  exact passes_of_changes wellFormed changes (Ne.symm notEnded)

theorem respects_selectCharacter (ticket : SessionTicket) (characterId : CharacterId) :
    history.Respects (.selectCharacter ticket characterId) := by
  rcases IdentityRegistry.selectCharacter_spec wellFormed ticket characterId with
    refused | selected
  · obtain ⟨unchanged, error, refusal⟩ := refused
    refine ⟨?_, ?_, ?_⟩
    · rw [registryAfter, unchanged]
      exact wellFormed
    · intro auth _
      rw [registryAfter, unchanged]
    intro issued member
    rw [IdentityHistory.given, refusal] at member
    exact absurd member not_mem_nil
  obtain ⟨session, here, ticketIs, owned, result, changes, after⟩ := selected
  refine ⟨changes.wellFormed, ?_, ?_⟩
  · intro auth _
    by_cases own : auth.accountId = session.accountId
    · -- the session of the account has another active character only
      rw [registryAfter, IdentityRegistry.passes_iff changes.wellFormed,
        IdentityRegistry.passes_iff wellFormed, own, after, here]
      simp only [some.injEq, exists_eq_left']
    exact passes_of_changes wellFormed changes own
  intro issued member
  rw [IdentityHistory.given, result, mem_singleton] at member
  rw [member]
  refine ⟨rfl, ?_, ?_⟩
  · rw [registryAfter, IdentityRegistry.passes_iff changes.wellFormed]
    exact ⟨_, after, ticketIs, rfl⟩
  rw [registryAfter, changes.owner]
  exact owned

theorem respects (call : IdentityCall) : history.Respects call := by
  cases call with
  | registerCharacter accountId characterId =>
    exact respects_registerCharacter wellFormed accountId characterId
  | authenticateSession accountId ticket =>
    exact respects_authenticateSession wellFormed accountId ticket
  | selectCharacter ticket characterId =>
    exact respects_selectCharacter wellFormed ticket characterId
  | revokeSession accountId => exact respects_revokeSession wellFormed accountId

end

section

variable (sound : history.Sound)
include sound

theorem Sound.step (call : IdentityCall) : (history.step call).Sound := by
  have respected := respects sound.wellFormed call
  refine ⟨respected.wellFormed, ?_⟩
  intro issued member undisturbed
  rcases mem_append.mp member with earlier | new
  · obtain ⟨before, beforeMember, rfl⟩ := mem_map.mp earlier
    rcases IssuedAuthorization.undisturbed_note.mp undisturbed with ⟨undisturbedBefore, notEnded⟩
    exact (respected.kept before.authorization notEnded).mpr
      (sound.undisturbed before beforeMember undisturbedBefore)
  exact (respected.given issued new).2.1

theorem fenced_step_iff (call : IdentityCall) : (history.step call).Fenced ↔
      ∀ issued ∈ history.issued, (history.registryAfter call).Passes issued.authorization →
          (issued.note call).Undisturbed ∧
            (history.registryAfter call).owner issued.authorization.characterId =
              some issued.authorization.accountId := by
  rw [fenced_iff]
  constructor
  · intro current issued member passes
    exact current (issued.note call)
      (mem_append_left _ (mem_map.mpr ⟨issued, member, rfl⟩)) passes
  intro earlierCurrent issued member passes
  rcases mem_append.mp member with earlier | new
  · obtain ⟨before, beforeMember, rfl⟩ := mem_map.mp earlier
    exact earlierCurrent before beforeMember passes
  obtain ⟨justNow, _, owned⟩ := (respects sound.wellFormed call).given issued new
  refine ⟨?_, owned⟩
  intro later laterMember
  rw [justNow] at laterMember
  exact absurd laterMember not_mem_nil

private theorem fenced_step_of_owner (fenced : history.Fenced) {call : IdentityCall}
    (ended : ∀ issued ∈ history.issued, call.Ends issued.authorization.accountId →
      ¬ (history.registryAfter call).Passes issued.authorization)
    (owners : ∀ characterId,
      (history.registryAfter call).owner characterId = history.registry.owner characterId) :
    (history.step call).Fenced := by
  rw [fenced_step_iff sound]
  intro issued member passes
  have notEnded : ¬ call.Ends issued.authorization.accountId :=
    fun ends => ended issued member ends passes
  have passedBefore :=
    ((respects sound.wellFormed call).kept issued.authorization notEnded).mp passes
  obtain ⟨undisturbed, owned⟩ := fenced.current issued member passedBefore
  rw [owners]
  exact ⟨IssuedAuthorization.undisturbed_note.mpr ⟨undisturbed, notEnded⟩, owned⟩

theorem fenced_registerCharacter_iff (fenced : history.Fenced) (accountId : AccountId)
    (characterId : CharacterId) :
    (history.step (.registerCharacter accountId characterId)).Fenced ↔
      history.KeepsFence (.registerCharacter accountId characterId) := by
  have registers :=
    IdentityRegistry.registers_registerCharacter sound.wellFormed accountId characterId
  have kept := (respects_registerCharacter sound.wellFormed accountId characterId).kept
  rw [fenced_step_iff sound]
  constructor
  · intro current issued member undisturbed same
    have passes := (kept issued.authorization not_false).mpr
      (sound.undisturbed issued member undisturbed)
    have owned := (current issued member passes).2
    rw [same] at owned
    rcases registers.either with linked | ⟨unchanged, unknown⟩
    · exact some.inj (owned.symm.trans linked)
    exact absurd (owned.symm.trans (unchanged.trans unknown)) (some_ne_none _)
  intro keeps issued member passes
  have passedBefore := (kept issued.authorization not_false).mp passes
  obtain ⟨undisturbed, owned⟩ := fenced.current issued member passedBefore
  refine ⟨IssuedAuthorization.undisturbed_note.mpr ⟨undisturbed, not_false⟩, ?_⟩
  by_cases same : issued.authorization.characterId = characterId
  · have ownAccount := keeps issued member undisturbed same
    rw [same] at owned ⊢
    rcases registers.either with linked | ⟨_, unknown⟩
    · rw [ownAccount]
      exact linked
    exact absurd (owned.symm.trans unknown) (some_ne_none _)
  exact (registers.others _ same).trans owned

theorem fenced_authenticateSession_iff (fenced : history.Fenced) (accountId : AccountId)
    (ticket : SessionTicket) :
    (history.step (.authenticateSession accountId ticket)).Fenced ↔
      history.KeepsFence (.authenticateSession accountId ticket) := by
  have logsIn := IdentityRegistry.logsIn_authenticateSession sound.wellFormed accountId ticket
  have passesIff := @IdentityRegistry.passes_iff _ _ _ logsIn.changes.wellFormed
  constructor
  · intro fencedAfter issued member sameAccount sameTicket follows
    obtain ⟨session, here, ticketIs, generationIs⟩ :=
      (logsIn.given issued.authorization.generation).mpr follows
    have passes : (history.registry.authenticateSession accountId ticket).2.Passes
        issued.authorization := by
      rw [passesIff, sameAccount, sameTicket]
      exact ⟨session, here, ticketIs, generationIs⟩
    have undisturbed := ((fenced_step_iff sound _).mp fencedAfter issued member passes).1
    exact (IssuedAuthorization.undisturbed_note.mp undisturbed).2 sameAccount.symm
  intro keeps
  refine fenced_step_of_owner sound fenced ?_ logsIn.changes.owner
  intro issued member ends passes
  have sameAccount : issued.authorization.accountId = accountId := Eq.symm ends
  obtain ⟨session, here, ticketIs, generationIs⟩ := passesIff.mp passes
  rw [sameAccount] at here
  have given := logsIn.ticket session here
  exact keeps issued member sameAccount (ticketIs.symm.trans given)
    ((logsIn.given _).mp ⟨session, here, given, generationIs⟩)

theorem fenced_step_iff_keepsFence (fenced : history.Fenced) (call : IdentityCall) :
    (history.step call).Fenced ↔ history.KeepsFence call := by
  cases call with
  | registerCharacter accountId characterId =>
    exact fenced_registerCharacter_iff sound fenced accountId characterId
  | authenticateSession accountId ticket =>
    exact fenced_authenticateSession_iff sound fenced accountId ticket
  | selectCharacter ticket characterId =>
    refine iff_of_true (fenced_step_of_owner sound fenced ?_ ?_) trivial
    · intro issued _ ends
      exact absurd ends not_false
    intro other
    rcases IdentityRegistry.selectCharacter_spec sound.wellFormed ticket characterId with
      refused | selected
    · rw [registryAfter, refused.1]
    obtain ⟨_, _, _, _, _, changes, _⟩ := selected
    exact changes.owner other
  | revokeSession accountId =>
    obtain ⟨changes, without⟩ :=
      IdentityRegistry.revokeSession_spec sound.wellFormed accountId
    refine iff_of_true (fenced_step_of_owner sound fenced ?_ changes.owner) trivial
    intro issued _ ends passes
    have sameAccount : issued.authorization.accountId = accountId := Eq.symm ends
    obtain ⟨session, here, _⟩ :=
      (IdentityRegistry.passes_iff changes.wellFormed).mp passes
    rw [sameAccount, without] at here
    cases here

end

/-- A run is fenced throughout exactly if all its calls keep the fence. -/
theorem login_fencing_iff (calls : List IdentityCall) :
    Throughout step Fenced (start maxAccounts maxCharacters) calls ↔
      EachStep step KeepsFence (start maxAccounts maxCharacters) calls := by
  have preserved : ∀ (history : IdentityHistory maxAccounts maxCharacters) call,
      history.Sound → history.Fenced → (history.step call).Sound :=
    fun _ call sound _ => sound.step call
  have exactly : ∀ (history : IdentityHistory maxAccounts maxCharacters) call,
      history.Sound → history.Fenced → ((history.step call).Fenced ↔ history.KeepsFence call) :=
    fun _ call sound fenced => fenced_step_iff_keepsFence sound fenced call
  exact throughout_iff_eachStep preserved exactly sound_start fenced_start calls

private def seller : AccountId :=
  ⟨101⟩

private def buyer : AccountId :=
  ⟨102⟩

private def sold : CharacterId :=
  ⟨5001⟩

private def sellerTicket : SessionTicket :=
  ⟨Vector.replicate 16 0xAA⟩

private def sale : List IdentityCall :=
  [.registerCharacter seller sold, .authenticateSession seller sellerTicket,
    .selectCharacter sellerTicket sold, .registerCharacter buyer sold]

/-- The former owner can go on acting for the character. -/
theorem not_login_fencing_sale : ¬ ∀ (maxAccounts maxCharacters : Nat) (calls : List IdentityCall),
      Throughout step Fenced (start maxAccounts maxCharacters) calls := by
  intro always
  have fenced := (always 16 64 sale).run
  have passes : (run step (start 16 64) sale).registry.validateCharacterAction
      ⟨seller, sold, sellerTicket, 1⟩ sold = .ok () := by decide +kernel
  have current := fenced.current
  have ownedBySeller := (current _ (mem_singleton_self _) passes).2
  exact absurd ownedBySeller (by decide)

end IdentityHistory

end Eidolon.Core
