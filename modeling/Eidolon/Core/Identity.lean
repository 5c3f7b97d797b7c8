import Eidolon.Library.MachineInt
import Eidolon.Library.SlotTable

/-!
# Identities

Accounts log in with session tickets and select characters.  A selection gives an
authorization, and a later login to the account is meant to end it.
-/

namespace Eidolon.Core

open Library Option

structure AccountId where
  value : UInt64
  deriving DecidableEq

structure CharacterId where
  value : UInt64
  deriving DecidableEq

structure SessionTicket where
  bytes : Vector UInt8 16
  deriving DecidableEq

structure CharacterAuthorization where
  accountId : AccountId
  characterId : CharacterId
  sessionTicket : SessionTicket
  generation : UInt64
  deriving DecidableEq

inductive IdentityError where
  | staleSessionGeneration (expected actual : UInt64)
  | crossAccountCharacterMismatch (characterId : CharacterId)
      (ownerAccount callerAccount : AccountId)
  | sessionRevoked
  | characterNotFound
  | capacityExceeded
  deriving DecidableEq

structure ActiveSession where
  accountId : AccountId
  ticket : SessionTicket
  generation : UInt64
  activeCharacter : Option CharacterId
  deriving DecidableEq

structure CharacterOwnership where
  characterId : CharacterId
  ownerAccount : AccountId
  deriving DecidableEq

structure IdentityRegistry (maxAccounts maxCharacters : Nat) where
  sessions : SlotArray maxAccounts ActiveSession
  characters : SlotArray maxCharacters CharacterOwnership
  sessionCount : Nat
  characterCount : Nat
  deriving DecidableEq

namespace IdentityRegistry

variable {maxAccounts maxCharacters : Nat}

def new (maxAccounts maxCharacters : Nat) : IdentityRegistry maxAccounts maxCharacters where
  sessions := SlotArray.empty _ _
  characters := SlotArray.empty _ _
  sessionCount := 0
  characterCount := 0

variable (registry : IdentityRegistry maxAccounts maxCharacters) (accountId : AccountId)

def sessionOf : Option (Nat × ActiveSession) :=
  registry.sessions.findFirst? fun session => decide (session.accountId = accountId)

def ownershipOf (characterId : CharacterId) : Option (Nat × CharacterOwnership) :=
  registry.characters.findFirst? fun character => decide (character.characterId = characterId)

def registerCharacter (characterId : CharacterId) :
    Except IdentityError Unit × IdentityRegistry maxAccounts maxCharacters :=
  match registry.ownershipOf characterId with
  | some (index, character) =>
    (.ok (),
      { registry with
        characters :=
          registry.characters.set index (some { character with ownerAccount := accountId }) })
  | none =>
    match registry.characters.fillFirst?
        { characterId := characterId, ownerAccount := accountId } with
    | some characters =>
      (.ok (),
        { registry with
          characters := characters
          characterCount := registry.characterCount + 1 })
    | none => (.error .capacityExceeded, registry)

/-- Logs in to an account.  A session that exists gets the ticket and the next generation. -/
def authenticateSession (ticket : SessionTicket) :
    Except IdentityError UInt64 × IdentityRegistry maxAccounts maxCharacters :=
  match registry.sessionOf accountId with
  | some (index, session) =>
    let nextGeneration := saturatingAdd64 session.generation 1
    (.ok nextGeneration,
      { registry with
        sessions := registry.sessions.set index (some
            { session with
              ticket := ticket
              generation := nextGeneration
              activeCharacter := none }) })
  | none =>
    match registry.sessions.fillFirst?
        { accountId := accountId
          ticket := ticket
          generation := 1
          activeCharacter := none } with
    | some sessions =>
      (.ok 1,
        { registry with
          sessions := sessions
          sessionCount := registry.sessionCount + 1 })
    | none => (.error .capacityExceeded, registry)

def selectCharacter (ticket : SessionTicket) (characterId : CharacterId) :
    Except IdentityError CharacterAuthorization × IdentityRegistry maxAccounts maxCharacters :=
  match registry.sessions.findFirst? fun session => decide (session.ticket = ticket) with
  | none => (.error .sessionRevoked, registry)
  | some (index, session) =>
    match registry.ownershipOf characterId with
    | none => (.error .characterNotFound, registry)
    | some (_, character) =>
      if character.ownerAccount ≠ session.accountId then
        (.error (.crossAccountCharacterMismatch characterId character.ownerAccount
          session.accountId), registry)
      else
        (.ok
          { accountId := session.accountId
            characterId := characterId
            sessionTicket := ticket
            generation := session.generation },
          { registry with
            sessions := registry.sessions.set index
              (some { session with activeCharacter := some characterId }) })

def validateCharacterAction (auth : CharacterAuthorization) (targetCharacter : CharacterId) :
    Except IdentityError Unit :=
  if auth.characterId ≠ targetCharacter then
    .error (.crossAccountCharacterMismatch targetCharacter auth.accountId auth.accountId)
  else
    match registry.sessionOf auth.accountId with
    | none => .error .sessionRevoked
    | some (_, session) =>
      if session.ticket ≠ auth.sessionTicket then .error .sessionRevoked
      else if session.generation ≠ auth.generation then
        .error (.staleSessionGeneration session.generation auth.generation)
      else .ok ()

def revokeSession : IdentityRegistry maxAccounts maxCharacters :=
  match registry.sessionOf accountId with
  | none => registry
  | some (index, _) =>
    { registry with
      sessions := registry.sessions.set index none
      sessionCount := registry.sessionCount - 1 }

end IdentityRegistry

end Eidolon.Core

/-!
## The identity registry as two tables

A registry amounts to a table of the sessions of accounts and a table of the owners of
characters.  This is what each operation does to them.
-/

namespace Eidolon.Core

open Library Option

variable {maxAccounts maxCharacters : Nat}

namespace IdentityRegistry

variable (registry : IdentityRegistry maxAccounts maxCharacters)

def session (accountId : AccountId) : Option ActiveSession :=
  registry.sessions.lookup (·.accountId) accountId

def owner (characterId : CharacterId) : Option AccountId :=
  (registry.characters.lookup (·.characterId) characterId).map (·.ownerAccount)

/-- One session for each account and one entry for each character. -/
structure WellFormed (registry : IdentityRegistry maxAccounts maxCharacters) : Prop where
  sessions : registry.sessions.DistinctKeys (·.accountId)
  characters : registry.characters.DistinctKeys (·.characterId)

theorem wellFormed_new : (new maxAccounts maxCharacters).WellFormed := by
  constructor
  · rw [SlotArray.DistinctKeys, new, SlotArray.entries_empty]
    exact List.nodup_nil
  rw [SlotArray.DistinctKeys, new, SlotArray.entries_empty]
  exact List.nodup_nil

variable {registry : IdentityRegistry maxAccounts maxCharacters} {accountId : AccountId}

theorem sessionOf_of_none (without : registry.session accountId = none) :
    registry.sessionOf accountId = none :=
  (SlotArray.findFirst?_of_lookup fun _ => decide_eq_true_iff).1 without

variable {session : ActiveSession}

theorem sessionOf_of_some (wellFormed : registry.WellFormed)
    (here : registry.session accountId = some session) :
    ∃ index, registry.sessionOf accountId = some (index, session) ∧
      registry.sessions.get? index = some session :=
  (SlotArray.findFirst?_of_lookup fun _ => decide_eq_true_iff).2 session wellFormed.sessions here

theorem ownershipOf_of_none {characterId : CharacterId}
    (without : registry.owner characterId = none) : registry.ownershipOf characterId = none :=
  (SlotArray.findFirst?_of_lookup fun _ => decide_eq_true_iff).1 (Option.map_eq_none_iff.mp without)

theorem ownershipOf_of_some (wellFormed : registry.WellFormed) {characterId : CharacterId}
    (here : registry.owner characterId = some accountId) :
    ∃ index character, registry.ownershipOf characterId = some (index, character) ∧
      registry.characters.get? index = some character ∧ character.ownerAccount = accountId := by
  obtain ⟨character, found, owned⟩ := Option.map_eq_some_iff.mp here
  obtain ⟨index, scanned, held⟩ :=
    (SlotArray.findFirst?_of_lookup fun _ => decide_eq_true_iff).2 character
      wellFormed.characters found
  exact ⟨index, character, scanned, held, owned⟩

theorem session_of_get? (wellFormed : registry.WellFormed) {index : Nat}
    (held : registry.sessions.get? index = some session) :
    registry.session session.accountId = some session :=
  SlotArray.lookup_of_get? wellFormed.sessions held

theorem accountId_of_session (here : registry.session accountId = some session) :
    session.accountId = accountId :=
  KeyedList.key_of_find here

structure Registers (before after : IdentityRegistry maxAccounts maxCharacters)
    (accountId : AccountId) (characterId : CharacterId) : Prop where
  wellFormed : after.WellFormed
  sessions : after.sessions = before.sessions
  others : ∀ other, other ≠ characterId → after.owner other = before.owner other
  either : after.owner characterId = some accountId ∨
    after.owner characterId = before.owner characterId ∧ before.owner characterId = none

theorem registers_registerCharacter (wellFormed : registry.WellFormed) (accountId : AccountId)
    (characterId : CharacterId) :
    Registers registry (registry.registerCharacter accountId characterId).2 accountId
      characterId := by
  rw [registerCharacter]
  cases known : registry.owner characterId with
  | some former =>
    obtain ⟨index, character, found, held, _⟩ := ownershipOf_of_some wellFormed known
    have named : character.characterId = characterId := by
      have passes := (SlotArray.findFirst?_eq_some found).2.1
      exact of_decide_eq_true passes
    obtain ⟨distinct, table⟩ := @SlotArray.set_some_spec _ _ _ _ _ _ wellFormed.characters
      index character { character with ownerAccount := accountId } held rfl
    rw [found]
    refine ⟨⟨wellFormed.sessions, distinct⟩, rfl, ?_, .inl ?_⟩
    · intro other different
      rw [owner, table, if_neg (by rw [named]; exact Ne.symm different)]
      rfl
    rw [owner, table, if_pos named]
    rfl
  | none =>
    rw [ownershipOf_of_none known]
    have fresh := Option.map_eq_none_iff.mp known
    cases filled : registry.characters.fillFirst?
        { characterId := characterId, ownerAccount := accountId } with
    | none => exact ⟨wellFormed, rfl, fun _ _ => rfl, .inr ⟨rfl, known⟩⟩
    | some characters =>
      obtain ⟨distinct, table⟩ :=
        SlotArray.fillFirst?_spec wellFormed.characters filled fresh
      refine ⟨⟨wellFormed.sessions, distinct⟩, rfl, ?_, .inl ?_⟩
      · intro other different
        simp only [owner]
        rw [table, if_neg (Ne.symm different)]
      simp only [owner]
      rw [table, if_pos rfl]
      rfl

structure ChangesSession (before after : IdentityRegistry maxAccounts maxCharacters)
    (accountId : AccountId) : Prop where
  wellFormed : after.WellFormed
  characters : after.characters = before.characters
  others : ∀ other, other ≠ accountId → after.session other = before.session other

theorem ChangesSession.owner {before after : IdentityRegistry maxAccounts maxCharacters}
    (changes : ChangesSession before after accountId) (characterId : CharacterId) :
    after.owner characterId = before.owner characterId := by
  rw [IdentityRegistry.owner, IdentityRegistry.owner, changes.characters]

theorem changesSession_self (wellFormed : registry.WellFormed) (accountId : AccountId) :
    ChangesSession registry registry accountId :=
  ⟨wellFormed, rfl, fun _ _ => rfl⟩

theorem changesSession_of_set (wellFormed : registry.WellFormed)
    {after : IdentityRegistry maxAccounts maxCharacters} {index : Nat}
    {session changed : ActiveSession} (held : registry.sessions.get? index = some session)
    (same : changed.accountId = session.accountId)
    (sessions : after.sessions = registry.sessions.set index (some changed))
    (characters : after.characters = registry.characters) :
    ChangesSession registry after session.accountId ∧
      after.session session.accountId = some changed := by
  obtain ⟨distinct, table⟩ := SlotArray.set_some_spec wellFormed.sessions held same
  refine ⟨⟨⟨?_, ?_⟩, characters, ?_⟩, ?_⟩
  · rw [sessions]
    exact distinct
  · rw [characters]
    exact wellFormed.characters
  · intro other different
    rw [IdentityRegistry.session, sessions, table, if_neg (Ne.symm different)]
    rfl
  rw [IdentityRegistry.session, sessions, table, if_pos rfl]

/-- The generation that follows for the session of an account: the next one, or the first one
when there is no session yet and room for one. -/
def Follows (registry : IdentityRegistry maxAccounts maxCharacters) (accountId : AccountId)
    (generation : UInt64) : Prop :=
  match registry.session accountId with
  | some session => generation = saturatingAdd64 session.generation 1
  | none => generation = 1 ∧ registry.sessions.entries.length < maxAccounts

structure LogsIn (before after : IdentityRegistry maxAccounts maxCharacters)
    (accountId : AccountId) (ticket : SessionTicket) : Prop where
  changes : ChangesSession before after accountId
  given : ∀ generation,
    (∃ session, after.session accountId = some session ∧ session.ticket = ticket ∧
      session.generation = generation) ↔ before.Follows accountId generation
  ticket : ∀ session, after.session accountId = some session → session.ticket = ticket

theorem logsIn_authenticateSession (wellFormed : registry.WellFormed) (accountId : AccountId)
    (ticket : SessionTicket) :
    LogsIn registry (registry.authenticateSession accountId ticket).2 accountId ticket := by
  rw [authenticateSession]
  cases known : registry.session accountId with
  | some session =>
    obtain ⟨index, found, held⟩ := sessionOf_of_some wellFormed known
    have named := accountId_of_session known
    rw [found]
    let renewed : ActiveSession :=
      { session with
        ticket := ticket
        generation := saturatingAdd64 session.generation 1
        activeCharacter := none }
    have changed := @changesSession_of_set _ _ registry wellFormed
      { registry with sessions := registry.sessions.set index (some renewed) }
      index session renewed held rfl rfl rfl
    rw [named] at changed
    rcases changed with ⟨changes, here⟩
    refine ⟨changes, ?_, ?_⟩
    · intro generation
      rw [Follows, known]
      constructor
      · intro given
        obtain ⟨other, otherHere, _, otherGeneration⟩ := given
        rw [here, some.injEq] at otherHere
        rw [← otherGeneration, ← otherHere]
      intro follows
      exact ⟨renewed, here, rfl, follows.symm⟩
    intro other otherHere
    rw [here, some.injEq] at otherHere
    rw [← otherHere]
  | none =>
    rw [sessionOf_of_none known]
    have room := @SlotArray.fillFirst?_isSome_iff _ _ registry.sessions
      { accountId := accountId, ticket := ticket, generation := 1, activeCharacter := none }
    cases filled : registry.sessions.fillFirst?
        { accountId := accountId, ticket := ticket, generation := 1, activeCharacter := none } with
    | none =>
      rw [filled] at room
      refine ⟨changesSession_self wellFormed accountId, ?_, ?_⟩
      · intro generation
        rw [Follows, known]
        refine iff_of_false ?_ ?_
        · intro given
          obtain ⟨session, here, _⟩ := given
          cases here
        intro follows
        exact absurd (room.mpr follows.2) Bool.false_ne_true
      intro session here
      exact absurd (known.symm.trans here) (some_ne_none session).symm
    | some sessions =>
      rw [filled] at room
      obtain ⟨distinct, table⟩ := SlotArray.fillFirst?_spec wellFormed.sessions filled known
      have here : sessions.lookup (·.accountId) accountId =
          some (ActiveSession.mk accountId ticket 1 none) := by
        rw [table, if_pos rfl]
      refine ⟨⟨⟨distinct, wellFormed.characters⟩, rfl, ?_⟩, ?_, ?_⟩
      · intro other different
        rw [IdentityRegistry.session, table, if_neg (Ne.symm different)]
        rfl
      · intro generation
        rw [Follows, known]
        constructor
        · intro given
          obtain ⟨session, found, _, generationIs⟩ := given
          rw [IdentityRegistry.session, here, some.injEq] at found
          rw [← generationIs, ← found]
          exact ⟨rfl, room.mp rfl⟩
        intro follows
        exact ⟨⟨accountId, ticket, 1, none⟩, here, rfl, follows.1.symm⟩
      intro session found
      rw [IdentityRegistry.session, here, some.injEq] at found
      rw [← found]

/-- A selection keeps the ticket and the generation of each session, and the authorization it
gives has those of its account and is for a character of its account. -/
theorem selectCharacter_spec (wellFormed : registry.WellFormed) (ticket : SessionTicket)
    (characterId : CharacterId) :
    let outcome := registry.selectCharacter ticket characterId
    (outcome.2 = registry ∧ ∃ error, outcome.1 = .error error) ∨
      ∃ session : ActiveSession, registry.session session.accountId = some session ∧
        session.ticket = ticket ∧
        registry.owner characterId = some session.accountId ∧
        outcome.1 = .ok ⟨session.accountId, characterId, ticket, session.generation⟩ ∧
        ChangesSession registry outcome.2 session.accountId ∧
        outcome.2.session session.accountId =
          some { session with activeCharacter := some characterId } := by
  intro outcome
  have outcomeIs : outcome = registry.selectCharacter ticket characterId := rfl
  rw [selectCharacter] at outcomeIs
  cases scanned : registry.sessions.findFirst? fun session => decide (session.ticket = ticket) with
  | none =>
    rw [scanned] at outcomeIs
    rw [outcomeIs]
    exact .inl ⟨rfl, _, rfl⟩
  | some place =>
    rcases place with ⟨index, session⟩
    obtain ⟨held, passes, _⟩ := SlotArray.findFirst?_eq_some scanned
    have ticketIs : session.ticket = ticket := of_decide_eq_true passes
    rw [scanned] at outcomeIs
    rcases owned : registry.owner characterId with _ | accountId
    · rw [ownershipOf_of_none owned] at outcomeIs
      rw [outcomeIs]
      exact .inl ⟨rfl, _, rfl⟩
    obtain ⟨_, character, found, _, ownerIs⟩ := ownershipOf_of_some wellFormed owned
    rw [found] at outcomeIs
    simp only [ownerIs] at outcomeIs
    by_cases own : accountId = session.accountId
    · rw [if_neg (not_not_intro own)] at outcomeIs
      have changed := @changesSession_of_set _ _ registry wellFormed outcome.2 index session
        { session with activeCharacter := some characterId } held rfl
        (by rw [outcomeIs]) (by rw [outcomeIs])
      rw [own]
      refine .inr ⟨session, session_of_get? wellFormed held, ticketIs, rfl, ?_, changed⟩
      rw [outcomeIs]
    rw [if_pos own] at outcomeIs
    rw [outcomeIs]
    exact .inl ⟨rfl, _, rfl⟩

theorem revokeSession_spec (wellFormed : registry.WellFormed) (accountId : AccountId) :
    ChangesSession registry (registry.revokeSession accountId) accountId ∧
      (registry.revokeSession accountId).session accountId = none := by
  rw [revokeSession]
  rcases known : registry.session accountId with _ | session
  · rw [sessionOf_of_none known]
    exact ⟨changesSession_self wellFormed accountId, known⟩
  obtain ⟨index, found, held⟩ := sessionOf_of_some wellFormed known
  have named := accountId_of_session known
  have table := SlotArray.lookup_set_none wellFormed.sessions held
  have distinct := SlotArray.distinctKeys_set_none wellFormed.sessions held
  rw [found]
  refine ⟨⟨⟨distinct, wellFormed.characters⟩, rfl, ?_⟩, ?_⟩
  · intro other different
    rw [IdentityRegistry.session, table, if_neg (by rw [named]; exact Ne.symm different)]
    rfl
  rw [IdentityRegistry.session, table, if_pos named]

def Passes (registry : IdentityRegistry maxAccounts maxCharacters)
    (auth : CharacterAuthorization) : Prop :=
  registry.validateCharacterAction auth auth.characterId = .ok ()

theorem passes_iff (wellFormed : registry.WellFormed) {auth : CharacterAuthorization} :
    registry.Passes auth ↔ ∃ session, registry.session auth.accountId = some session ∧
        session.ticket = auth.sessionTicket ∧ session.generation = auth.generation := by
  rw [Passes, validateCharacterAction, if_neg (not_not_intro rfl)]
  rcases known : registry.session auth.accountId with _ | session
  · rw [sessionOf_of_none known]
    refine iff_of_false (fun passes => ?_) (fun here => ?_)
    · cases passes
    obtain ⟨session, found, _⟩ := here
    cases found
  obtain ⟨index, found, _⟩ := sessionOf_of_some wellFormed known
  rw [found]
  simp only [some.injEq, exists_eq_left']
  by_cases sameTicket : session.ticket = auth.sessionTicket
  · rw [if_neg (not_not_intro sameTicket)]
    by_cases sameGeneration : session.generation = auth.generation
    · rw [if_neg (not_not_intro sameGeneration)]
      exact iff_of_true rfl ⟨sameTicket, sameGeneration⟩
    rw [if_pos sameGeneration]
    exact iff_of_false (fun passes => by cases passes) (fun both => sameGeneration both.2)
  rw [if_pos sameTicket]
  exact iff_of_false (fun passes => by cases passes) (fun both => sameTicket both.1)

end IdentityRegistry

end Eidolon.Core
