import Eidolon.Core.Fixed
import Eidolon.Library.FiniteMap
import Eidolon.Library.Grouping
import Eidolon.Library.Run
import Eidolon.World.Error

/-!
# Parties and invitations

Groups of up to eight accounts with a leader, and the manager that keeps the parties, the
party of each account and the pending invitations.
-/

namespace Eidolon.World

open Core Function List Option

def maxGroupMembers : Nat := 8

structure PartyMember where
  accountId : UInt64
  entityId : UInt32
  name : String
  health : UInt32
  maxHealth : UInt32
  mana : UInt32
  maxMana : UInt32
  position : Vec3Fix

structure Party where
  partyId : UInt64
  leaderAccountId : UInt64
  members : List PartyMember

namespace Party

def new (partyId : UInt64) (leader : PartyMember) : Party where
  partyId := partyId
  leaderAccountId := leader.accountId
  members := [leader]

variable (party : Party) (accountId : UInt64)

def isMember : Bool :=
  party.members.any fun member => member.accountId == accountId

def isLeader : Bool :=
  party.leaderAccountId == accountId

def addMember (member : PartyMember) : Except WorldError Unit × Party :=
  if maxGroupMembers ≤ party.members.length then
    (.error (.transactionAborted "Party is full"), party)
  else if party.isMember member.accountId then
    (.error (.transactionAborted "Player already in party"), party)
  else
    (.ok (), { party with members := party.members ++ [member] })

/-- Removes a member, whose place as the leader goes to the first of the others; tells
whether the party is empty. -/
def removeMember : Except WorldError Bool × Party :=
  match party.members.findIdx? fun member => member.accountId == accountId with
  | none => (.error (.transactionAborted "Player not in party"), party)
  | some pos =>
    let members := party.members.eraseIdx pos
    match members with
    | [] => (.ok true, { party with members := members })
    | first :: _ =>
      if party.leaderAccountId = accountId then
        (.ok false, { party with members := members, leaderAccountId := first.accountId })
      else
        (.ok false, { party with members := members })

end Party

abbrev Parties := Finmap fun _ : UInt64 => Party

structure PartyManager where
  nextPartyId : UInt64
  parties : Parties
  accountToParty : Finmap fun _ : UInt64 => UInt64
  pendingInvites : Finmap fun _ : UInt64 => UInt64

namespace PartyManager

def new : PartyManager where
  nextPartyId := 1
  parties := ∅
  accountToParty := ∅
  pendingInvites := ∅

variable (manager : PartyManager)

def createParty (leader : PartyMember) : Except WorldError UInt64 × PartyManager :=
  match manager.accountToParty.lookup leader.accountId with
  | some _ => (.error (.transactionAborted "Player already in a party"), manager)
  | none =>
    let partyId := manager.nextPartyId
    (.ok partyId,
      { manager with
        nextPartyId := partyId + 1
        parties := manager.parties.insert partyId (Party.new partyId leader)
        accountToParty := manager.accountToParty.insert leader.accountId partyId })

def invitePlayer (partyId callerAccount targetAccount : UInt64) :
    Except WorldError Unit × PartyManager :=
  match manager.parties.lookup partyId with
  | none => (.error (.transactionAborted "Party does not exist"), manager)
  | some party =>
    if ¬ party.isLeader callerAccount then
      (.error (.transactionAborted "Only party leader can invite"), manager)
    else if maxGroupMembers ≤ party.members.length then
      (.error (.transactionAborted "Party is full"), manager)
    else if (manager.accountToParty.lookup targetAccount).isSome then
      (.error (.transactionAborted "Target player already in a party"), manager)
    else
      (.ok (),
        { manager with
          pendingInvites := manager.pendingInvites.insert targetAccount partyId })

def acceptInvite (targetAccount : UInt64) (member : PartyMember) :
    Except WorldError UInt64 × PartyManager :=
  match manager.pendingInvites.lookup targetAccount with
  | none => (.error (.transactionAborted "No pending invitation found"), manager)
  | some partyId =>
    let taken :=
      { manager with pendingInvites := manager.pendingInvites.erase targetAccount }
    match taken.parties.lookup partyId with
    | none => (.error (.transactionAborted "Party no longer exists"), taken)
    | some party =>
      match party.addMember member with
      | (.error error, unchanged) =>
        (.error error, { taken with parties := taken.parties.insert partyId unchanged })
      | (.ok (), joined) =>
        (.ok partyId,
          { taken with
            parties := taken.parties.insert partyId joined
            accountToParty := taken.accountToParty.insert targetAccount partyId })

def declineInvite (targetAccount : UInt64) : PartyManager :=
  { manager with pendingInvites := manager.pendingInvites.erase targetAccount }

def leaveParty (accountId : UInt64) : Except WorldError (Option UInt64) × PartyManager :=
  match manager.accountToParty.lookup accountId with
  | none => (.ok none, manager)
  | some partyId =>
    let unmapped :=
      { manager with accountToParty := manager.accountToParty.erase accountId }
    match unmapped.parties.lookup partyId with
    | none => (.ok (some partyId), unmapped)
    | some party =>
      match party.removeMember accountId with
      | (.error error, unchanged) =>
        (.error error, { unmapped with parties := unmapped.parties.insert partyId unchanged })
      | (.ok true, _) =>
        (.ok (some partyId), { unmapped with parties := unmapped.parties.erase partyId })
      | (.ok false, left) =>
        (.ok (some partyId), { unmapped with parties := unmapped.parties.insert partyId left })

end PartyManager

/-- A call of the manager. -/
inductive PartyCall where
  | create (leader : PartyMember)
  | invite (partyId callerAccount targetAccount : UInt64)
  | accept (targetAccount : UInt64) (member : PartyMember)
  | decline (targetAccount : UInt64)
  | leave (accountId : UInt64)

def PartyManager.step (manager : PartyManager) : PartyCall → PartyManager
  | .create leader => (manager.createParty leader).2
  | .invite partyId callerAccount targetAccount =>
    (manager.invitePlayer partyId callerAccount targetAccount).2
  | .accept targetAccount member => (manager.acceptInvite targetAccount member).2
  | .decline targetAccount => manager.declineInvite targetAccount
  | .leave accountId => (manager.leaveParty accountId).2

end Eidolon.World

/-!
## Membership in parties

Each account is in one party at most and the map from accounts to parties says in which.
Invitations are checked when they are made and not when they are accepted, so this holds as
long as no account accepts one while it is in another party.
-/

namespace Eidolon.World

open Core Function Library List Option

namespace Party

def accounts (party : Party) : List UInt64 :=
  party.members.map (·.accountId)

structure Sound (party : Party) : Prop where
  sized : 1 ≤ party.members.length ∧ party.members.length ≤ maxGroupMembers
  distinct : party.accounts.Nodup
  led : party.leaderAccountId ∈ party.accounts

variable {party : Party} {accountId : UInt64}

theorem isMember_iff : party.isMember accountId ↔ accountId ∈ party.accounts := by
  rw [isMember, List.any_eq_true, accounts, List.mem_map]
  simp only [beq_iff_eq]

theorem sound_new (partyId : UInt64) (leader : PartyMember) : (new partyId leader).Sound := by
  refine ⟨⟨Nat.le_refl 1, Nat.succ_le_succ (Nat.zero_le 7)⟩, nodup_singleton _, ?_⟩
  exact mem_singleton_self _

theorem addMember_of_notMem (sound : party.Sound) {member : PartyMember}
    (space : party.members.length < maxGroupMembers) (outside : member.accountId ∉ party.accounts) :
    ∃ joined, party.addMember member = (.ok (), joined) ∧ joined.Sound ∧
      joined.accounts = party.accounts ++ [member.accountId] := by
  have notMember : ¬ party.isMember member.accountId := fun here =>
    outside (isMember_iff.mp here)
  have notFull : ¬ maxGroupMembers ≤ party.members.length := Nat.not_le_of_lt space
  refine ⟨{ party with members := party.members ++ [member] }, ?_, ?_, ?_⟩
  · rw [addMember, if_neg notFull, if_neg notMember]
  · have accountsAfter : (party.members ++ [member]).map (·.accountId) =
        party.accounts ++ [member.accountId] := map_append
    refine ⟨?_, ?_, ?_⟩
    · simp only [length_append, length_singleton]
      omega
    · rw [accounts, accountsAfter, ← concat_eq_append]
      exact sound.distinct.concat outside
    rw [accounts, accountsAfter]
    exact mem_append_left _ sound.led
  exact map_append

theorem addMember_of_full (member : PartyMember) (full : maxGroupMembers ≤ party.members.length) :
    party.addMember member = (.error (.transactionAborted "Party is full"), party) := by
  rw [addMember, if_pos full]

theorem addMember_of_mem {member : PartyMember} (inside : member.accountId ∈ party.accounts) :
    ∃ error, party.addMember member = (.error error, party) := by
  rw [addMember, if_pos (isMember_iff.mpr inside)]
  split <;> exact ⟨_, rfl⟩

theorem accounts_eraseIdx {pos : Nat} {members : List PartyMember}
    (found : members.findIdx? (fun member => member.accountId == accountId) = some pos) :
    (members.eraseIdx pos).map (·.accountId) = (members.map (·.accountId)).erase accountId := by
  have erased := @eraseP_eq_eraseIdx _ members fun member => member.accountId == accountId
  rw [found] at erased
  simp only at erased
  rw [← erased, erase_eq_eraseP', eraseP_map]
  rfl

theorem removeMember_spec (sound : party.Sound) (inside : accountId ∈ party.accounts) :
    ∃ empty left, party.removeMember accountId = (.ok empty, left) ∧
      left.accounts = party.accounts.erase accountId ∧
      (if empty then left.accounts = [] else left.Sound) := by
  rcases found : party.members.findIdx? (fun member => member.accountId == accountId) with _ | pos
  · rw [List.findIdx?_eq_none_iff] at found
    obtain ⟨member, here, same⟩ := List.mem_map.mp inside
    have different := found member here
    simp [same] at different
  have erased := accounts_eraseIdx found
  rcases left : party.members.eraseIdx pos with _ | ⟨first, others⟩
  · rw [left] at erased
    refine ⟨true, { party with members := [] }, ?_, erased, rfl⟩
    rw [removeMember, found]
    simp only [left]
  rw [left] at erased
  have bound : (first :: others).length ≤ maxGroupMembers := by
    rw [← left]
    exact Nat.le_trans (length_eraseIdx_le _ _) sound.sized.2
  have distinct : ((first :: others).map (·.accountId)).Nodup := by
    rw [erased]
    exact sound.distinct.erase accountId
  have sized : 1 ≤ (first :: others).length ∧ (first :: others).length ≤ maxGroupMembers :=
    ⟨Nat.succ_le_succ (Nat.zero_le _), bound⟩
  by_cases leads : party.leaderAccountId = accountId
  · refine ⟨false, { party with members := first :: others, leaderAccountId := first.accountId },
      ?_, erased, ⟨sized, distinct, mem_cons_self⟩⟩
    rw [removeMember, found]
    simp only [left, if_pos leads]
  refine ⟨false, { party with members := first :: others }, ?_, erased,
    ⟨sized, distinct, ?_⟩⟩
  · rw [removeMember, found]
    simp only [left, if_neg leads]
  change party.leaderAccountId ∈ (first :: others).map (·.accountId)
  rw [erased]
  exact (mem_erase_of_ne leads).mpr sound.led

end Party

variable (parties : Parties) (partyId : UInt64)

def membersOf : List UInt64 :=
  match parties.lookup partyId with
  | none => []
  | some party => party.accounts

theorem membersOf_of_some {parties : Parties} {partyId : UInt64} {party : Party}
    (found : parties.lookup partyId = some party) : membersOf parties partyId = party.accounts := by
  rw [membersOf, found]

theorem membersOf_insert (party : Party) : membersOf (parties.insert partyId party) =
      Function.update (membersOf parties) partyId party.accounts := by
  funext other
  by_cases same : other = partyId
  · rw [same, membersOf, Finmap.lookup_insert, update_self]
  rw [membersOf, Finmap.lookup_insert_of_ne _ same, update_of_ne same, membersOf]

theorem membersOf_erase :
    membersOf (parties.erase partyId) = Function.update (membersOf parties) partyId [] := by
  funext other
  by_cases same : other = partyId
  · rw [same, membersOf, Finmap.lookup_erase, update_self]
  rw [membersOf, Finmap.lookup_erase_ne same, update_of_ne same, membersOf]

namespace PartyManager

/-- The property of a manager. -/
structure WellFormed (manager : PartyManager) : Prop where
  sound : ∀ partyId party, manager.parties.lookup partyId = some party → party.Sound
  single : ∀ accountId partyId other, accountId ∈ membersOf manager.parties partyId →
    accountId ∈ membersOf manager.parties other → partyId = other
  mapped : ∀ accountId partyId, manager.accountToParty.lookup accountId = some partyId ↔
    accountId ∈ membersOf manager.parties partyId

/-- A call that keeps the property: an invitation to a party with room is not accepted in
another party, and the identifier of a new party is not in use. -/
def StaysSingle (manager : PartyManager) : PartyCall → Prop
  | .create leader =>
    manager.accountToParty.lookup leader.accountId = none →
      manager.parties.lookup manager.nextPartyId = none
  | .accept targetAccount _ =>
    ∀ partyId party current, manager.pendingInvites.lookup targetAccount = some partyId →
      manager.parties.lookup partyId = some party →
      party.members.length < maxGroupMembers →
      manager.accountToParty.lookup targetAccount = some current → current = partyId
  | _ => True

variable {manager : PartyManager}

/-- The parties are sound and the map indexes them; that no account is in two parties
follows. -/
theorem wellFormed_parts : manager.WellFormed ↔
      (∀ partyId party, manager.parties.lookup partyId = some party → party.Sound) ∧
        Indexes (fun accountId => manager.accountToParty.lookup accountId)
          (membersOf manager.parties) := by
  constructor
  · intro wellFormed
    exact ⟨wellFormed.sound, wellFormed.mapped⟩
  rintro ⟨sound, indexes⟩
  exact ⟨sound, fun _ _ _ here there => indexes.eq_of_mem here there, indexes⟩

theorem wellFormed_invites_iff (manager : PartyManager)
    (invites : Finmap fun _ : UInt64 => UInt64) :
    { manager with pendingInvites := invites }.WellFormed ↔ manager.WellFormed := by
  rw [wellFormed_parts, wellFormed_parts]

private theorem sound_insert {parties : Parties}
    (sound : ∀ partyId party, parties.lookup partyId = some party → party.Sound) {partyId : UInt64}
    {party : Party} (partySound : party.Sound) :
    ∀ otherId other, (parties.insert partyId party).lookup otherId = some other → other.Sound := by
  intro otherId other found
  by_cases same : otherId = partyId
  · rw [same, Finmap.lookup_insert, some.injEq] at found
    rw [← found]
    exact partySound
  rw [Finmap.lookup_insert_of_ne _ same] at found
  exact sound otherId other found

private theorem sound_erase {parties : Parties}
    (sound : ∀ partyId party, parties.lookup partyId = some party → party.Sound) (partyId : UInt64) :
    ∀ otherId other, (parties.erase partyId).lookup otherId = some other → other.Sound := by
  intro otherId other found
  by_cases same : otherId = partyId
  · rw [same, Finmap.lookup_erase] at found
    cases found
  rw [Finmap.lookup_erase_ne same] at found
  exact sound otherId other found

theorem wellFormed_create (wellFormed : manager.WellFormed) (leader : PartyMember) :
    (manager.createParty leader).2.WellFormed ↔ manager.StaysSingle (.create leader) := by
  obtain ⟨sound, indexes⟩ := wellFormed_parts.mp wellFormed
  rw [createParty]
  simp only [StaysSingle]
  rcases mapped : manager.accountToParty.lookup leader.accountId with _ | current
  · rw [wellFormed_parts]
    simp only [FiniteMap.lookup_insert_eq_update, membersOf_insert]
    have one : (Party.new manager.nextPartyId leader).accounts = [leader.accountId] := rfl
    rw [one]
    constructor
    · rintro ⟨_, after⟩ _
      have empty := indexes.eq_nil_of_found mapped after
      rcases found : manager.parties.lookup manager.nextPartyId with _ | party
      · rfl
      rw [membersOf_of_some found] at empty
      have led := (sound _ _ found).led
      rw [empty] at led
      cases led
    intro unused
    refine ⟨sound_insert sound (Party.sound_new _ leader), ?_⟩
    apply indexes.enter mapped
    rw [membersOf, unused trivial]
    simp
  simp [wellFormed]

theorem wellFormed_invite (wellFormed : manager.WellFormed)
    (partyId callerAccount targetAccount : UInt64) :
    (manager.invitePlayer partyId callerAccount targetAccount).2.WellFormed := by
  rw [invitePlayer]
  split
  · exact wellFormed
  split
  · exact wellFormed
  split
  · exact wellFormed
  split
  · exact wellFormed
  exact (wellFormed_invites_iff manager _).mpr wellFormed

theorem wellFormed_decline (wellFormed : manager.WellFormed) (targetAccount : UInt64) :
    (manager.declineInvite targetAccount).WellFormed :=
  (wellFormed_invites_iff manager _).mpr wellFormed

private theorem acceptInvite_of_error {targetAccount partyId : UInt64} {member : PartyMember}
    {party : Party} {error : WorldError}
    (invited : manager.pendingInvites.lookup targetAccount = some partyId)
    (found : manager.parties.lookup partyId = some party)
    (failed : party.addMember member = (.error error, party)) :
    (manager.acceptInvite targetAccount member).2 =
      { manager with pendingInvites := manager.pendingInvites.erase targetAccount } := by
  rw [acceptInvite, invited]
  simp only [found, failed, FiniteMap.insert_of_lookup found]

theorem wellFormed_accept (wellFormed : manager.WellFormed) {targetAccount : UInt64}
    {member : PartyMember} (own : member.accountId = targetAccount) :
    (manager.acceptInvite targetAccount member).2.WellFormed ↔
      manager.StaysSingle (.accept targetAccount member) := by
  obtain ⟨sound, indexes⟩ := wellFormed_parts.mp wellFormed
  rcases invited : manager.pendingInvites.lookup targetAccount with _ | partyId
  · rw [acceptInvite]
    simp [StaysSingle, invited, wellFormed]
  rcases found : manager.parties.lookup partyId with _ | party
  · have unchanged : (manager.acceptInvite targetAccount member).2 =
        { manager with pendingInvites := manager.pendingInvites.erase targetAccount } := by
      rw [acceptInvite, invited]
      simp only [found]
    rw [unchanged, wellFormed_invites_iff]
    refine iff_of_true wellFormed fun other party current invitedTo existing => ?_
    rw [invited, some.injEq] at invitedTo
    rw [← invitedTo, found] at existing
    cases existing
  have condition : manager.StaysSingle (.accept targetAccount member) ↔
      (party.members.length < maxGroupMembers →
        ∀ current, manager.accountToParty.lookup targetAccount = some current →
          current = partyId) := by
    constructor
    · intro stays space current
      exact stays partyId party current invited found space
    intro stays otherId other current invitedTo existing space
    rw [invited, some.injEq] at invitedTo
    rw [← invitedTo, found, some.injEq] at existing
    rw [← existing] at space
    rw [← invitedTo]
    exact stays space current
  rw [condition]
  have accounts := membersOf_of_some found
  by_cases space : party.members.length < maxGroupMembers
  · by_cases inside : targetAccount ∈ party.accounts
    · -- already in the party
      obtain ⟨error, failed⟩ := Party.addMember_of_mem (own ▸ inside)
      rw [acceptInvite_of_error invited found failed, wellFormed_invites_iff]
      have current := (indexes targetAccount partyId).mpr (accounts ▸ inside)
      simp only at current
      refine iff_of_true wellFormed fun _ other mapped => ?_
      rw [current, some.injEq] at mapped
      exact mapped.symm
    have partySound := sound partyId party found
    obtain ⟨joined, done, joinedSound, joinedAccounts⟩ :=
      Party.addMember_of_notMem partySound space (own ▸ inside)
    have after : (manager.acceptInvite targetAccount member).2 =
        { manager with
          pendingInvites := manager.pendingInvites.erase targetAccount
          parties := manager.parties.insert partyId joined
          accountToParty := manager.accountToParty.insert targetAccount partyId } := by
      rw [acceptInvite, invited]
      simp only [found, done]
    rw [after, wellFormed_parts]
    simp only [FiniteMap.lookup_insert_eq_update, membersOf_insert, joinedAccounts]
    constructor
    · rintro ⟨_, indexesAfter⟩ _ current mapped
      exact indexes.ne_of_enter indexesAfter mapped
    intro stays
    refine ⟨sound_insert sound joinedSound, ?_⟩
    have nowhere : manager.accountToParty.lookup targetAccount = none := by
      rcases mapped : manager.accountToParty.lookup targetAccount with _ | current
      · rfl
      have same := stays space current mapped
      rw [same] at mapped
      have member := (indexes targetAccount partyId).mp mapped
      rw [accounts] at member
      exact absurd member inside
    apply indexes.enter nowhere
    intro other
    rw [accounts, own, mem_append, mem_singleton, or_comm]
  have full := Party.addMember_of_full member (Nat.le_of_not_lt space)
  rw [acceptInvite_of_error invited found full, wellFormed_invites_iff]
  exact iff_of_true wellFormed fun room => absurd room space

theorem wellFormed_leave (wellFormed : manager.WellFormed) (accountId : UInt64) :
    (manager.leaveParty accountId).2.WellFormed := by
  obtain ⟨sound, indexes⟩ := wellFormed_parts.mp wellFormed
  rcases mapped : manager.accountToParty.lookup accountId with _ | partyId
  · rw [leaveParty, mapped]
    exact wellFormed
  have member := (indexes accountId partyId).mp mapped
  rcases found : manager.parties.lookup partyId with _ | party
  · rw [membersOf, found] at member
    cases member
  have accounts := membersOf_of_some found
  rw [accounts] at member
  have partySound := sound partyId party found
  obtain ⟨empty, left, outcome, leftAccounts, kind⟩ :=
    Party.removeMember_spec partySound member
  have remaining : ∀ other, other ∈ party.accounts.erase accountId ↔
      other ≠ accountId ∧ other ∈ membersOf manager.parties partyId := by
    intro other
    rw [accounts]
    exact partySound.distinct.mem_erase_iff
  have indexesAfter := indexes.leave mapped remaining
  rw [← leftAccounts] at indexesAfter
  rw [leaveParty, mapped]
  simp only [found, outcome]
  cases empty with
  | true =>
    rw [kind] at indexesAfter
    rw [wellFormed_parts]
    simp only [FiniteMap.lookup_erase_eq_update, membersOf_erase]
    exact ⟨sound_erase sound partyId, indexesAfter⟩
  | false =>
    rw [wellFormed_parts]
    simp only [FiniteMap.lookup_erase_eq_update, membersOf_insert]
    exact ⟨sound_insert sound kind, indexesAfter⟩

def OwnMember : PartyCall → Prop
  | .accept targetAccount member => member.accountId = targetAccount
  | _ => True

theorem wellFormed_step (wellFormed : manager.WellFormed) {call : PartyCall} (own : OwnMember call) :
    (manager.step call).WellFormed ↔ manager.StaysSingle call := by
  cases call with
  | create leader => exact wellFormed_create wellFormed leader
  | invite partyId callerAccount targetAccount =>
    exact iff_of_true (wellFormed_invite wellFormed _ _ _) trivial
  | accept targetAccount member => exact wellFormed_accept wellFormed own
  | decline targetAccount => exact iff_of_true (wellFormed_decline wellFormed _) trivial
  | leave accountId => exact iff_of_true (wellFormed_leave wellFormed _) trivial

theorem wellFormed_new : new.WellFormed := by
  rw [wellFormed_parts]
  constructor
  · intro partyId party found
    cases found
  intro accountId partyId
  simp [new, membersOf]

/-- The parties stay well formed exactly as long as no account accepts an invitation to a
party with room while it is in another party and no party is created with the identifier of
an existing one. -/
theorem party_membership_iff {calls : List PartyCall} (own : ∀ call ∈ calls, OwnMember call) :
    Throughout step WellFormed new calls ↔ EachStep step StaysSingle new calls := by
  have agreed : EachStep step (fun _ call => OwnMember call) new calls :=
    eachStep_of_forall own new
  apply @throughout_iff_eachStep_of_assumed _ _ step (fun _ call => OwnMember call) StaysSingle
    (fun _ => True) WellFormed ?_ ?_ _ trivial wellFormed_new _ agreed
  · intro _ _ _ _
    trivial
  intro state call _ ownCall wellFormed
  exact wellFormed_step wellFormed ownCall

private def memberOf (accountId : UInt64) : PartyMember where
  accountId := accountId
  entityId := 0
  name := "member"
  health := 100
  maxHealth := 100
  mana := 50
  maxMana := 50
  position := { x := Fixed64.fromRaw 0, y := Fixed64.fromRaw 0, z := Fixed64.fromRaw 0 }

/-- An account is invited, joins and becomes the leader. -/
private def lifecycle : List PartyCall :=
  [.create (memberOf 1001), .invite 1 1001 1002, .accept 1002 (memberOf 1002), .leave 1001]

/-- An account is invited, founds a party of its own and then accepts. -/
private def secondParty : List PartyCall :=
  [.create (memberOf 1001), .invite 1 1001 1002, .create (memberOf 1002),
   .accept 1002 (memberOf 1002)]

theorem party_membership_iff_lifecycle : Throughout step WellFormed new lifecycle := by
  have own : ∀ call ∈ lifecycle, OwnMember call := by
    intro call here
    simp only [lifecycle, mem_cons, not_mem_nil, or_false] at here
    rcases here with rfl | rfl | rfl | rfl
    · trivial
    · trivial
    · rfl
    trivial
  apply (party_membership_iff own).mpr
  refine ⟨fun _ => rfl, trivial, ?_, trivial, trivial⟩
  intro partyId party current _ _ _ mapped
  cases mapped

/-- The account is a member of two parties. -/
theorem not_party_membership_second_party :
    (∀ call ∈ secondParty, OwnMember call) ∧ ¬ Throughout step WellFormed new secondParty := by
  constructor
  · intro call here
    simp only [secondParty, mem_cons, not_mem_nil, or_false] at here
    rcases here with rfl | rfl | rfl | rfl
    · trivial
    · trivial
    · trivial
    rfl
  intro always
  have overlap : (1 : UInt64) = 2 := by
    apply always.run.single 1002 1 2
    · decide
    decide
  cases overlap

end PartyManager

end Eidolon.World
