import Eidolon.Library.FiniteMap
import Eidolon.Library.Run

/-!
# Guilds

Members with ranks from 0 to 7, of which the guild master has the highest, and what each
rank may do.
-/

namespace Eidolon.World

open Option

def maxGuildMembers : Nat := 500

def guildPermInvite : UInt32 := (1 : UInt32) <<< 0
def guildPermKick : UInt32 := (1 : UInt32) <<< 1
def guildPermPromote : UInt32 := (1 : UInt32) <<< 2
def guildPermDemote : UInt32 := (1 : UInt32) <<< 3
def guildPermVaultDeposit : UInt32 := (1 : UInt32) <<< 4
def guildPermVaultWithdraw : UInt32 := (1 : UInt32) <<< 5
def guildPermClaimTerritory : UInt32 := (1 : UInt32) <<< 6
def guildPermManageDiplomacy : UInt32 := (1 : UInt32) <<< 7

inductive SocialError where
  | playerAlreadyInGuild
  | playerNotInGuild
  | guildFull
  | permissionDenied
  | cannotModifyGuildMaster
  | invalidRank
  deriving DecidableEq

structure GuildMember where
  accountId : UInt64
  characterId : UInt64
  rank : UInt8
  joinedTick : UInt64
  deriving DecidableEq

abbrev Roster := Finmap fun _ : UInt64 => GuildMember

structure Guild where
  guildId : UInt64
  name : String
  tag : String
  masterAccountId : UInt64
  members : Roster
  rankPermissions : Vector UInt32 8
  allianceId : Option UInt64

def defaultRankPermissions : Vector UInt32 8 :=
  let member := guildPermVaultDeposit
  let veteran := guildPermVaultDeposit ||| guildPermVaultWithdraw
  let officer := veteran ||| guildPermInvite ||| guildPermKick
  let lieutenant := officer ||| guildPermPromote ||| guildPermDemote
  let general := lieutenant ||| guildPermClaimTerritory
  let coLeader := general ||| guildPermManageDiplomacy
  #v[0, member, veteran, officer, lieutenant, general, coLeader, 0xFFFFFFFF]

namespace Guild

def new (guildId : UInt64) (name tag : String)
    (masterAccountId masterCharacterId currentTick : UInt64) : Guild where
  guildId := guildId
  name := name
  tag := tag
  masterAccountId := masterAccountId
  members := Finmap.singleton masterAccountId
    { accountId := masterAccountId
      characterId := masterCharacterId
      rank := 7
      joinedTick := currentTick }
  rankPermissions := defaultRankPermissions
  allianceId := none

variable (guild : Guild) (accountId : UInt64)

/-- Whether an account has a permission; `none` where the rank has no entry in the table. -/
def hasPermission (permission : UInt32) : Option Bool :=
  if accountId = guild.masterAccountId then some true
  else
    match guild.members.lookup accountId with
    | some member =>
      match guild.rankPermissions[member.rank.toNat]? with
      | some perms => some (perms &&& permission == permission)
      | none => none
    | none => some false

def addMember (characterId currentTick : UInt64) : Except SocialError Unit × Guild :=
  if maxGuildMembers ≤ guild.members.keys.card then (.error .guildFull, guild)
  else if accountId ∈ guild.members then (.error .playerAlreadyInGuild, guild)
  else
    (.ok (),
      { guild with
        members := guild.members.insert accountId
          { accountId := accountId
            characterId := characterId
            rank := 0
            joinedTick := currentTick } })

def removeMember : Except SocialError GuildMember × Guild :=
  if accountId = guild.masterAccountId then (.error .cannotModifyGuildMaster, guild)
  else
    match guild.members.lookup accountId with
    | none => (.error .playerNotInGuild, guild)
    | some member => (.ok member, { guild with members := guild.members.erase accountId })

/-- Promotes or demotes a member; ranks are only granted below that of the actor. -/
def setRank (actorAccountId targetAccountId : UInt64) (newRank : UInt8) :
    Except SocialError Unit × Guild :=
  if 7 < newRank then (.error .invalidRank, guild)
  else if targetAccountId = guild.masterAccountId then (.error .cannotModifyGuildMaster, guild)
  else
    match guild.members.lookup actorAccountId with
    | none => (.error .playerNotInGuild, guild)
    | some actor =>
      if actor.rank ≤ newRank then (.error .permissionDenied, guild)
      else
        match guild.members.lookup targetAccountId with
        | none => (.error .playerNotInGuild, guild)
        | some member =>
          (.ok (),
            { guild with
              members := guild.members.insert targetAccountId { member with rank := newRank } })

end Guild

end Eidolon.World

/-!
## Authority in guilds

Ranks are granted only below the rank of the actor, so that the master stays alone at the
top.  The present rank of the target and the permissions to promote and demote are not
looked at: a member of rank 1 takes the rank of a co-leader.
-/

namespace Eidolon.World

open Library Option

inductive GuildCall where
  | addMember (accountId characterId currentTick : UInt64)
  | removeMember (accountId : UInt64)
  | setRank (actorAccountId targetAccountId : UInt64) (newRank : UInt8)

namespace Guild

def call (guild : Guild) : GuildCall → Except SocialError Unit × Guild
  | .addMember accountId characterId currentTick =>
    guild.addMember accountId characterId currentTick
  | .removeMember accountId =>
    ((guild.removeMember accountId).1.map fun _ => (), (guild.removeMember accountId).2)
  | .setRank actorAccountId targetAccountId newRank =>
    guild.setRank actorAccountId targetAccountId newRank

variable (guild : Guild) (call : GuildCall)

def step : Guild :=
  (guild.call call).2

structure Mastered (guild : Guild) : Prop where
  master : ∃ member, guild.members.lookup guild.masterAccountId = some member ∧ member.rank = 7
  others : ∀ accountId member, guild.members.lookup accountId = some member →
    accountId ≠ guild.masterAccountId → member.rank < 7

def ErrorKeeps : Prop :=
  ∀ error, (guild.call call).1 = .error error → guild.step call = guild

/-- The ranks of those who stay are changed by themselves, or by one who ranks above both
ranks and is permitted to. -/
def Authorised : Prop :=
  ∀ accountId before after, guild.members.lookup accountId = some before →
    (guild.step call).members.lookup accountId = some after → after.rank ≠ before.rank →
      ∃ actor, call = .setRank actor accountId after.rank ∧ (actor ≠ accountId →
          ∃ acting, guild.members.lookup actor = some acting ∧
            before.rank < acting.rank ∧ after.rank < acting.rank ∧
            (before.rank < after.rank → guild.hasPermission actor guildPermPromote = some true) ∧
            (after.rank < before.rank → guild.hasPermission actor guildPermDemote = some true))

def Below (rank : UInt8) (accountId : UInt64) : Prop :=
  ∀ member, guild.members.lookup accountId = some member → member.rank < rank

def ActsBelow (start : Guild) (rank : UInt8) (now : Guild) : GuildCall → Prop
  | .setRank actor _ _ => start.Below rank actor ∨ now.Below rank actor
  | _ => True

def Unreached (start : Guild) (chain : List GuildCall) : Prop :=
  ∀ rank accountId member, start.members.lookup accountId = some member → rank ≤ member.rank →
    EachStep step (ActsBelow start rank) start chain →
      Throughout step (fun now => accountId ∈ now.members) start chain →
        (run step start chain).members.lookup accountId = some member

structure AuthorityKept (guild : Guild) (calls : List GuildCall) : Prop where
  errors : EachStep step ErrorKeeps guild calls
  authorised : EachStep step Authorised guild calls
  unreached : ∀ earlier chain later, calls = earlier ++ chain ++ later →
    Unreached (run step guild earlier) chain
  mastered : Throughout step Mastered guild calls

/-- Of the calls that the code lets through to another member, one that raises has an actor
who may promote, and one that lowers has an actor who may demote and ranks above the
target. -/
def Meets (guild : Guild) : GuildCall → Prop
  | .setRank actor target newRank =>
    ∀ acting member, guild.members.lookup actor = some acting →
      guild.members.lookup target = some member →
        actor ≠ target → target ≠ guild.masterAccountId → newRank < acting.rank →
          (member.rank < newRank → guild.hasPermission actor guildPermPromote = some true) ∧
          (newRank < member.rank → member.rank < acting.rank ∧
            guild.hasPermission actor guildPermDemote = some true)
  | _ => True

inductive Moves (guild : Guild) : GuildCall → Except SocialError Unit × Guild → Prop where
  | failed (call : GuildCall) (error : SocialError) : Moves guild call (.error error, guild)
  | joined {accountId characterId currentTick : UInt64}
      (outside : guild.members.lookup accountId = none) :
      Moves guild (.addMember accountId characterId currentTick)
        (.ok (),
          { guild with
            members := guild.members.insert accountId
              { accountId := accountId
                characterId := characterId
                rank := 0
                joinedTick := currentTick } })
  | left {accountId : UInt64} (notMaster : accountId ≠ guild.masterAccountId) :
      Moves guild (.removeMember accountId)
        (.ok (), { guild with members := guild.members.erase accountId })
  | ranked {actor target : UInt64} {newRank : UInt8} {acting member : GuildMember}
      (notMaster : target ≠ guild.masterAccountId)
      (acts : guild.members.lookup actor = some acting) (granted : newRank < acting.rank)
      (held : guild.members.lookup target = some member) :
      Moves guild (.setRank actor target newRank)
        (.ok (),
          { guild with
            members := guild.members.insert target { member with rank := newRank } })

variable {guild : Guild}

theorem moves_call (guild : Guild) (call : GuildCall) : guild.Moves call (guild.call call) := by
  cases call with
  | addMember accountId characterId currentTick =>
    rw [Guild.call, addMember]
    split
    · exact .failed _ _
    split
    · exact .failed _ _
    rename_i _ outside
    exact .joined (Finmap.lookup_eq_none.mpr outside)
  | removeMember accountId =>
    rw [Guild.call, removeMember]
    split
    · exact .failed _ _
    rename_i notMaster
    split
    · exact .failed _ _
    exact .left notMaster
  | setRank actor target newRank =>
    rw [Guild.call, setRank]
    split
    · exact .failed _ _
    split
    · exact .failed _ _
    rename_i _ notMaster
    split
    · exact .failed _ _
    rename_i acting acts
    split
    · exact .failed _ _
    rename_i tooHigh
    split
    · exact .failed _ _
    rename_i member held
    exact .ranked notMaster acts (UInt8.not_le.mp tooHigh) held

variable {member : GuildMember}

theorem setRank_of_granted {actor target : UInt64} {newRank : UInt8} {acting : GuildMember}
    (valid : newRank ≤ 7) (notMaster : target ≠ guild.masterAccountId)
    (acts : guild.members.lookup actor = some acting) (granted : newRank < acting.rank)
    (held : guild.members.lookup target = some member) :
    guild.step (.setRank actor target newRank) =
      { guild with members := guild.members.insert target { member with rank := newRank } } := by
  rw [step, call, setRank, if_neg (UInt8.not_lt.mpr valid), if_neg notMaster, acts]
  dsimp only
  rw [if_neg (UInt8.not_le.mpr granted), held]

theorem errorKeeps (guild : Guild) (call : GuildCall) : guild.ErrorKeeps call := by
  intro error failed
  have moves := guild.moves_call call
  rw [step]
  generalize guild.call call = outcome at failed moves
  cases moves with
  | failed _ _ => rfl
  | _ => cases failed

@[simp]
theorem masterAccountId_step (guild : Guild) (call : GuildCall) :
    (guild.step call).masterAccountId = guild.masterAccountId := by
  have moves := guild.moves_call call
  rw [step]
  generalize guild.call call = outcome at moves
  cases moves with
  | _ => rfl

variable {accountId : UInt64} {call : GuildCall}

theorem lookup_step_cases {after : GuildMember}
    (held : (guild.step call).members.lookup accountId = some after) :
    guild.members.lookup accountId = some after ∨
      (guild.members.lookup accountId = none ∧ after.rank = 0) ∨
      ∃ actor acting before, call = .setRank actor accountId after.rank ∧
        accountId ≠ guild.masterAccountId ∧ guild.members.lookup actor = some acting ∧
        after.rank < acting.rank ∧ guild.members.lookup accountId = some before ∧
        after = { before with rank := after.rank } := by
  have moves := guild.moves_call call
  rw [step] at held
  generalize guild.call call = outcome at moves held
  cases moves with
  | failed _ _ => exact .inl held
  | @joined newAccountId characterId currentTick outside =>
    by_cases same : accountId = newAccountId
    · rw [same, Finmap.lookup_insert, some.injEq] at held
      rw [same, ← held]
      exact .inr (.inl ⟨outside, rfl⟩)
    rw [Finmap.lookup_insert_of_ne _ same] at held
    exact .inl held
  | @left removed notMaster =>
    by_cases same : accountId = removed
    · rw [same, Finmap.lookup_erase] at held
      cases held
    rw [Finmap.lookup_erase_ne same] at held
    exact .inl held
  | @ranked actor target newRank acting member notMaster acts granted targetHeld =>
    by_cases same : accountId = target
    · rw [same, Finmap.lookup_insert, some.injEq] at held
      rw [same, ← held]
      exact .inr (.inr ⟨actor, acting, member, rfl, notMaster, acts, granted, targetHeld, rfl⟩)
    rw [Finmap.lookup_insert_of_ne _ same] at held
    exact .inl held

theorem mem_step (call : GuildCall) (inside : accountId ∈ guild.members) :
    accountId ∈ (guild.step call).members ∨
      (call = .removeMember accountId ∧ accountId ≠ guild.masterAccountId) := by
  have moves := guild.moves_call call
  rw [step]
  generalize guild.call call = outcome at moves
  cases moves with
  | failed _ _ => exact .inl inside
  | @left removed notMaster =>
    by_cases same : accountId = removed
    · rw [same]
      exact .inr ⟨rfl, notMaster⟩
    exact .inl (Finmap.mem_erase.mpr ⟨same, inside⟩)
  | _ => exact .inl (Finmap.mem_insert.mpr (.inr inside))

theorem mastered_new (guildId : UInt64) (name tag : String)
    (masterAccountId masterCharacterId currentTick : UInt64) (rankPermissions : Vector UInt32 8) :
    Mastered { new guildId name tag masterAccountId masterCharacterId currentTick with
      rankPermissions := rankPermissions } := by
  refine ⟨⟨_, Finmap.lookup_singleton_eq, rfl⟩, ?_⟩
  intro accountId member held notMaster
  have there : accountId ∈ (Finmap.singleton masterAccountId
      { accountId := masterAccountId
        characterId := masterCharacterId
        rank := 7
        joinedTick := currentTick } : Roster) :=
    Finmap.mem_iff.mpr ⟨member, held⟩
  exact absurd ((Finmap.mem_singleton _ _ _).mp there) notMaster

theorem Mastered.rank_le (mastered : guild.Mastered)
    (held : guild.members.lookup accountId = some member) : member.rank ≤ 7 := by
  by_cases isMaster : accountId = guild.masterAccountId
  · obtain ⟨master, isHeld, isSeven⟩ := mastered.master
    rw [isMaster, isHeld, some.injEq] at held
    rw [← held, isSeven]
    exact UInt8.le_refl 7
  exact UInt8.le_of_lt (mastered.others accountId member held isMaster)

theorem Mastered.step (mastered : guild.Mastered) (call : GuildCall) :
    (guild.step call).Mastered := by
  obtain ⟨master, isHeld, isSeven⟩ := mastered.master
  constructor
  · rw [masterAccountId_step]
    have stays : guild.masterAccountId ∈ (guild.step call).members := by
      rcases mem_step call (Finmap.mem_iff.mpr ⟨master, isHeld⟩) with
        stays | ⟨-, notMaster⟩
      · exact stays
      exact absurd rfl notMaster
    obtain ⟨later, isLater⟩ := Finmap.mem_iff.mp stays
    refine ⟨later, isLater, ?_⟩
    rcases lookup_step_cases isLater with same | ⟨outside, -⟩ | ⟨_, _, _, -, notMaster, -⟩
    · rw [isHeld, some.injEq] at same
      rw [← same, isSeven]
    · rw [isHeld] at outside
      cases outside
    exact absurd rfl notMaster
  intro accountId later isLater notMaster
  rw [masterAccountId_step] at notMaster
  rcases lookup_step_cases isLater with
    same | ⟨-, isRecruit⟩ | ⟨actor, acting, _, -, -, acts, granted, -⟩
  · exact mastered.others accountId later same notMaster
  · rw [isRecruit]
    decide
  exact UInt8.lt_of_lt_of_le granted (mastered.rank_le acts)

theorem authorised_iff (mastered : guild.Mastered) (call : GuildCall) :
    guild.Authorised call ↔ guild.Meets call := by
  constructor
  · intro authorised
    cases call with
    | setRank actor target newRank =>
      intro acting member acts held others notMaster granted
      have valid : newRank ≤ 7 :=
        UInt8.le_of_lt (UInt8.lt_of_lt_of_le granted (mastered.rank_le acts))
      have after : (guild.step (.setRank actor target newRank)).members.lookup target =
          some { member with rank := newRank } := by
        rw [setRank_of_granted valid notMaster acts granted held]
        exact Finmap.lookup_insert _
      have permitted : newRank ≠ member.rank → member.rank < acting.rank ∧
            (member.rank < newRank → guild.hasPermission actor guildPermPromote = some true) ∧
            (newRank < member.rank → guild.hasPermission actor guildPermDemote = some true) := by
        intro changed
        obtain ⟨changer, isCall, byAnother⟩ := authorised target member _ held after changed
        rw [GuildCall.setRank.injEq] at isCall
        rw [← isCall.1] at byAnother
        obtain ⟨other, otherActs, above, -, promote, demote⟩ := byAnother others
        rw [acts, some.injEq] at otherActs
        rw [← otherActs] at above
        exact ⟨above, promote, demote⟩
      constructor
      · intro raised
        exact (permitted (UInt8.ne_of_lt raised).symm).2.1 raised
      intro lowered
      obtain ⟨above, -, demote⟩ := permitted (UInt8.ne_of_lt lowered)
      exact ⟨above, demote lowered⟩
    | _ => trivial
  intro meets accountId before after held isAfter changed
  rcases lookup_step_cases isAfter with
    same | ⟨outside, -⟩ | ⟨actor, acting, _, rfl, notMaster, acts, granted, -, -⟩
  · rw [held, some.injEq] at same
    exact absurd (congrArg GuildMember.rank same).symm changed
  · rw [held] at outside
    cases outside
  refine ⟨actor, rfl, ?_⟩
  intro others
  obtain ⟨promote, demote⟩ := meets acting before acts held others notMaster granted
  refine ⟨acting, acts, ?_, granted, promote, fun lowered => (demote lowered).2⟩
  -- who is raised to a rank below that of the actor was below it before
  rcases UInt8.lt_or_lt_of_ne changed with lowered | raised
  · exact (demote lowered).1
  exact UInt8.lt_trans raised granted

def StillBelow (start : Guild) (rank : UInt8) (now : Guild) : Prop :=
  ∀ accountId, start.Below rank accountId → ∀ member,
    now.members.lookup accountId = some member → member.rank < rank ∨ member.rank = 0

variable {start : Guild} {rank : UInt8}

theorem ActsBelow.acting_lt {newRank : UInt8} {actor target : UInt64} {acting : GuildMember}
    (acts : start.ActsBelow rank guild (.setRank actor target newRank))
    (below : start.StillBelow rank guild) (isActing : guild.members.lookup actor = some acting)
    (granted : newRank < acting.rank) : acting.rank < rank := by
  rcases acts with wasBelow | isBelow
  · rcases below actor wasBelow acting isActing with less | isZero
    · exact less
    rw [isZero] at granted
    exact absurd granted (UInt8.not_lt.mpr UInt8.zero_le)
  exact isBelow acting isActing

theorem StillBelow.step (below : start.StillBelow rank guild)
    (acts : start.ActsBelow rank guild call) : start.StillBelow rank (guild.step call) := by
  intro accountId wasBelow later isLater
  rcases lookup_step_cases isLater with
    same | ⟨-, isRecruit⟩ | ⟨actor, acting, _, rfl, -, isActing, granted, -⟩
  · exact below accountId wasBelow later same
  · exact .inr isRecruit
  exact .inl (UInt8.lt_trans granted (acts.acting_lt below isActing granted))

theorem Authorised.keeps (authorised : guild.Authorised call)
    (acts : start.ActsBelow rank guild call) (below : start.StillBelow rank guild)
    (held : guild.members.lookup accountId = some member) (high : rank ≤ member.rank)
    (stays : accountId ∈ (guild.step call).members) :
    (guild.step call).members.lookup accountId = some member := by
  obtain ⟨after, isAfter⟩ := Finmap.mem_iff.mp stays
  rcases lookup_step_cases isAfter with
    same | ⟨outside, -⟩ | ⟨actor, acting, _, rfl, -, isActing, granted, -⟩
  · rw [held] at same
    rw [isAfter, same]
  · rw [held] at outside
    cases outside
  have actingBelow := acts.acting_lt below isActing granted
  have changed : after.rank ≠ member.rank :=
    UInt8.ne_of_lt (UInt8.lt_of_lt_of_le (UInt8.lt_trans granted actingBelow) high)
  obtain ⟨changer, isCall, byAnother⟩ := authorised accountId member after held isAfter changed
  rw [GuildCall.setRank.injEq] at isCall
  rw [← isCall.1] at byAnother
  have memberBelow : member.rank < rank := by
    by_cases isItself : actor = accountId
    · rw [isItself, held, some.injEq] at isActing
      rw [isActing]
      exact actingBelow
    obtain ⟨other, otherActs, above, -⟩ := byAnother isItself
    rw [isActing, some.injEq] at otherActs
    rw [← otherActs] at above
    exact UInt8.lt_trans above actingBelow
  exact absurd memberBelow (UInt8.not_lt.mpr high)

theorem keeps_chain {chain : List GuildCall} (authorised : EachStep step Authorised guild chain)
    (acts : EachStep step (ActsBelow start rank) guild chain)
    (below : start.StillBelow rank guild) (held : guild.members.lookup accountId = some member)
    (high : rank ≤ member.rank)
    (stays : Throughout step (fun now => accountId ∈ now.members) guild chain) :
    (run step guild chain).members.lookup accountId = some member := by
  induction chain generalizing guild with
  | nil => exact held
  | cons call chain ih =>
    have heldNext := authorised.1.keeps acts.1 below held high stays.2.start
    exact ih authorised.2 acts.2 (below.step acts.1) heldNext stays.2

theorem unreached_of_authorised {chain : List GuildCall}
    (authorised : EachStep step Authorised start chain) : start.Unreached chain := by
  intro rank accountId member held high acts stays
  have below : start.StillBelow rank start := fun _ wasBelow other isOther =>
    .inl (wasBelow other isOther)
  exact keeps_chain authorised acts below held high stays

/-- Authority is kept in a run exactly where each call meets the condition. -/
theorem authorityKept_iff (guildId : UInt64) (name tag : String)
    (masterAccountId masterCharacterId currentTick : UInt64)
    (rankPermissions : Vector UInt32 8) (calls : List GuildCall) :
    AuthorityKept
        { new guildId name tag masterAccountId masterCharacterId currentTick with
          rankPermissions := rankPermissions } calls ↔
      EachStep step Meets
        { new guildId name tag masterAccountId masterCharacterId currentTick with
          rankPermissions := rankPermissions } calls := by
  have mastered := mastered_new guildId name tag masterAccountId masterCharacterId currentTick
    rankPermissions
  generalize { new guildId name tag masterAccountId masterCharacterId currentTick with
    rankPermissions := rankPermissions } = guild at mastered
  have free : EachStep step (fun _ _ => True) guild calls :=
    eachStep_of_forall (fun _ _ => trivial) guild
  have exactly : EachStep step Authorised guild calls ↔ EachStep step Meets guild calls :=
    eachStep_iff_of_invariant (fun _ call now _ _ => now.step call)
      (fun _ call now _ => authorised_iff now call) mastered free
  rw [← exactly]
  refine ⟨AuthorityKept.authorised, ?_⟩
  intro authorised
  refine ⟨?_, authorised, ?_, ?_⟩
  · exact eachStep_of_invariant (fun _ call now _ => now.step call)
      (fun now call _ _ => now.errorKeeps call) mastered free
  · rintro earlier chain later rfl
    obtain ⟨first, -⟩ := (eachStep_append _ _ _).mp authorised
    exact unreached_of_authorised ((eachStep_append _ _ _).mp first).2
  exact throughout_of_preserved (fun _ call now => now.step call) mastered calls

def mutiny : List GuildCall :=
  [ .addMember 2 202 101, .addMember 3 303 102, .setRank 1 2 6, .setRank 1 3 1, .setRank 3 2 0 ]

/-- A member of rank 1 makes the co-leader a recruit. -/
theorem not_authorityKept_mutiny : ¬ ∀ (guildId : UInt64) (name tag : String)
      (masterAccountId masterCharacterId currentTick : UInt64)
      (rankPermissions : Vector UInt32 8) (calls : List GuildCall), AuthorityKept
          { new guildId name tag masterAccountId masterCharacterId currentTick with
            rankPermissions := rankPermissions } calls := by
  intro always
  have authorised := (always 10 "Knights of the Round" "KTR" 1 101 100 defaultRankPermissions
    mutiny).authorised
  obtain ⟨-, -, -, -, taken, -⟩ := authorised
  obtain ⟨actor, isCall, byAnother⟩ := taken 2
    { accountId := 2, characterId := 202, rank := 6, joinedTick := 101 }
    { accountId := 2, characterId := 202, rank := 0, joinedTick := 101 }
    (by decide +kernel) (by decide +kernel) (by decide)
  rw [GuildCall.setRank.injEq] at isCall
  rw [← isCall.1] at byAnother
  obtain ⟨acting, isActing, above, -⟩ := byAnother (by decide)
  have isMember : some acting =
      some { accountId := 3, characterId := 303, rank := 1, joinedTick := 102 } :=
    isActing.symm.trans (by decide +kernel)
  rw [some.injEq] at isMember
  rw [isMember] at above
  exact absurd above (by decide)

end Guild

end Eidolon.World
