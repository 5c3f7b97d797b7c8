import Eidolon.Library.SliceAccess
import Eidolon.Library.SlotArray
import Eidolon.World.Wal

/-!
# Hibernated account snapshots

A player profile is unpacked from a snapshot: a header of 32 bytes, and behind it a
payload of fixed fields and counted characters.  The length that the header claims for
the payload is compared with the slice, but the fields are read where they should stand,
so a snapshot that claims too short a payload can be read past its end.
-/

namespace Eidolon.World

open Library List Option

def hibernationMagic : List UInt8 := [0x45, 0x49, 0x48, 0x42]

def hibernationSchemaVersion : UInt16 := 1

def maxRosterSize : Nat := 32

structure PityState where
  standardBannerPity : UInt16
  limitedBannerPity : UInt16
  isGuaranteedRateUp : Bool
  consecutive4starPity : UInt8
  deriving DecidableEq

structure CharacterRecord where
  characterId : UInt32
  level : UInt16
  ascensionTier : UInt8
  constellation : UInt8
  deriving DecidableEq

structure PlayerProfile where
  accountId : UInt64
  playerLevel : UInt32
  premiumCurrency : UInt64
  freeCurrency : UInt64
  pity : PityState
  roster : SlotArray maxRosterSize CharacterRecord
  characterCount : Nat
  deriving DecidableEq

namespace PlayerProfile

variable (slice : List UInt8)

def unpackCharacter (cursor : Nat) : Option CharacterRecord := do
  let characterId ← bigEndianAt slice cursor 4
  let level ← bigEndianAt slice (cursor + 4) 2
  let ascensionTier ← byteAt slice (cursor + 6)
  let constellation ← byteAt slice (cursor + 7)
  return {
    characterId := UInt32.ofNat characterId
    level := UInt16.ofNat level
    ascensionTier := ascensionTier
    constellation := constellation }

def rosterOf (characters : List CharacterRecord) : SlotArray maxRosterSize CharacterRecord where
  slots := (characters.map some ++ List.replicate maxRosterSize none).take maxRosterSize
  length_eq := by
    rw [length_take, length_append, length_replicate]
    omega

def unpackPayload (accountId : UInt64) : Option PlayerProfile := do
  let playerLevel ← bigEndianAt slice 32 4
  let premiumCurrency ← bigEndianAt slice 36 8
  let freeCurrency ← bigEndianAt slice 44 8
  let standardBannerPity ← bigEndianAt slice 52 2
  let limitedBannerPity ← bigEndianAt slice 54 2
  let isGuaranteedRateUp ← byteAt slice 56
  let consecutive4starPity ← byteAt slice 57
  let charCount ← byteAt slice 58
  let characters ← recordsAt (unpackCharacter slice) 8 59 (min charCount.toNat maxRosterSize)
  return {
    accountId := accountId
    playerLevel := UInt32.ofNat playerLevel
    premiumCurrency := UInt64.ofNat premiumCurrency
    freeCurrency := UInt64.ofNat freeCurrency
    pity := {
      standardBannerPity := UInt16.ofNat standardBannerPity
      limitedBannerPity := UInt16.ofNat limitedBannerPity
      isGuaranteedRateUp := decide (isGuaranteedRateUp = 1)
      consecutive4starPity := consecutive4starPity }
    roster := rosterOf characters
    characterCount := min charCount.toNat maxRosterSize }

/-- Hydrates a player profile from a snapshot; `none` is an index outside of the slice. -/
def deserializeSnapshot : Option (Except WorldError PlayerProfile) :=
  if slice.length < 32 then
    some (.error (.invalidSnapshot "Snapshot too short"))
  else do
    let magic ← bytesAt slice 0 4
    if magic ≠ hibernationMagic then
      some (.error (.invalidSnapshot "Invalid magic bytes"))
    else do
      let version ← bigEndianAt slice 4 2
      if UInt16.ofNat version ≠ hibernationSchemaVersion then
        some (.error (.invalidSnapshot "Unsupported schema version"))
      else do
        let accountId ← bigEndianAt slice 6 8
        let payloadLen ← bigEndianAt slice 22 4
        let expectedChecksum ← bigEndianAt slice 26 4
        if slice.length < 32 + payloadLen then
          some (.error (.invalidSnapshot "Truncated payload"))
        else do
          let payloadSlice ← bytesAt slice 32 payloadLen
          if computeAdler32 payloadSlice ≠ UInt32.ofNat expectedChecksum then
            some (.error .snapshotCorrupted)
          else
            (unpackPayload slice (UInt64.ofNat accountId)).map .ok

def headerField (start width : Nat) : Nat :=
  ofBigEndian ((slice.drop start).take width)

private theorem bigEndianAt_headerField {slice : List UInt8} {start width : Nat}
    (inside : start + width ≤ slice.length) :
    bigEndianAt slice start width = some (headerField slice start width) :=
  bigEndianAt_of_inside inside

/-- The header passes all its checks. -/
structure HeaderAccepted (slice : List UInt8) : Prop where
  header : 32 ≤ slice.length
  magic : slice.take 4 = hibernationMagic
  version : UInt16.ofNat (headerField slice 4 2) = hibernationSchemaVersion
  payload : 32 + headerField slice 22 4 ≤ slice.length
  checksum : computeAdler32 ((slice.drop 32).take (headerField slice 22 4)) =
    UInt32.ofNat (headerField slice 26 4)

def payloadEnd : Nat :=
  59 + 8 * min (slice.getD 58 0).toNat maxRosterSize

def Returns : Prop :=
  (deserializeSnapshot slice).isSome

theorem isSome_unpackCharacter_iff (cursor : Nat) :
    (unpackCharacter slice cursor).isSome ↔ cursor + 8 ≤ slice.length := by
  unfold unpackCharacter
  by_cases inside : cursor + 8 ≤ slice.length
  · rw [bigEndianAt_of_inside (by omega), bigEndianAt_of_inside (by omega),
      byteAt_of_inside (by omega), byteAt_of_inside (by omega)]
    exact iff_of_true rfl inside
  apply iff_of_false _ inside
  have failed : byteAt slice (cursor + 7) = none := byteAt_of_outside (by omega)
  rw [failed]
  simp

theorem isSome_unpackPayload_iff (accountId : UInt64) :
    (unpackPayload slice accountId).isSome ↔ payloadEnd slice ≤ slice.length := by
  unfold unpackPayload payloadEnd
  by_cases fixed : 59 ≤ slice.length
  · rw [bigEndianAt_of_inside (by omega), bigEndianAt_of_inside (by omega),
      bigEndianAt_of_inside (by omega), bigEndianAt_of_inside (by omega),
      bigEndianAt_of_inside (by omega), byteAt_of_inside (by omega),
      byteAt_of_inside (by omega), byteAt_of_inside (by omega)]
    have characters := @isSome_recordsAt_iff _ _ _ _ _ (isSome_unpackCharacter_iff slice)
      (min (slice.getD 58 0).toNat maxRosterSize) fixed
    simp only [bind_eq_bind, bind_some]
    refine Iff.trans ?_ characters
    cases recordsAt (unpackCharacter slice) 8 59 (min (slice.getD 58 0).toNat maxRosterSize) with
    | _ => exact Iff.rfl
  apply iff_of_false
  · have failed : byteAt slice 58 = none := byteAt_of_outside (by omega)
    rw [failed]
    simp
  omega

/-- The call returns exactly if a header that passes its checks has the payload behind it
that is read. -/
theorem returns_iff (slice : List UInt8) :
    Returns slice ↔ (HeaderAccepted slice → payloadEnd slice ≤ slice.length) := by
  unfold Returns deserializeSnapshot
  by_cases header : 32 ≤ slice.length
  case neg =>
    rw [if_pos (by omega)]
    exact iff_of_true rfl fun accepted => absurd accepted.header header
  rw [if_neg (by omega), bytesAt_of_inside (by omega), bigEndianAt_headerField (by omega),
    bigEndianAt_headerField (by omega), bigEndianAt_headerField (by omega),
    bigEndianAt_headerField (by omega)]
  simp only [bind_eq_bind, bind_some, drop_zero]
  by_cases magic : slice.take 4 = hibernationMagic
  case neg =>
    rw [if_pos magic]
    exact iff_of_true rfl fun accepted => absurd accepted.magic magic
  rw [if_neg (not_not_intro magic)]
  by_cases version : UInt16.ofNat (headerField slice 4 2) = hibernationSchemaVersion
  case neg =>
    rw [if_pos version]
    exact iff_of_true rfl fun accepted => absurd accepted.version version
  rw [if_neg (not_not_intro version)]
  by_cases payload : 32 + headerField slice 22 4 ≤ slice.length
  case neg =>
    rw [if_pos (Nat.lt_of_not_le payload)]
    exact iff_of_true rfl fun accepted => absurd accepted.payload payload
  rw [if_neg (Nat.not_lt.mpr payload), bytesAt_of_inside payload]
  by_cases checksum : computeAdler32 ((slice.drop 32).take (headerField slice 22 4)) =
      UInt32.ofNat (headerField slice 26 4)
  case neg =>
    rw [bind_some, if_pos checksum]
    exact iff_of_true rfl fun accepted => absurd accepted.checksum checksum
  rw [bind_some, if_neg (not_not_intro checksum), isSome_map, isSome_unpackPayload_iff]
  have accepted : HeaderAccepted slice := ⟨header, magic, version, payload, checksum⟩
  exact (imp_iff_right accepted).symm

private def emptyPayload : List UInt8 :=
  hibernationMagic ++ [0, 1] ++ List.replicate 20 0 ++ [0, 0, 0, 1, 0, 0]

theorem not_returns_emptyPayload : ¬ ∀ slice : List UInt8, Returns slice := by
  intro always
  have returns := always emptyPayload
  cases returns

end PlayerProfile

end Eidolon.World

/-!
## Round trips of account snapshots

A profile grows by filling the first empty slot of its roster, so that its characters stand
in front and are counted.  Such a profile is packed into far less than the 512 bytes that are
asked for, and unpacked as it was.
-/

namespace Eidolon.World

open Library List Option

namespace PityState

def default : PityState where
  standardBannerPity := 0
  limitedBannerPity := 0
  isGuaranteedRateUp := false
  consecutive4starPity := 0

end PityState

namespace PlayerProfile

variable (accountId : UInt64)

def new : PlayerProfile where
  accountId := accountId
  playerLevel := 1
  premiumCurrency := 0
  freeCurrency := 0
  pity := PityState.default
  roster := SlotArray.empty maxRosterSize CharacterRecord
  characterCount := 0

variable (self : PlayerProfile)

def addCharacter (charRecord : CharacterRecord) : Except WorldError Unit × PlayerProfile :=
  match self.roster.findFirst? (·.characterId == charRecord.characterId) with
  | some (index, _) => (.ok (), { self with roster := self.roster.set index (some charRecord) })
  | none =>
    match self.roster.fillFirst? charRecord with
    | some roster =>
      (.ok (), { self with roster := roster, characterCount := self.characterCount + 1 })
    | none => (.error (.invalidSnapshot "Roster capacity reached"), self)

def characterChunks (charOpt : CharacterRecord) : List (List UInt8) :=
  [bigEndian 4 charOpt.characterId.toNat, bigEndian 2 charOpt.level.toNat,
    [charOpt.ascensionTier], [charOpt.constellation]]

def accountChunks : List (List UInt8) :=
  [bigEndian 4 self.playerLevel.toNat, bigEndian 8 self.premiumCurrency.toNat,
    bigEndian 8 self.freeCurrency.toNat, bigEndian 2 self.pity.standardBannerPity.toNat,
    bigEndian 2 self.pity.limitedBannerPity.toNat,
    [if self.pity.isGuaranteedRateUp then 1 else 0], [self.pity.consecutive4starPity],
    [UInt8.ofNat self.characterCount]]

def headerChunks (epochSec : UInt64) (payloadLen checksum : UInt32) : List (List UInt8) :=
  [hibernationMagic, bigEndian 2 hibernationSchemaVersion.toNat,
    bigEndian 8 self.accountId.toNat, bigEndian 8 epochSec.toNat, bigEndian 4 payloadLen.toNat,
    bigEndian 4 checksum.toNat, [0, 0]]

/-- Packs the profile into a buffer, the payload first; `none` is an index outside of it. -/
def serializeSnapshot (epochSec : UInt64) (out : List UInt8) :
    Option (Except WorldError Nat × List UInt8) :=
  if out.length < 512 then
    some (.error (.invalidSnapshot "Buffer too small"), out)
  else do
    let (cursor, out) ← putAll out 32
      (self.accountChunks ++ self.roster.entries.flatMap characterChunks)
    let payloadLen := UInt32.ofNat (cursor - 32)
    let payloadSlice ← bytesAt out 32 (cursor - 32)
    let checksum := computeAdler32 payloadSlice
    let (_, out) ← putAll out 0 (self.headerChunks epochSec payloadLen checksum)
    return (.ok cursor, out)

variable {characters : List CharacterRecord}

section

variable (small : characters.length ≤ maxRosterSize)
include small

theorem slots_rosterOf : (rosterOf characters).slots =
      characters.map some ++ List.replicate (maxRosterSize - characters.length) none := by
  change (characters.map some ++ List.replicate maxRosterSize none).take maxRosterSize = _
  rw [take_append, take_of_length_le (by rwa [length_map]), length_map,
    take_replicate, Nat.min_eq_left (by omega)]

theorem entries_rosterOf : (rosterOf characters).entries = characters := by
  rw [SlotArray.entries, slots_rosterOf small, reduceOption_append,
    reduceOption_replicate_none, append_nil, List.reduceOption, filterMap_map]
  exact filterMap_some

theorem get?_rosterOf (index : Nat) : (rosterOf characters).get? index = characters[index]? := by
  rw [SlotArray.get?, slots_rosterOf small]
  by_cases inside : index < characters.length
  · rw [getElem?_append_left (by rwa [length_map]), getElem?_map,
      getElem?_eq_getElem inside]
    rfl
  rw [getElem?_append_right (by rw [length_map]; omega), getElem?_replicate,
    getElem?_eq_none (by omega)]
  split <;> rfl

end

theorem rosterOf_nil : rosterOf [] = SlotArray.empty maxRosterSize CharacterRecord :=
  SlotArray.ext (slots_rosterOf (Nat.zero_le _))

theorem set_rosterOf (small : characters.length ≤ maxRosterSize) {index : Nat}
    (inside : index < characters.length) (character : CharacterRecord) :
    (rosterOf characters).set index (some character) =
      rosterOf (characters.set index character) := by
  apply SlotArray.ext
  rw [SlotArray.slots_set, slots_rosterOf small,
    slots_rosterOf (by rwa [length_set]), set_append_left _ _ (by rwa [length_map]),
    map_set, length_set]

theorem fillFirst?_rosterOf (room : characters.length < maxRosterSize)
    (character : CharacterRecord) :
    (rosterOf characters).fillFirst? character = some (rosterOf (characters ++ [character])) := by
  have small := Nat.le_of_lt room
  have firstFree : (rosterOf characters).firstEmpty? = some characters.length := by
    rw [SlotArray.firstEmpty?_eq_some_iff]
    refine ⟨room, ?_, ?_⟩
    · rw [get?_rosterOf small, getElem?_eq_none (Nat.le_refl _)]
    intro earlier before free
    rw [get?_rosterOf small, getElem?_eq_getElem before] at free
    cases free
  have more : maxRosterSize - characters.length = maxRosterSize - (characters.length + 1) + 1 := by
    omega
  rw [SlotArray.fillFirst?, firstFree]
  apply congrArg some
  apply SlotArray.ext
  rw [SlotArray.slots_set, slots_rosterOf small, slots_rosterOf (by
      rw [length_append, length_singleton]
      omega),
    set_append_right _ _ (by rw [length_map]), length_map, Nat.sub_self, more,
    map_append, length_append,
    append_assoc]
  rfl

structure Compact (profile : PlayerProfile) : Prop where
  roster : profile.roster = rosterOf profile.roster.entries
  count : profile.characterCount = profile.roster.entries.length

variable {profile : PlayerProfile}

theorem compact_of_rosterOf (small : characters.length ≤ maxRosterSize)
    (roster : profile.roster = rosterOf characters)
    (count : profile.characterCount = characters.length) : profile.Compact := by
  have entries := entries_rosterOf small
  rw [← roster] at entries
  rw [← entries] at roster count
  exact ⟨roster, count⟩

theorem compact_new : (new accountId).Compact :=
  compact_of_rosterOf (Nat.zero_le _) rosterOf_nil.symm rfl

theorem Compact.addCharacter (compact : profile.Compact) (charRecord : CharacterRecord) :
    (profile.addCharacter charRecord).2.Compact := by
  have small := profile.roster.entries_length_le
  rw [PlayerProfile.addCharacter]
  cases found : profile.roster.findFirst? (·.characterId == charRecord.characterId) with
  | some place =>
    -- the updated slot is one of those in front
    have held := (SlotArray.findFirst?_eq_some found).1
    rw [compact.roster, get?_rosterOf small] at held
    have inside := (List.getElem?_eq_some_iff.mp held).1
    have updated := set_rosterOf small inside charRecord
    rw [← compact.roster] at updated
    exact compact_of_rosterOf (by rwa [length_set]) updated
      (by rw [length_set]; exact compact.count)
  | none =>
    by_cases room : profile.roster.entries.length < maxRosterSize
    · have filled := fillFirst?_rosterOf room charRecord
      rw [← compact.roster] at filled
      simp only [filled]
      refine compact_of_rosterOf ?_ rfl ?_
      · rw [length_append]
        exact room
      rw [length_append]
      exact congrArg (· + 1) compact.count
    have full : profile.roster.fillFirst? charRecord = none := by
      rw [← not_isSome_iff_eq_none, SlotArray.fillFirst?_isSome_iff]
      exact room
    simp only [full]
    exact compact

/-- What is done to a profile. -/
inductive ProfileChange where
  | addCharacter (charRecord : CharacterRecord)
  | setPlayerLevel (playerLevel : UInt32)
  | setPremiumCurrency (premiumCurrency : UInt64)
  | setFreeCurrency (freeCurrency : UInt64)
  | setPity (pity : PityState)

def change (profile : PlayerProfile) : ProfileChange → PlayerProfile
  | .addCharacter charRecord => (profile.addCharacter charRecord).2
  | .setPlayerLevel playerLevel => { profile with playerLevel := playerLevel }
  | .setPremiumCurrency premiumCurrency => { profile with premiumCurrency := premiumCurrency }
  | .setFreeCurrency freeCurrency => { profile with freeCurrency := freeCurrency }
  | .setPity pity => { profile with pity := pity }

variable (changes : List ProfileChange)

/-- The profile after changes in their order. -/
def built : PlayerProfile :=
  changes.foldl change (new accountId)

theorem Compact.change (compact : profile.Compact) (made : ProfileChange) :
    (profile.change made).Compact := by
  cases made with
  | addCharacter charRecord => exact compact.addCharacter charRecord
  | _ => exact ⟨compact.roster, compact.count⟩

theorem compact_built : (built accountId changes).Compact := by
  have kept (profile : PlayerProfile) (compact : profile.Compact) :
      (changes.foldl PlayerProfile.change profile).Compact := by
    induction changes generalizing profile with
    | nil => exact compact
    | cons made changes ih => exact ih _ (compact.change made)
  exact kept (new accountId) (compact_new accountId)

def payloadBytes (profile : PlayerProfile) : List UInt8 :=
  (profile.accountChunks ++ profile.roster.entries.flatMap characterChunks).flatten

def headerBytes (profile : PlayerProfile) (epochSec : UInt64) : List UInt8 :=
  (profile.headerChunks epochSec (UInt32.ofNat profile.payloadBytes.length)
    (computeAdler32 profile.payloadBytes)).flatten

theorem length_flatten_characterChunks (charOpt : CharacterRecord) :
    (characterChunks charOpt).flatten.length = 8 := by
  simp [characterChunks]

theorem flatten_flatMap_characterChunks (records : List CharacterRecord) :
    (records.flatMap characterChunks).flatten =
      records.flatMap fun record => (characterChunks record).flatten := by
  rw [flatten_eq_flatMap, flatMap_assoc]
  rfl

theorem length_flatten_accountChunks (profile : PlayerProfile) :
    profile.accountChunks.flatten.length = 27 := by
  simp [accountChunks]

theorem length_payloadBytes (profile : PlayerProfile) :
    profile.payloadBytes.length = 27 + 8 * profile.roster.entries.length := by
  rw [payloadBytes, flatten_append, length_append, length_flatten_accountChunks,
    flatten_flatMap_characterChunks, length_flatMap,
    map_congr_left (fun record _ => length_flatten_characterChunks record),
    map_const', sum_replicate_nat, Nat.mul_comm]

theorem length_payloadBytes_le (profile : PlayerProfile) : profile.payloadBytes.length ≤ 283 := by
  have bound : profile.roster.entries.length ≤ 32 := profile.roster.entries_length_le
  rw [length_payloadBytes]
  omega

theorem length_headerBytes (profile : PlayerProfile) (epochSec : UInt64) :
    (profile.headerBytes epochSec).length = 32 := by
  simp [headerBytes, headerChunks, hibernationMagic]

theorem serializeSnapshot_of_room (profile : PlayerProfile) (epochSec : UInt64)
    {out : List UInt8} (room : 512 ≤ out.length) :
    profile.serializeSnapshot epochSec out =
      some (.ok (32 + profile.payloadBytes.length), profile.headerBytes epochSec ++
        (profile.payloadBytes ++ out.drop (32 + profile.payloadBytes.length))) := by
  have bound := profile.length_payloadBytes_le
  have payloadPut := @putAll_of_inside out 32
    (profile.accountChunks ++ profile.roster.entries.flatMap characterChunks)
  rw [← payloadBytes] at payloadPut
  have front : (out.take 32).length = 32 := by
    rw [length_take]
    omega
  have headerPut := @putAll_of_inside
    (out.take 32 ++ (profile.payloadBytes ++ out.drop (32 + profile.payloadBytes.length))) 0
    (profile.headerChunks epochSec (UInt32.ofNat profile.payloadBytes.length)
      (computeAdler32 profile.payloadBytes))
  rw [← headerBytes, length_headerBytes, drop_left' front] at headerPut
  have slice := @bytesAt_middle (out.take 32)
    (out.drop (32 + profile.payloadBytes.length)) 32 _ profile.payloadBytes front rfl
  rw [serializeSnapshot, if_neg (by omega), payloadPut (by omega)]
  simp only [bind_eq_bind, bind_some, Nat.add_sub_cancel_left]
  rw [slice, bind_some, headerPut (by rw [length_append]; omega)]
  rfl

theorem unpackCharacter_middle (record : CharacterRecord) (front rest : List UInt8) :
    unpackCharacter (front ++ ((characterChunks record).flatten ++ rest)) front.length =
      some record := by
  have characterId := @bigEndianAt_chunk front rest front.length 4 _ (characterChunks record) 0
    rfl rfl record.characterId.toNat_lt
  have level := @bigEndianAt_chunk front rest (front.length + 4) 2 _ (characterChunks record) 1
    rfl (by simp [characterChunks]) record.level.toNat_lt
  have ascensionTier := @byteAt_chunk front rest (front.length + 6) (characterChunks record) 2 _
    rfl (by simp [characterChunks])
  have constellation := @byteAt_chunk front rest (front.length + 7) (characterChunks record) 3 _
    rfl (by simp [characterChunks])
  rw [unpackCharacter, characterId, level, ascensionTier, constellation]
  simp only [bind_eq_bind, bind_some, UInt32.ofNat_toNat, UInt16.ofNat_toNat]
  rfl

theorem unpackPayload_middle (compact : profile.Compact) {front : List UInt8}
    (place : front.length = 32) (rest : List UInt8) :
    unpackPayload (front ++ (profile.payloadBytes ++ rest)) profile.accountId = some profile := by
  have bound : profile.roster.entries.length ≤ 32 := profile.roster.entries_length_le
  have split : profile.payloadBytes ++ rest = profile.accountChunks.flatten ++
      ((profile.roster.entries.flatMap fun record => (characterChunks record).flatten) ++
        rest) := by
    rw [payloadBytes, flatten_append, flatten_flatMap_characterChunks, append_assoc]
  have accountLength : (front ++ profile.accountChunks.flatten).length = 59 := by
    rw [length_append, place, length_flatten_accountChunks]
  have characters := @recordsAt_flatMap (front ++ profile.accountChunks.flatten) rest 59 8 _
    unpackCharacter _ length_flatten_characterChunks unpackCharacter_middle
    profile.roster.entries accountLength
  rw [append_assoc] at characters
  have count : min (UInt8.ofNat profile.characterCount).toNat maxRosterSize =
      profile.roster.entries.length := by
    rw [compact.count, UInt8.toNat_ofNat_of_lt' (by change _ < 256; omega)]
    exact Nat.min_eq_left bound
  rw [split]
  generalize (profile.roster.entries.flatMap fun record => (characterChunks record).flatten) ++
    rest = behind at characters ⊢
  have playerLevel := @bigEndianAt_chunk front behind 32 4 _ profile.accountChunks 0 rfl
    (by rw [place]; rfl) profile.playerLevel.toNat_lt
  have premiumCurrency := @bigEndianAt_chunk front behind 36 8 _ profile.accountChunks 1 rfl
    (by rw [place]; rfl) profile.premiumCurrency.toNat_lt
  have freeCurrency := @bigEndianAt_chunk front behind 44 8 _ profile.accountChunks 2 rfl
    (by rw [place]; rfl) profile.freeCurrency.toNat_lt
  have standardBannerPity := @bigEndianAt_chunk front behind 52 2 _ profile.accountChunks 3 rfl
    (by rw [place]; rfl) profile.pity.standardBannerPity.toNat_lt
  have limitedBannerPity := @bigEndianAt_chunk front behind 54 2 _ profile.accountChunks 4 rfl
    (by rw [place]; rfl) profile.pity.limitedBannerPity.toNat_lt
  have isGuaranteedRateUp := @byteAt_chunk front behind 56 profile.accountChunks 5 _ rfl
    (by rw [place]; rfl)
  have consecutive4starPity := @byteAt_chunk front behind 57 profile.accountChunks 6 _ rfl
    (by rw [place]; rfl)
  have charCount := @byteAt_chunk front behind 58 profile.accountChunks 7 _ rfl (by rw [place]; rfl)
  have flag : decide ((if profile.pity.isGuaranteedRateUp then (1 : UInt8) else 0) = 1) =
      profile.pity.isGuaranteedRateUp := by
    cases profile.pity.isGuaranteedRateUp <;> rfl
  rw [unpackPayload, playerLevel, premiumCurrency, freeCurrency, standardBannerPity,
    limitedBannerPity, isGuaranteedRateUp, consecutive4starPity, charCount]
  simp only [bind_eq_bind, bind_some, UInt32.ofNat_toNat, UInt64.ofNat_toNat,
    UInt16.ofNat_toNat, count, characters, flag]
  rw [← compact.roster, ← compact.count]
  rfl

theorem deserializeSnapshot_of_bytes (compact : profile.Compact) (epochSec : UInt64)
    (trailing : List UInt8) :
    deserializeSnapshot (profile.headerBytes epochSec ++ (profile.payloadBytes ++ trailing)) =
      some (.ok profile) := by
  have bound := profile.length_payloadBytes_le
  have headerLength := profile.length_headerBytes epochSec
  have whole : (profile.headerBytes epochSec ++ (profile.payloadBytes ++ trailing)).length =
      32 + (profile.payloadBytes.length + trailing.length) := by
    rw [length_append, headerLength, length_append]
  have lengthIs : (UInt32.ofNat profile.payloadBytes.length).toNat =
      profile.payloadBytes.length :=
    UInt32.toNat_ofNat_of_lt' (by change _ < 2 ^ 32; omega)
  have payload := @bytesAt_middle (profile.headerBytes epochSec) trailing 32 _
    profile.payloadBytes headerLength rfl
  have unpacked := unpackPayload_middle compact headerLength trailing
  let chunks := profile.headerChunks epochSec (UInt32.ofNat profile.payloadBytes.length)
    (computeAdler32 profile.payloadBytes)
  have field {cursor width value : Nat} (index : Nat)
      (chunkIs : chunks[index]? = some (bigEndian width value))
      (place : (chunks.take index).flatten.length = cursor) (small : value < 256 ^ width) :
      bigEndianAt (profile.headerBytes epochSec ++ (profile.payloadBytes ++ trailing)) cursor
        width = some value :=
    @bigEndianAt_chunk [] (profile.payloadBytes ++ trailing) cursor width value chunks index
      chunkIs ((Nat.zero_add _).trans place) small
  have magic : bytesAt (profile.headerBytes epochSec ++ (profile.payloadBytes ++ trailing)) 0 4 =
      some hibernationMagic :=
    @bytesAt_chunk [] (profile.payloadBytes ++ trailing) 0 4 chunks 0 hibernationMagic rfl rfl rfl
  have version : bigEndianAt _ 4 2 = _ := field 1 rfl rfl hibernationSchemaVersion.toNat_lt
  have accountId : bigEndianAt _ 6 8 = _ := field 2 rfl rfl profile.accountId.toNat_lt
  have payloadLen : bigEndianAt _ 22 4 = _ :=
    field 4 rfl rfl (UInt32.ofNat profile.payloadBytes.length).toNat_lt
  have checksum : bigEndianAt _ 26 4 = _ :=
    field 5 rfl rfl (computeAdler32 profile.payloadBytes).toNat_lt
  rw [deserializeSnapshot, if_neg (by omega), magic, version, accountId, payloadLen, checksum]
  simp only [bind_eq_bind, bind_some, ne_eq, not_true_eq_false, if_false,
    UInt16.ofNat_toNat, UInt64.ofNat_toNat, UInt32.ofNat_toNat, lengthIs]
  rw [if_neg (by omega), payload, bind_some, if_neg (not_not_intro rfl), unpacked, map_some]

/-- A profile that was built by adding characters and setting its fields comes back from its
snapshot, whatever stands behind it, and the buffer keeps all that stands behind the bytes
that were written. -/
theorem deserializeSnapshot_serializeSnapshot (accountId : UInt64) (changes : List ProfileChange)
    (epochSec : UInt64) (out : List UInt8) (room : 512 ≤ out.length) :
    ∃ (written : Nat) (filled : List UInt8),
      (built accountId changes).serializeSnapshot epochSec out = some (.ok written, filled) ∧
        written ≤ 512 ∧ filled.length = out.length ∧ filled.drop written = out.drop written ∧
        ∀ trailing, deserializeSnapshot (filled.take written ++ trailing) =
          some (.ok (built accountId changes)) := by
  have compact := compact_built accountId changes
  generalize built accountId changes = profile at compact ⊢
  have bound := profile.length_payloadBytes_le
  have headerLength := profile.length_headerBytes epochSec
  have front : (profile.headerBytes epochSec ++ profile.payloadBytes).length =
      32 + profile.payloadBytes.length := by
    rw [length_append, headerLength]
  refine ⟨_, _, profile.serializeSnapshot_of_room epochSec room, by omega, ?_, ?_, ?_⟩
  · rw [length_append, length_append, length_drop]
    omega
  · rw [← append_assoc, drop_left' front]
  intro trailing
  rw [← append_assoc, take_left' front, append_assoc]
  exact deserializeSnapshot_of_bytes compact epochSec trailing

/-- Two characters, the first of which is updated. -/
theorem deserializeSnapshot_serializeSnapshot_updated :
    512 ≤ (List.replicate 512 (0 : UInt8)).length ∧ ∃ (written : Nat) (filled : List UInt8),
        (built 7 [.addCharacter ⟨1, 80, 6, 0⟩, .setPlayerLevel 45, .addCharacter ⟨2, 1, 0, 0⟩,
            .addCharacter ⟨1, 90, 6, 1⟩, .setPity ⟨10, 20, true, 3⟩]).serializeSnapshot 99
              (List.replicate 512 0) = some (.ok written, filled) ∧
          written ≤ 512 ∧ filled.length = (List.replicate 512 (0 : UInt8)).length ∧
          filled.drop written = (List.replicate 512 (0 : UInt8)).drop written ∧
          ∀ trailing, deserializeSnapshot (filled.take written ++ trailing) =
            some (.ok (built 7 [.addCharacter ⟨1, 80, 6, 0⟩, .setPlayerLevel 45,
              .addCharacter ⟨2, 1, 0, 0⟩, .addCharacter ⟨1, 90, 6, 1⟩,
              .setPity ⟨10, 20, true, 3⟩])) :=
  have room : 512 ≤ (List.replicate 512 (0 : UInt8)).length :=
    Nat.le_of_eq List.length_replicate.symm
  ⟨room, deserializeSnapshot_serializeSnapshot 7 _ 99 _ room⟩

end PlayerProfile

end Eidolon.World
