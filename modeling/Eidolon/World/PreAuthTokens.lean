import Mathlib.Data.List.ReduceOption
import Eidolon.Library.Run
import Eidolon.World.PredictiveMigration

/-!
# Migration tokens over whole runs

The table of a predictor is followed together with what it has issued and what has been
consumed.  A token stays in the table until it expires or is consumed, unless it lies in the
first slot when a token is issued while the whole table is live.
-/

namespace Eidolon.World

open Core Library List Option

namespace PredictiveSeamPredictor

theorem length_noTokens : (List.replicate maxActivePreAuths
    (none : Option PredictiveMigrationPreAuth)).length = maxActivePreAuths :=
  length_replicate

def new (tokenTtlTicks : UInt64) : PredictiveSeamPredictor where
  tokens := List.replicate maxActivePreAuths none
  nextTokenId := 1
  tokenTtlTicks := tokenTtlTicks
  length_tokens := length_noTokens

/-- Where an entity will be after a duration, and the other shard that the place is on. -/
def crossingWithin (lookahead : Fixed64) (currentCoord : GlobalCoord) (velocity : Vec3Fix)
    (sourceShard : UInt32) (shardManager : AdaptiveShardManager) :
    Option (GlobalCoord × UInt32) :=
  let projected := currentCoord.translate (velocity.scale lookahead)
  match shardManager.getShardForSector projected.sectorX projected.sectorZ with
  | none => none
  | some targetShard => if targetShard = sourceShard then none else some (projected, targetShard)

variable (predictor : PredictiveSeamPredictor)

def preAuthenticate (entityId sourceShard : UInt32) (currentTick : UInt64) :
    Option (GlobalCoord × UInt32) → PredictiveSeamPredictor × Option PredictiveMigrationPreAuth
  | none => (predictor, none)
  | some (projected, targetShard) =>
    match predictor.activeToken entityId targetShard currentTick with
    | some token => (predictor, some token)
    | none =>
      let token := predictor.newToken entityId projected sourceShard targetShard currentTick
      ({ predictor.storeToken token currentTick with
          nextTokenId := predictor.nextTokenId + 1 }, some token)

def evaluateWithin (lookahead : Fixed64) (entityId : UInt32) (currentCoord : GlobalCoord)
    (velocity : Vec3Fix) (sourceShard : UInt32) (shardManager : AdaptiveShardManager)
    (currentTick : UInt64) : PredictiveSeamPredictor × Option PredictiveMigrationPreAuth :=
  predictor.preAuthenticate entityId sourceShard currentTick
    (crossingWithin lookahead currentCoord velocity sourceShard shardManager)

def stored : List PredictiveMigrationPreAuth :=
  predictor.tokens.reduceOption

def isFull (currentTick : UInt64) : Bool :=
  predictor.tokens.all fun slot => slot.any fun token => !token.isReclaimable currentTick

def firstToken : Option PredictiveMigrationPreAuth :=
  predictor.tokens.head?.join

variable {predictor} {token : PredictiveMigrationPreAuth}

theorem mem_stored : token ∈ predictor.stored ↔ some token ∈ predictor.tokens :=
  reduceOption_mem_iff

theorem activeToken_spec {entityId targetShard : UInt32} {currentTick : UInt64}
    (found : predictor.activeToken entityId targetShard currentTick = some token) :
    token ∈ predictor.stored ∧ token.entityId = entityId ∧ token.targetShard = targetShard ∧
      token.isConsumed = false ∧ currentTick ≤ token.expiryTick := by
  obtain ⟨slot, listed, active⟩ := exists_of_findSome?_eq_some found
  obtain ⟨held, isActive⟩ := Option.filter_eq_some_iff.mp active
  simp only [PredictiveMigrationPreAuth.isActiveFor, Bool.and_eq_true, beq_iff_eq,
    Bool.not_eq_true', decide_eq_true_eq] at isActive
  rcases isActive with ⟨⟨⟨entity, shard⟩, unused⟩, inTime⟩
  rw [held] at listed
  exact ⟨mem_stored.mpr listed, entity, shard, unused, inTime⟩

theorem reduceOption_middle_perm (before after : List (Option PredictiveMigrationPreAuth))
    (slot : Option PredictiveMigrationPreAuth) :
    (before ++ slot :: after).reduceOption.Perm
      (slot.toList ++ (before ++ after).reduceOption) := by
  rw [reduceOption_append, reduceOption_append]
  cases slot with
  | none => exact List.Perm.refl _
  | some token => exact perm_middle

theorem replace_perm {κ : Type} [DecidableEq κ] {key : Option PredictiveMigrationPreAuth → κ}
    {slots : List (Option PredictiveMigrationPreAuth)} {wanted : κ}
    {slot : Option PredictiveMigrationPreAuth}
    (found : KeyedList.find key slots wanted = some slot)
    (changed : Option PredictiveMigrationPreAuth) :
    ∃ rest, slots.reduceOption.Perm (slot.toList ++ rest) ∧
      (KeyedList.replace key slots wanted changed).reduceOption.Perm (changed.toList ++ rest) := by
  induction slots with
  | nil => cases found
  | cons first slots ih =>
    rw [KeyedList.find_cons] at found
    rw [KeyedList.replace]
    by_cases here : key first = wanted
    · rw [if_pos here] at found ⊢
      cases found
      exact ⟨slots.reduceOption, reduceOption_middle_perm [] slots slot,
        reduceOption_middle_perm [] slots changed⟩
    rw [if_neg here] at found ⊢
    obtain ⟨rest, before, after⟩ := ih found
    refine ⟨first.toList ++ rest, ?_, ?_⟩
    · exact (reduceOption_middle_perm [] slots first).trans
        ((before.append_left _).trans (perm_append_comm_assoc _ _ _))
    exact (reduceOption_middle_perm [] _ first).trans
      ((after.append_left _).trans (perm_append_comm_assoc _ _ _))

theorem exists_find {κ : Type} [DecidableEq κ] {key : Option PredictiveMigrationPreAuth → κ}
    {slots : List (Option PredictiveMigrationPreAuth)} {wanted : κ}
    (listed : wanted ∈ slots.map key) : ∃ slot, KeyedList.find key slots wanted = some slot :=
  Option.ne_none_iff_exists'.mp (KeyedList.find_ne_none_iff.mpr listed)

/-- A token is stored in an empty slot, in place of one that is consumed or expired, or in
place of the first one when there is no such slot. -/
theorem storeToken_cases (predictor : PredictiveSeamPredictor)
    (token : PredictiveMigrationPreAuth) (currentTick : UInt64) :
    ∃ dropped rest, predictor.stored.Perm (Option.toList dropped ++ rest) ∧
      (predictor.storeToken token currentTick).stored.Perm (token :: rest) ∧
      ∀ old ∈ dropped, old.isReclaimable currentTick = true ∨
        predictor.isFull currentTick = true ∧ predictor.firstToken = some old := by
  unfold storeToken
  by_cases hasEmpty : none ∈ predictor.tokens
  · rw [if_pos hasEmpty]
    have listed : none ∈ predictor.tokens.map id := by
      rwa [List.map_id]
    obtain ⟨slot, found⟩ := exists_find listed
    obtain ⟨rest, before, after⟩ := replace_perm found (some token)
    have isNone : slot = none := KeyedList.key_of_find found
    subst isNone
    refine ⟨none, rest, before, after, ?_⟩
    rintro _ ⟨⟩
  rw [if_neg hasEmpty]
  split
  · rename_i someReclaimable
    obtain ⟨slot, found⟩ := exists_find someReclaimable
    obtain ⟨rest, before, after⟩ := replace_perm found (some token)
    have isReclaimable := KeyedList.key_of_find found
    rcases slot with _ | old
    · cases isReclaimable
    refine ⟨some old, rest, before, after, ?_⟩
    rintro _ ⟨⟩
    exact .inl isReclaimable
  rename_i noneReclaimable
  obtain ⟨slot, slots, isTokens⟩ : ∃ slot slots, predictor.tokens = slot :: slots := by
    apply exists_cons_of_length_pos
    rw [predictor.length_tokens]
    decide
  have isFirst : slot ∈ predictor.tokens := by
    rw [isTokens]
    exact mem_cons_self
  rcases slot with _ | old
  · exact absurd isFirst hasEmpty
  refine ⟨some old, slots.reduceOption, ?_, ?_, ?_⟩
  · rw [stored, isTokens]
    exact List.Perm.refl _
  · change (predictor.tokens.set 0 (some token)).reduceOption.Perm _
    rw [isTokens]
    exact List.Perm.refl _
  rintro _ ⟨⟩
  refine .inr ⟨?_, ?_⟩
  · rw [isFull, List.all_eq_true]
    intro slot listed
    rcases slot with _ | other
    · exact absurd listed hasEmpty
    rw [any_some, Bool.not_eq_true', ← Bool.not_eq_true]
    intro isReclaimable
    exact noneReclaimable (mem_map.mpr ⟨some other, listed, isReclaimable⟩)
  rw [firstToken, isTokens]
  rfl

theorem stored_purgeExpired (predictor : PredictiveSeamPredictor) (currentTick : UInt64) :
    (predictor.purgeExpired currentTick).stored =
      predictor.stored.filter fun token => !token.isReclaimable currentTick := by
  unfold stored purgeExpired
  simp only
  induction predictor.tokens with
  | nil => rfl
  | cons slot slots ih =>
    rcases slot with _ | token
    · exact ih
    rw [map_cons, reduceOption_cons_of_some, filter_some, filter_cons]
    split
    · rw [reduceOption_cons_of_some, ih]
    rw [reduceOption_cons_of_none, ih]

theorem consume_cases (predictor : PredictiveSeamPredictor) (tokenId : UInt64)
    (entityId targetShard : UInt32) (currentTick : UInt64) :
    (∃ error, predictor.validateAndConsume tokenId entityId targetShard currentTick =
      (.error error, predictor)) ∨
      ∃ token rest changed, predictor.validateAndConsume tokenId entityId targetShard currentTick =
            (.ok { token with isConsumed := true }, changed) ∧
          token.tokenId = tokenId ∧ token.entityId = entityId ∧
          token.targetShard = targetShard ∧ token.isConsumed = false ∧
          currentTick ≤ token.expiryTick ∧ changed.nextTokenId = predictor.nextTokenId ∧
          predictor.stored.Perm (token :: rest) ∧
          changed.stored.Perm ({ token with isConsumed := true } :: rest) := by
  unfold validateAndConsume
  rcases found : KeyedList.find slotId predictor.tokens (some tokenId) with _ | _ | token
  · exact .inl ⟨_, rfl⟩
  · exact .inl ⟨_, rfl⟩
  simp only
  split
  · exact .inl ⟨_, rfl⟩
  rename_i named
  rw [not_or, not_not, not_not] at named
  split
  · exact .inl ⟨_, rfl⟩
  rename_i unused
  split
  · exact .inl ⟨_, rfl⟩
  rename_i inTime
  have isId : slotId (some token) = some tokenId := KeyedList.key_of_find found
  obtain ⟨rest, before, after⟩ :=
    replace_perm found (some { token with isConsumed := true })
  exact .inr ⟨token, rest, _, rfl, some.inj isId, named.1, named.2,
    Bool.eq_false_of_not_eq_true unused, UInt64.not_lt.mp inTime, rfl, before, after⟩

theorem consume_of_stored (distinct : (predictor.stored.map (·.tokenId)).Nodup)
    (isStored : token ∈ predictor.stored) (unused : token.isConsumed = false)
    {currentTick : UInt64} (inTime : currentTick ≤ token.expiryTick) :
    (predictor.validateAndConsume token.tokenId token.entityId token.targetShard
      currentTick).1 = .ok { token with isConsumed := true } := by
  have listed : some token.tokenId ∈ predictor.tokens.map slotId :=
    mem_map_of_mem (mem_stored.mp isStored)
  obtain ⟨slot, found⟩ := exists_find listed
  have isId := KeyedList.key_of_find found
  rcases slot with _ | other
  · cases isId
  have otherStored : other ∈ predictor.stored := mem_stored.mpr (KeyedList.mem_of_find found)
  have same : other = token :=
    inj_on_of_nodup_map distinct otherStored isStored (some.inj isId)
  subst same
  have noName : ¬ (other.entityId ≠ other.entityId ∨ other.targetShard ≠ other.targetShard) := by
    rintro (entity | shard)
    · exact entity rfl
    exact shard rfl
  rw [validateAndConsume, found]
  simp only
  rw [if_neg noName, if_neg (Bool.not_eq_true _ ▸ unused), if_neg (UInt64.not_lt.mpr inTime)]

end PredictiveSeamPredictor

inductive PreAuthCall where
  | evaluate (entityId : UInt32) (currentCoord : GlobalCoord) (velocity : Vec3Fix)
      (sourceShard : UInt32) (shardManager : AdaptiveShardManager) (currentTick : UInt64)
  | consume (tokenId : UInt64) (entityId targetShard : UInt32) (currentTick : UInt64)
  | purge (currentTick : UInt64)

def PreAuthCall.tick : PreAuthCall → UInt64
  | .evaluate _ _ _ _ _ currentTick => currentTick
  | .consume _ _ _ currentTick => currentTick
  | .purge currentTick => currentTick

structure Consumption where
  tokenId : UInt64
  entityId : UInt32
  targetShard : UInt32
  tick : UInt64
  deriving DecidableEq

/-- A predictor with the tokens that it has returned, those that lay in the first slot when a
token was issued while the table was full, the consumptions, and the time. -/
structure PreAuthLog where
  predictor : PredictiveSeamPredictor
  issued : List PredictiveMigrationPreAuth
  displaced : List PredictiveMigrationPreAuth
  consumed : List Consumption
  now : UInt64

namespace PreAuthLog

def start (tokenTtlTicks : UInt64) : PreAuthLog where
  predictor := PredictiveSeamPredictor.new tokenTtlTicks
  issued := []
  displaced := []
  consumed := []
  now := 0

def returned (lookahead : Fixed64) (log : PreAuthLog) :
    PreAuthCall → Option PredictiveMigrationPreAuth
  | .evaluate entityId currentCoord velocity sourceShard shardManager currentTick =>
    (log.predictor.evaluateWithin lookahead entityId currentCoord velocity sourceShard
      shardManager currentTick).2
  | _ => none

def issue (log : PreAuthLog) (currentTick : UInt64) (predictor : PredictiveSeamPredictor)
    (token : PredictiveMigrationPreAuth) : PreAuthLog where
  predictor := predictor
  issued := token :: log.issued
  displaced :=
    if log.predictor.isFull currentTick then log.predictor.firstToken.toList ++ log.displaced
    else log.displaced
  consumed := log.consumed
  now := currentTick

def step (lookahead : Fixed64) (log : PreAuthLog) : PreAuthCall → PreAuthLog
  | .evaluate entityId currentCoord velocity sourceShard shardManager currentTick =>
    let (predictor, answer) := log.predictor.evaluateWithin lookahead entityId currentCoord
      velocity sourceShard shardManager currentTick
    match answer.filter fun token => decide (token ∉ log.issued) with
    | none => { log with predictor := predictor, now := currentTick }
    | some token => log.issue currentTick predictor token
  | .consume tokenId entityId targetShard currentTick =>
    let (answer, predictor) := log.predictor.validateAndConsume tokenId entityId targetShard
      currentTick
    match answer with
    | .error _ => { log with predictor := predictor, now := currentTick }
    | .ok _ =>
      { log with
        predictor := predictor
        consumed := ⟨tokenId, entityId, targetShard, currentTick⟩ :: log.consumed
        now := currentTick }
  | .purge currentTick =>
    { log with predictor := log.predictor.purgeExpired currentTick, now := currentTick }

/-- The ticks do not decrease, and there are fewer than 2⁶⁴ tokens. -/
structure Lawful (lookahead : Fixed64) (log : PreAuthLog) (call : PreAuthCall) : Prop where
  later : log.now ≤ call.tick
  few : (step lookahead log call).issued.length < 2 ^ 64

variable (log : PreAuthLog)

def consumedIds : List UInt64 :=
  log.consumed.map Consumption.tokenId

/-- Every issued token has been consumed once at most, for what it names and in time. -/
structure ConsumesOnce (log : PreAuthLog) : Prop where
  distinct : (log.issued.map (·.tokenId)).Nodup
  once : log.consumedIds.Nodup
  named : ∀ consumption ∈ log.consumed, ∃ token ∈ log.issued,
    token.tokenId = consumption.tokenId ∧ token.entityId = consumption.entityId ∧
      token.targetShard = consumption.targetShard ∧ consumption.tick ≤ token.expiryTick

/-- A token can be consumed at a tick for what it names. -/
def Consumable (token : PredictiveMigrationPreAuth) (currentTick : UInt64) : Prop :=
  ∃ consumed, (log.predictor.validateAndConsume token.tokenId token.entityId token.targetShard
    currentTick).1 = .ok consumed

/-- Every issued token that is not consumed and has not been displaced can be consumed until
it expires. -/
def StaysConsumable : Prop :=
  ∀ token ∈ log.issued, token.tokenId ∉ log.consumedIds → token ∉ log.displaced →
    ∀ currentTick, log.now ≤ currentTick → currentTick ≤ token.expiryTick →
      log.Consumable token currentTick

/-- A returned token names the shard of the crossing, and its sector when it is new; else it
is one that has been issued before and is still valid. -/
def NamesCrossing (lookahead : Fixed64) (log : PreAuthLog) : PreAuthCall → Prop
  | .evaluate entityId currentCoord velocity sourceShard shardManager currentTick =>
    ∀ token, log.returned lookahead (.evaluate entityId currentCoord velocity sourceShard
        shardManager currentTick) = some token →
      ∃ projected, PredictiveSeamPredictor.crossingWithin lookahead currentCoord velocity sourceShard shardManager =
          some (projected, token.targetShard) ∧
        token.entityId = entityId ∧
        (token.targetSectorX = projected.sectorX ∧ token.targetSectorZ = projected.sectorZ ∧
            token ∉ log.issued ∨
          token ∈ log.issued ∧ token.tokenId ∉ log.consumedIds ∧ currentTick ≤ token.expiryTick)
  | _ => True

/-- The table holds issued tokens, marked as they are consumed, and all that are live but for
the displaced ones. -/
structure Kept (log : PreAuthLog) : Prop where
  few : log.issued.length < 2 ^ 64
  next : log.predictor.nextTokenId = UInt64.ofNat (log.issued.length + 1)
  numbered : ∀ token ∈ log.issued,
    1 ≤ token.tokenId.toNat ∧ token.tokenId.toNat ≤ log.issued.length
  consumes : log.ConsumesOnce
  unused : ∀ token ∈ log.issued, token.isConsumed = false
  separate : (log.predictor.stored.map (·.tokenId)).Nodup
  known : ∀ token ∈ log.predictor.stored, token.unconsumed ∈ log.issued
  marked : ∀ token ∈ log.predictor.stored,
    token.isConsumed = true ↔ token.tokenId ∈ log.consumedIds
  live : ∀ token ∈ log.issued, token.tokenId ∉ log.consumedIds → token ∉ log.displaced →
    log.now ≤ token.expiryTick → token ∈ log.predictor.stored

variable {log : PreAuthLog} {lookahead : Fixed64}

theorem kept_start (tokenTtlTicks : UInt64) : (start tokenTtlTicks).Kept := by
  have empty : (start tokenTtlTicks).predictor.stored = [] :=
    reduceOption_replicate_none
  refine ⟨Nat.two_pow_pos 64, rfl, ?_, ⟨nodup_nil, nodup_nil, ?_⟩, ?_, ?_, ?_, ?_, ?_⟩
  · rintro _ ⟨⟩
  · rintro _ ⟨⟩
  · rintro _ ⟨⟩
  · rw [empty]
    exact nodup_nil
  · rw [empty]
    rintro _ ⟨⟩
  · rw [empty]
    rintro _ ⟨⟩
  rintro _ ⟨⟩

theorem Kept.issued_of_stored (kept : log.Kept) {token : PredictiveMigrationPreAuth}
    (isStored : token ∈ log.predictor.stored) (unused : token.isConsumed = false) :
    token ∈ log.issued ∧ token.tokenId ∉ log.consumedIds := by
  constructor
  · have known := kept.known token isStored
    have same : token.unconsumed = token := by
      cases token
      cases unused
      rfl
    rw [← same]
    exact known
  rw [← kept.marked token isStored, unused]
  exact Bool.false_ne_true

theorem Kept.staysConsumable (kept : log.Kept) : log.StaysConsumable := by
  intro token issued notConsumed notDisplaced currentTick later inTime
  have isStored := kept.live token issued notConsumed notDisplaced (UInt64.le_trans later inTime)
  exact ⟨_, PredictiveSeamPredictor.consume_of_stored kept.separate isStored
    (kept.unused token issued) inTime⟩

theorem Kept.next_fresh (kept : log.Kept) {token : PredictiveMigrationPreAuth}
    (isNext : token.tokenId = log.predictor.nextTokenId) : token ∉ log.issued := by
  intro issued
  have number := kept.numbered token issued
  have few := kept.few
  rw [isNext, kept.next, UInt64.toNat_ofNat'] at number
  omega

theorem Kept.consumed_issued (kept : log.Kept) {tokenId : UInt64}
    (consumed : tokenId ∈ log.consumedIds) : tokenId ∈ log.issued.map (·.tokenId) := by
  obtain ⟨consumption, listed, rfl⟩ := mem_map.mp consumed
  obtain ⟨token, issued, same, _⟩ := kept.consumes.named consumption listed
  exact mem_map.mpr ⟨token, issued, same⟩

theorem Kept.issue (kept : log.Kept) {currentTick : UInt64} (later : log.now ≤ currentTick)
    {token : PredictiveMigrationPreAuth} (isNext : token.tokenId = log.predictor.nextTokenId)
    (unused : token.isConsumed = false) (few : log.issued.length + 1 < 2 ^ 64) :
    (log.issue currentTick
      { log.predictor.storeToken token currentTick with
        nextTokenId := log.predictor.nextTokenId + 1 } token).Kept := by
  obtain ⟨dropped, rest, before, after, reason⟩ :=
    log.predictor.storeToken_cases token currentTick
  have number : token.tokenId.toNat = log.issued.length + 1 := by
    rw [isNext, kept.next, UInt64.toNat_ofNat', Nat.mod_eq_of_lt few]
  have notIssued : token.tokenId ∉ log.issued.map (·.tokenId) := by
    intro listed
    obtain ⟨other, issued, same⟩ := mem_map.mp listed
    have bound := (kept.numbered other issued).2
    rw [same] at bound
    omega
  have restStored : ∀ other ∈ rest, other ∈ log.predictor.stored := by
    intro other listed
    exact before.mem_iff.mpr (mem_append_right _ listed)
  have separate := (before.map (·.tokenId)).nodup_iff.mp kept.separate
  rw [map_append, nodup_append] at separate
  refine ⟨few, ?_, ?_, ⟨?_, kept.consumes.once, ?_⟩, ?_, ?_, ?_, ?_, ?_⟩
  · rw [kept.next, ← UInt64.toNat_inj]
    exact Nat.mod_add_mod _ _ _
  · intro other issued
    rcases mem_cons.mp issued with isNew | earlier
    · rw [isNew, number]
      exact ⟨Nat.le_add_left 1 _, Nat.le_refl _⟩
    have bounds := kept.numbered other earlier
    exact ⟨bounds.1, Nat.le_succ_of_le bounds.2⟩
  · exact List.nodup_cons.mpr ⟨notIssued, kept.consumes.distinct⟩
  · intro consumption listed
    obtain ⟨other, issued, names⟩ := kept.consumes.named consumption listed
    exact ⟨other, mem_cons_of_mem token issued, names⟩
  · intro other issued
    rcases mem_cons.mp issued with isNew | earlier
    · rw [isNew, unused]
    exact kept.unused other earlier
  · refine (after.map (·.tokenId)).nodup_iff.mpr (List.nodup_cons.mpr ⟨?_, separate.2.1⟩)
    intro listed
    obtain ⟨other, isRest, same⟩ := mem_map.mp listed
    refine notIssued (mem_map.mpr ⟨_, kept.known other (restStored other isRest), ?_⟩)
    exact same
  · intro other isStored
    rcases mem_cons.mp (after.mem_iff.mp isStored) with isNew | isRest
    · subst isNew
      refine mem_cons.mpr (.inl ?_)
      cases other
      cases unused
      rfl
    exact mem_cons_of_mem token (kept.known other (restStored other isRest))
  · intro other isStored
    rcases mem_cons.mp (after.mem_iff.mp isStored) with isNew | isRest
    · rw [isNew, unused]
      refine iff_of_false Bool.false_ne_true ?_
      intro consumed
      exact notIssued (kept.consumed_issued consumed)
    exact kept.marked other (restStored other isRest)
  intro other issued notConsumed notDisplaced inTime
  refine after.mem_iff.mpr ?_
  rcases mem_cons.mp issued with isNew | earlier
  · rw [isNew]
    exact mem_cons_self
  refine mem_cons_of_mem token ?_
  have wasNotDisplaced : other ∉ log.displaced := by
    intro wasDisplaced
    apply notDisplaced
    change other ∈ if _ then _ else _
    split
    · exact mem_append_right _ wasDisplaced
    exact wasDisplaced
  have wasStored := kept.live other earlier notConsumed wasNotDisplaced
    (UInt64.le_trans later inTime)
  refine (mem_append.mp (before.mem_iff.mp wasStored)).resolve_left ?_
  -- A token that is dropped is consumed, expired or displaced.
  intro isDropped
  rcases reason other (Option.mem_toList.mp isDropped) with isReclaimable | ⟨full, first⟩
  · rw [PredictiveMigrationPreAuth.isReclaimable, kept.unused other earlier, Bool.false_or,
      decide_eq_true_eq] at isReclaimable
    exact UInt64.not_lt.mpr inTime isReclaimable
  apply notDisplaced
  change other ∈ if _ then _ else _
  rw [if_pos full, first]
  exact mem_cons_self

variable {currentTick : UInt64}

theorem Kept.wait (kept : log.Kept) (later : log.now ≤ currentTick) :
    { log with now := currentTick : PreAuthLog }.Kept :=
  { kept with
    consumes := { kept.consumes with }
    live := fun token issued notConsumed notDisplaced inTime =>
      kept.live token issued notConsumed notDisplaced (UInt64.le_trans later inTime) }

theorem Kept.consume (kept : log.Kept) {tokenId : UInt64} {entityId targetShard : UInt32}
    (later : log.now ≤ currentTick) :
    (step lookahead log (.consume tokenId entityId targetShard currentTick)).Kept := by
  rw [step]
  rcases log.predictor.consume_cases tokenId entityId targetShard currentTick with
    ⟨error, failed⟩ | ⟨token, rest, changed, consumed, isId, isEntity, isShard, unused, inTime,
      next, before, after⟩
  · rw [failed]
    exact kept.wait later
  rw [consumed]
  have isStored : token ∈ log.predictor.stored := before.mem_iff.mpr mem_cons_self
  obtain ⟨issued, notConsumed⟩ := kept.issued_of_stored isStored unused
  have separate := (before.map (·.tokenId)).nodup_iff.mp kept.separate
  rw [map_cons, nodup_cons] at separate
  have restStored : ∀ other ∈ rest, other ∈ log.predictor.stored ∧ other.tokenId ≠ tokenId := by
    intro other listed
    refine ⟨before.mem_iff.mpr (mem_cons_of_mem token listed), ?_⟩
    rw [← isId]
    intro same
    exact separate.1 (mem_map.mpr ⟨other, listed, same⟩)
  refine ⟨kept.few, next.trans kept.next, kept.numbered,
    ⟨kept.consumes.distinct, ?_, ?_⟩, kept.unused, ?_, ?_, ?_, ?_⟩
  · rw [isId] at notConsumed
    exact List.nodup_cons.mpr ⟨notConsumed, kept.consumes.once⟩
  · intro consumption listed
    rcases mem_cons.mp listed with isNew | earlier
    · rw [isNew]
      exact ⟨token, issued, isId, isEntity, isShard, inTime⟩
    exact kept.consumes.named consumption earlier
  · refine (after.map (·.tokenId)).nodup_iff.mpr ?_
    exact List.nodup_cons.mpr separate
  · intro other listed
    rcases mem_cons.mp (after.mem_iff.mp listed) with isToken | isRest
    · rw [isToken]
      exact kept.known token isStored
    exact kept.known other (restStored other isRest).1
  · intro other listed
    rcases mem_cons.mp (after.mem_iff.mp listed) with isToken | isRest
    · rw [isToken]
      refine iff_of_true rfl ?_
      rw [isId]
      exact mem_cons_self
    have apart := restStored other isRest
    rw [kept.marked other apart.1]
    exact (or_iff_right apart.2).symm.trans mem_cons.symm
  intro other isIssued notNow notDisplaced stillInTime
  have notBefore : other.tokenId ∉ log.consumedIds :=
    fun listed => notNow (mem_cons_of_mem tokenId listed)
  have wasStored := kept.live other isIssued notBefore notDisplaced
    (UInt64.le_trans later stillInTime)
  refine after.mem_iff.mpr (mem_cons_of_mem _ ?_)
  refine (mem_cons.mp (before.mem_iff.mp wasStored)).resolve_left ?_
  rintro rfl
  rw [isId] at notNow
  exact notNow mem_cons_self

theorem Kept.purge (kept : log.Kept) (later : log.now ≤ currentTick) :
    (step lookahead log (.purge currentTick)).Kept := by
  rw [step]
  have purged := log.predictor.stored_purgeExpired currentTick
  have wasStored : ∀ token ∈ (log.predictor.purgeExpired currentTick).stored,
      token ∈ log.predictor.stored := by
    intro token isStored
    rw [purged] at isStored
    exact mem_of_mem_filter isStored
  refine ⟨kept.few, kept.next, kept.numbered, { kept.consumes with }, kept.unused, ?_, ?_, ?_, ?_⟩
  · refine kept.separate.sublist (List.Sublist.map _ ?_)
    rw [purged]
    exact filter_sublist
  · intro token isStored
    exact kept.known token (wasStored token isStored)
  · intro token isStored
    exact kept.marked token (wasStored token isStored)
  intro token issued notConsumed notDisplaced inTime
  have isStored := kept.live token issued notConsumed notDisplaced (UInt64.le_trans later inTime)
  rw [purged, mem_filter]
  refine ⟨isStored, ?_⟩
  rw [PredictiveMigrationPreAuth.isReclaimable, kept.unused token issued, Bool.false_or,
    Bool.not_eq_true', decide_eq_false_iff_not]
  exact UInt64.not_lt.mpr inTime

theorem Kept.evaluate (kept : log.Kept) {entityId : UInt32} {currentCoord : GlobalCoord}
    {velocity : Vec3Fix} {sourceShard : UInt32} {shardManager : AdaptiveShardManager}
    (lawful : log.Lawful lookahead
      (.evaluate entityId currentCoord velocity sourceShard shardManager currentTick)) :
    (step lookahead log
        (.evaluate entityId currentCoord velocity sourceShard shardManager currentTick)).Kept ∧
      log.NamesCrossing lookahead
        (.evaluate entityId currentCoord velocity sourceShard shardManager currentTick) := by
  rcases lawful with ⟨later, few⟩
  rw [NamesCrossing, returned]
  rw [step] at few ⊢
  rw [PredictiveSeamPredictor.evaluateWithin] at few ⊢
  rcases crossed : PredictiveSeamPredictor.crossingWithin lookahead currentCoord velocity
    sourceShard shardManager with _ | ⟨projected, targetShard⟩
  · refine ⟨kept.wait later, ?_⟩
    rintro _ ⟨⟩
  rw [crossed] at few
  rw [PredictiveSeamPredictor.preAuthenticate] at few ⊢
  rcases found : log.predictor.activeToken entityId targetShard currentTick with _ | token
  · have isNew : log.predictor.newToken entityId projected sourceShard targetShard currentTick ∉
        log.issued :=
      kept.next_fresh rfl
    rw [found] at few
    simp only [filter_some, decide_eq_true isNew, if_pos] at few ⊢
    refine ⟨kept.issue later rfl rfl few, ?_⟩
    rintro _ ⟨⟩
    exact ⟨projected, rfl, rfl, .inl ⟨rfl, rfl, isNew⟩⟩
  obtain ⟨isStored, isEntity, isShard, unused, inTime⟩ :=
    PredictiveSeamPredictor.activeToken_spec found
  obtain ⟨issued, notConsumed⟩ := kept.issued_of_stored isStored unused
  have known : decide (token ∉ log.issued) = false := decide_eq_false (not_not_intro issued)
  simp only [filter_some, known, Bool.false_eq_true, if_false]
  refine ⟨kept.wait later, ?_⟩
  rintro _ ⟨⟩
  exact ⟨projected, by rw [isShard], isEntity, .inr ⟨issued, notConsumed, inTime⟩⟩

theorem Kept.step (kept : log.Kept) {call : PreAuthCall} (lawful : log.Lawful lookahead call) :
    (PreAuthLog.step lookahead log call).Kept ∧ log.NamesCrossing lookahead call := by
  cases call with
  | evaluate => exact kept.evaluate lawful
  | consume => exact ⟨kept.consume lawful.later, trivial⟩
  | purge => exact ⟨kept.purge lawful.later, trivial⟩

/-- Every issued token is consumed once at most, for what it names and in time, and can be
consumed until it expires unless it has been displaced; and every token that is returned
names the crossing, with its sector when it is new. -/
theorem tokens_kept (lookahead : Fixed64) (tokenTtlTicks : UInt64) (calls : List PreAuthCall)
    (lawful : EachStep (PreAuthLog.step lookahead) (Lawful lookahead) (start tokenTtlTicks) calls) :
    Throughout (PreAuthLog.step lookahead)
        (fun log => log.ConsumesOnce ∧ log.StaysConsumable) (start tokenTtlTicks) calls ∧
      EachStep (PreAuthLog.step lookahead) (NamesCrossing lookahead) (start tokenTtlTicks)
        calls := by
  have preserved : ∀ (log : PreAuthLog) (call : PreAuthCall), log.Kept →
      log.Lawful lookahead call → (PreAuthLog.step lookahead log call).Kept :=
    fun _ _ kept lawful => (kept.step lawful).1
  have always := throughout_of_eachStep preserved (kept_start tokenTtlTicks) lawful
  refine ⟨always.imp fun log kept => ⟨kept.consumes, kept.staysConsumable⟩, ?_⟩
  exact eachStep_of_invariant preserved (fun _ _ kept lawful => (kept.step lawful).2)
    (kept_start tokenTtlTicks) lawful

def twoShards : AdaptiveShardManager where
  shards := []
  shardCount := 2
  sectors := (((∅ : Finmap fun _ : Int32 × Int32 => SectorMetadata).insert (0, 0)
    ⟨0, 0, 0⟩).insert (1, 0) ⟨1, 0, 0⟩).insert (2, 0) ⟨1, 0, 0⟩
  hotspotThreshold := defaultHotspotEntityThreshold
  wildernessThreshold := defaultWildernessEntityThreshold
  backgroundShardId := 0

/-- An entity at the origin, at some metres a second. -/
def leaves (entityId : UInt32) (speed : Int32) : PreAuthCall :=
  .evaluate entityId ⟨0, 0, Vec3Fix.fromI32 0 0 0⟩ (Vec3Fix.fromI32 speed 0 0) 0 twoShards 0

theorem lawful_twice :
    EachStep (PreAuthLog.step lookaheadSeconds) (Lawful lookaheadSeconds) (start 30)
      [leaves 7 600, leaves 7 1200] :=
  ⟨⟨by decide, by decide +kernel⟩, ⟨by decide +kernel, by decide +kernel⟩, trivial⟩

theorem tokens_kept_twice : Throughout (PreAuthLog.step lookaheadSeconds)
        (fun log => log.ConsumesOnce ∧ log.StaysConsumable) (start 30)
        [leaves 7 600, leaves 7 1200] ∧
      EachStep (PreAuthLog.step lookaheadSeconds) (NamesCrossing lookaheadSeconds) (start 30)
        [leaves 7 600, leaves 7 1200] :=
  tokens_kept lookaheadSeconds 30 [leaves 7 600, leaves 7 1200] lawful_twice

theorem issued_leaves (log : PreAuthLog) (entityId : UInt32) :
    (∃ token ∈ (PreAuthLog.step lookaheadSeconds log (leaves entityId 600)).issued,
        token.entityId = entityId) ∧
      log.issued ⊆ (PreAuthLog.step lookaheadSeconds log (leaves entityId 600)).issued ∧
      (PreAuthLog.step lookaheadSeconds log (leaves entityId 600)).consumed = log.consumed := by
  have crossed : PredictiveSeamPredictor.crossingWithin lookaheadSeconds
      ⟨0, 0, Vec3Fix.fromI32 0 0 0⟩ (Vec3Fix.fromI32 600 0 0) 0 twoShards =
        some (⟨1, 0, Vec3Fix.fromI32 44 0 0⟩, 1) := by
    decide +kernel
  obtain ⟨predictor, token, evaluated, names⟩ : ∃ predictor token,
      log.predictor.evaluateWithin lookaheadSeconds entityId ⟨0, 0, Vec3Fix.fromI32 0 0 0⟩
          (Vec3Fix.fromI32 600 0 0) 0 twoShards 0 = (predictor, some token) ∧
        token.entityId = entityId := by
    rw [PredictiveSeamPredictor.evaluateWithin, crossed, PredictiveSeamPredictor.preAuthenticate]
    rcases found : log.predictor.activeToken entityId 1 0 with _ | token
    · exact ⟨_, _, rfl, rfl⟩
    exact ⟨_, _, rfl, (PredictiveSeamPredictor.activeToken_spec found).2.1⟩
  rw [leaves, PreAuthLog.step, evaluated]
  simp only
  by_cases known : token ∈ log.issued
  · rw [filter_some, decide_eq_false (not_not_intro known)]
    exact ⟨⟨token, known, names⟩, List.Subset.refl _, rfl⟩
  rw [filter_some, decide_eq_true known]
  exact ⟨⟨token, mem_cons_self, names⟩, subset_cons_self _ _, rfl⟩

theorem issued_flights (entities : List UInt32) (log : PreAuthLog) :
    let after := run (PreAuthLog.step lookaheadSeconds) log (entities.map (leaves · 600))
    (∀ entityId ∈ entities, ∃ token ∈ after.issued, token.entityId = entityId) ∧
      log.issued ⊆ after.issued ∧ after.consumed = log.consumed := by
  induction entities generalizing log with
  | nil =>
    refine ⟨?_, List.Subset.refl _, rfl⟩
    rintro _ ⟨⟩
  | cons first entities ih =>
    obtain ⟨⟨token, issued, names⟩, kept, same⟩ := issued_leaves log first
    obtain ⟨others, stillKept, stillSame⟩ :=
      ih (PreAuthLog.step lookaheadSeconds log (leaves first 600))
    refine ⟨?_, List.Subset.trans kept stillKept, stillSame.trans same⟩
    intro entityId listed
    rcases mem_cons.mp listed with isFirst | later
    · rw [isFirst]
      exact ⟨token, stillKept issued, names⟩
    exact others entityId later

theorem length_le_of_consumable {log : PreAuthLog} {entities : List UInt32}
    (distinct : entities.Nodup)
    (consumable : ∀ entityId ∈ entities, ∃ token : PredictiveMigrationPreAuth,
      token.entityId = entityId ∧ log.Consumable token currentTick) :
    entities.length ≤ maxActivePreAuths := by
  have listed : entities ⊆ log.predictor.stored.map (·.entityId) := by
    intro entityId isEntity
    obtain ⟨token, names, consumed, isConsumed⟩ := consumable entityId isEntity
    rcases log.predictor.consume_cases token.tokenId token.entityId token.targetShard
      currentTick with ⟨error, failed⟩ | ⟨held, rest, _, _, _, sameEntity, _, _, _, _, before, _⟩
    · rw [failed] at isConsumed
      cases isConsumed
    refine mem_map.mpr ⟨held, before.mem_iff.mpr mem_cons_self, ?_⟩
    exact sameEntity.trans names
  have fits := (subperm_of_subset distinct listed).length_le
  rw [length_map] at fits
  refine fits.trans ?_
  rw [← log.predictor.length_tokens]
  exact reduceOption_length_le _

/-- The entities 0 to 512. -/
def flying : List UInt32 :=
  (List.range 513).map UInt32.ofNat

/-- A faster entity is given the token for the sector of the slower one; and of 513 tokens
one cannot be consumed any more. -/
theorem not_tokens_kept_displaced : (¬ ∀ token projected,
      (run (PreAuthLog.step lookaheadSeconds) (start 30) [leaves 7 600]).returned
          lookaheadSeconds (leaves 7 1200) = some token →
        PredictiveSeamPredictor.crossingWithin lookaheadSeconds
            ⟨0, 0, Vec3Fix.fromI32 0 0 0⟩ (Vec3Fix.fromI32 1200 0 0) 0 twoShards =
          some (projected, token.targetShard) →
        token.targetSectorX = projected.sectorX ∧ token.targetSectorZ = projected.sectorZ) ∧
      ¬ ∀ token ∈ (run (PreAuthLog.step lookaheadSeconds) (start 30)
          (flying.map (leaves · 600))).issued,
        token.tokenId ∉ (run (PreAuthLog.step lookaheadSeconds) (start 30)
            (flying.map (leaves · 600))).consumedIds →
          (run (PreAuthLog.step lookaheadSeconds) (start 30)
            (flying.map (leaves · 600))).Consumable token 0 := by
  constructor
  · intro names
    have crossed : PredictiveSeamPredictor.crossingWithin lookaheadSeconds
        ⟨0, 0, Vec3Fix.fromI32 0 0 0⟩ (Vec3Fix.fromI32 1200 0 0) 0 twoShards =
          some (⟨2, 0, Vec3Fix.fromI32 88 0 0⟩, 1) := by
      decide +kernel
    have given : (run (PreAuthLog.step lookaheadSeconds) (start 30) [leaves 7 600]).returned
        lookaheadSeconds (leaves 7 1200) = some ⟨1, 7, 0, 1, 1, 0, 0, 30, false⟩ := by
      decide +kernel
    have same := (names _ _ given crossed).1
    cases same
  intro consumable
  have distinct : flying.Nodup := by
    refine List.Nodup.map_on ?_ nodup_range
    intro first firstListed second secondListed same
    have firstSmall := mem_range.mp firstListed
    have secondSmall := mem_range.mp secondListed
    have numbers := congrArg UInt32.toNat same
    rw [UInt32.toNat_ofNat', UInt32.toNat_ofNat'] at numbers
    omega
  obtain ⟨issued, _, noConsumption⟩ := issued_flights flying (start 30)
  have fits := length_le_of_consumable distinct fun entityId listed => by
    obtain ⟨token, isIssued, names⟩ := issued entityId listed
    refine ⟨token, names, consumable token isIssued ?_⟩
    rw [consumedIds, noConsumption]
    exact not_mem_nil
  rw [flying, length_map, length_range, maxActivePreAuths] at fits
  omega

end PreAuthLog

end Eidolon.World
