import Eidolon.Client.Actions
import Eidolon.Server.Dispatch

/-!
# The server's reading of the client's actions

Which actions of the client the server ignores or handles as what they are, and which it
tells from every other action.  Handshake messages are known by their length only, so a
chat text of the right length is taken for one, and two kinds of action have the same
first byte.
-/

namespace Eidolon.Server

open Client Core Library List Net Option

inductive HandledAs : Action → Request → Prop
  | attack (targetId param : UInt32) :
      HandledAs (.attack targetId param) (.melee targetId param)
  | castAbility (targetId abilityId : UInt32) :
      HandledAs (.castAbility targetId abilityId) (.castAbility targetId abilityId)
  | equipItem (inventorySlot equipSlot : UInt32) (slot : EquipmentSlot)
      (named : slot.asU8.toNat = equipSlot.toNat) :
      HandledAs (.equipItem inventorySlot equipSlot) (.equipItem inventorySlot slot)
  | unequipItem (equipSlot param : UInt32) (slot : EquipmentSlot)
      (named : slot.asU8.toNat = equipSlot.toNat) :
      HandledAs (.unequipItem equipSlot param) (.unequipItem slot)
  | sendChat (channel : UInt8) (targetId : UInt32) (message : String) :
      HandledAs (.sendChat channel targetId message) (.chat channel targetId (textBytes message))
  | partyCommand (cmd : UInt8) (targetAccount : UInt64) :
      HandledAs (.partyCommand cmd targetAccount) (.party cmd targetAccount)

/-- The server ignores the action or handles it as what it is. -/
def Agrees (action : Action) : Prop :=
  ∀ request, dispatchReliable action.payload = some request → HandledAs action request

/-- No other action is decoded as the same request. -/
def DecodedApart (action : Action) : Prop :=
  ∀ request, dispatchReliable action.payload = some request →
    ∀ other : Action, dispatchReliable other.payload = some request → other = action

/-- The arguments for which an action is ignored or handled as what it is: the low byte of
an equipment slot names no slot that the whole word does not name, a chat text is sent
whole and its payload has not the length of a handshake message, and the first byte of
a prefab identifier is no party command. -/
def Agreeable : Action → Prop
  | .equipItem _ equipSlot | .unequipItem equipSlot _ =>
    equipSlot.toNat % 256 < numEquipmentSlots → equipSlot.toNat < 256
  | .sendChat _ _ message =>
    (textBytes message).length ≤ 256 ∧ (textBytes message).length ≠ 18 ∧
      (textBytes message).length ≠ 64
  | .placeStructure prefabTypeId _ _ _ _ => prefabTypeId.toNat / 2 ^ 24 ∉ [1, 2, 3]
  | _ => True

/-- The arguments for which no other action is decoded as the same request. -/
def Separable : Action → Prop
  | .equipItem _ equipSlot | .unequipItem equipSlot _ => numEquipmentSlots ≤ equipSlot.toNat % 256
  | .sendChat _ _ message => (textBytes message).length < 256
  | .partyCommand cmd _ => cmd.toNat ∉ [1, 2, 3]
  | .placeStructure prefabTypeId _ _ _ _ => prefabTypeId.toNat / 2 ^ 24 ∉ [1, 2, 3]
  | _ => True

@[simp]
private theorem length_wordBytes (value : UInt32) : (wordBytes value).length = 4 :=
  length_bigEndian 4 value.toNat

variable {payload : List UInt8}

private theorem word_eq {rest : List UInt8} {offset : Nat} {value : UInt32}
    (here : payload.drop offset = wordBytes value ++ rest) : word payload offset = value := by
  have read : ofBigEndian (bigEndian 4 value.toNat) = value.toNat :=
    ofBigEndian_bigEndian value.toNat_lt
  rw [word, here, take_left' (length_wordBytes value), wordBytes, read, UInt32.ofNat_toNat]

private theorem wordBytes_injective {value other : UInt32}
    (same : wordBytes value = wordBytes other) : value = other := by
  have read : word (wordBytes value) 0 = value :=
    word_eq (append_nil (wordBytes value)).symm
  have otherRead : word (wordBytes value) 0 = other := by
    rw [same]
    exact word_eq (append_nil (wordBytes other)).symm
  exact read.symm.trans otherRead

private def wordOf (bytes : List UInt8) : UInt32 :=
  UInt32.ofNat (ofBigEndian bytes)

private theorem wordBytes_wordOf {bytes : List UInt8} (length : bytes.length = 4) :
    wordBytes (wordOf bytes) = bytes := by
  have small : ofBigEndian bytes < 2 ^ 32 := ofBigEndian_lt length
  rw [wordBytes, wordOf, UInt32.toNat_ofNat_of_lt' small, bigEndian_ofBigEndian length]

private theorem wordBytes_eq (value : UInt32) :
    wordBytes value = UInt8.ofNat (value.toNat / 2 ^ 24) :: (wordBytes value).drop 1 := by
  have high : value.toNat / 256 / 256 / 256 = value.toNat / 2 ^ 24 := by
    omega
  simp only [wordBytes, bigEndian, littleEndian, high]
  rfl

@[simp]
private theorem length_sendAction (actionType : UInt8) (targetId param : UInt32) :
    (sendAction actionType targetId param).length = 9 := by
  simp [sendAction]

private theorem word_sendAction (actionType : UInt8) (targetId param : UInt32) :
    word (sendAction actionType targetId param) 1 = targetId :=
  word_eq rfl

private theorem word_sendAction' (actionType : UInt8) (targetId param : UInt32) :
    word (sendAction actionType targetId param) 5 = param := by
  have here : (sendAction actionType targetId param).drop 5 = wordBytes param ++ [] := by
    exact drop_left' (length_wordBytes targetId)
  exact word_eq here

private theorem dispatch_short (noChallenge : payload.length ≠ challengeReqLen)
    (noFinalize : payload.length ≠ finalizeReqLen) :
    dispatchReliable payload = dispatchAction payload := by
  rw [dispatchReliable, if_neg noChallenge, if_neg noFinalize]

private theorem dispatch_sendAction (actionType : UInt8) (targetId param : UInt32) :
    dispatchReliable (sendAction actionType targetId param) =
      dispatchAction (sendAction actionType targetId param) := by
  apply dispatch_short
  · rw [length_sendAction]
    decide
  rw [length_sendAction]
  decide

theorem dispatch_attack (targetId param : UInt32) :
    dispatchReliable (Action.attack targetId param).payload = some (.melee targetId param) := by
  rw [Action.payload, dispatch_sendAction, dispatchAction, word_sendAction, word_sendAction']
  rfl

theorem dispatch_castAbility (targetId abilityId : UInt32) :
    dispatchReliable (Action.castAbility targetId abilityId).payload =
      some (.castAbility targetId abilityId) := by
  rw [Action.payload, dispatch_sendAction, dispatchAction, word_sendAction, word_sendAction']
  rfl

theorem dispatch_equipItem (inventorySlot equipSlot : UInt32) :
    dispatchReliable (Action.equipItem inventorySlot equipSlot).payload =
      (EquipmentSlot.fromU8 equipSlot.toUInt8).map (.equipItem inventorySlot) := by
  rw [Action.payload, dispatch_sendAction, dispatchAction, word_sendAction, word_sendAction']
  rfl

theorem dispatch_unequipItem (equipSlot param : UInt32) :
    dispatchReliable (Action.unequipItem equipSlot param).payload =
      (EquipmentSlot.fromU8 equipSlot.toUInt8).map .unequipItem := by
  rw [Action.payload, dispatch_sendAction, dispatchAction, word_sendAction]
  rfl

theorem dispatch_destroyStructure (structureId : UInt32) :
    dispatchReliable (Action.destroyStructure structureId).payload = none := by
  rfl

theorem dispatch_enterInteriorCell (cellId : UInt32) :
    dispatchReliable (Action.enterInteriorCell cellId).payload = none := by
  rfl

theorem dispatch_exitInteriorCell : dispatchReliable Action.exitInteriorCell.payload = none := by
  rfl

theorem dispatch_moveInteriorItem (cellId itemInstanceId localX localY localZ yawDegrees : UInt32) :
    dispatchReliable (Action.moveInteriorItem cellId itemInstanceId localX localY localZ
      yawDegrees).payload = none := by
  rfl

private theorem isCommand_iff (cmd : UInt8) :
    (cmd = 1 ∨ cmd = 2 ∨ cmd = 3) ↔ cmd.toNat ∈ [1, 2, 3] := by
  simp only [mem_cons, not_mem_nil, or_false, ← UInt8.toNat_inj]
  rfl

private theorem dispatch_party {rest : List UInt8} (cmd : UInt8) (long : 8 ≤ rest.length)
    (noChallenge : rest.length ≠ 24) (noFinalize : rest.length ≠ 70) :
    dispatchReliable (6 :: cmd :: rest) =
      if cmd.toNat ∈ [1, 2, 3] then
        some (.party cmd (UInt64.ofNat (ofBigEndian (rest.take 8))))
      else none := by
  have enough : True ∧ 10 ≤ (6 :: cmd :: rest).length := by
    refine ⟨trivial, ?_⟩
    simp only [length_cons]
    omega
  rw [dispatch_short (by simp [challengeReqLen, noChallenge]) (by simp [finalizeReqLen, noFinalize]),
    dispatchAction]
  simp only [List.head?_cons, getD_cons_succ, getD_cons_zero, drop_succ_cons, drop_zero]
  rw [if_neg (by simp), if_neg (by simp), if_neg (by simp), if_neg (by simp), if_neg (by simp),
    if_pos enough]
  by_cases known : cmd.toNat ∈ [1, 2, 3]
  · rw [if_pos known, if_pos ((isCommand_iff cmd).mpr known)]
  rw [if_neg known, if_neg (fun command => known ((isCommand_iff cmd).mp command))]

theorem dispatch_partyCommand (cmd : UInt8) (targetAccount : UInt64) :
    dispatchReliable (Action.partyCommand cmd targetAccount).payload =
      if cmd.toNat ∈ [1, 2, 3] then some (.party cmd targetAccount) else none := by
  have read : ofBigEndian (bigEndian 8 targetAccount.toNat) = targetAccount.toNat :=
    ofBigEndian_bigEndian targetAccount.toNat_lt
  have length : (bigEndian 8 targetAccount.toNat).length = 8 := length_bigEndian 8 _
  rw [Action.payload, dispatch_party cmd (by omega) (by omega) (by omega),
    take_of_length_le (by omega), read, UInt64.ofNat_toNat]

variable (prefabTypeId : UInt32)

private def placementRest (x y z yawDegrees : UInt32) : List UInt8 :=
  (wordBytes prefabTypeId).drop 1 ++ (wordBytes x ++ (wordBytes y ++ (wordBytes z ++
    wordBytes yawDegrees)))

private theorem length_placementRest (x y z yawDegrees : UInt32) :
    (placementRest prefabTypeId x y z yawDegrees).length = 19 := by
  simp [placementRest]

private theorem payload_placeStructure (x y z yawDegrees : UInt32) :
    (Action.placeStructure prefabTypeId x y z yawDegrees).payload =
      6 :: UInt8.ofNat (prefabTypeId.toNat / 2 ^ 24) ::
        placementRest prefabTypeId x y z yawDegrees := by
  rw [placementRest, ← cons_append, ← wordBytes_eq]
  rfl

private theorem toNat_high :
    (UInt8.ofNat (prefabTypeId.toNat / 2 ^ 24)).toNat = prefabTypeId.toNat / 2 ^ 24 := by
  have small := prefabTypeId.toNat_lt
  rw [UInt8.toNat_ofNat']
  omega

theorem dispatch_placeStructure (x y z yawDegrees : UInt32) :
    dispatchReliable (Action.placeStructure prefabTypeId x y z yawDegrees).payload =
      if prefabTypeId.toNat / 2 ^ 24 ∈ [1, 2, 3] then
        some (.party (UInt8.ofNat (prefabTypeId.toNat / 2 ^ 24)) (UInt64.ofNat (ofBigEndian
            ((placementRest prefabTypeId x y z yawDegrees).take 8))))
      else none := by
  have length := length_placementRest prefabTypeId x y z yawDegrees
  rw [payload_placeStructure, dispatch_party _ (by omega) (by omega) (by omega), toNat_high]

private theorem length_sentText (message : String) :
    (sentText message).length = min (textBytes message).length 256 := by
  rw [sentText, length_take, Nat.min_comm]

variable (channel : UInt8) (targetId : UInt32) (message : String)

private theorem length_sendChat : (Action.sendChat channel targetId message).payload.length =
      8 + min (textBytes message).length 256 := by
  simp only [Action.payload, length_cons, length_append, length_wordBytes,
    length_bigEndian, length_sentText]
  omega

theorem dispatch_sendChat {channel : UInt8} {targetId : UInt32} {message : String}
    (noChallenge : min (textBytes message).length 256 ≠ 18)
    (noFinalize : min (textBytes message).length 256 ≠ 64) :
    dispatchReliable (Action.sendChat channel targetId message).payload =
      some (.chat channel targetId (sentText message)) := by
  have length := length_sendChat channel targetId message
  have small : min (textBytes message).length 256 < 256 ^ 2 := by
    omega
  have lengthRead : ofBigEndian (((Action.sendChat channel targetId message).payload.drop 6).take 2) =
      min (textBytes message).length 256 := by
    have here : (Action.sendChat channel targetId message).payload.drop 6 =
        bigEndian 2 (min (textBytes message).length 256) ++ sentText message := by
      exact drop_left' (length_wordBytes targetId)
    rw [here, take_left' (length_bigEndian 2 _), ofBigEndian_bigEndian small]
  have textRead : ((Action.sendChat channel targetId message).payload.drop 8).take
      (min (textBytes message).length 256) = sentText message := by
    have here : (Action.sendChat channel targetId message).payload.drop 8 = sentText message := by
      rw [Action.payload, ← append_assoc]
      apply drop_left'
      rw [length_append, length_wordBytes, length_bigEndian]
    rw [here, take_of_length_le (Nat.le_of_eq (length_sentText message))]
  have targetRead : word (Action.sendChat channel targetId message).payload 2 = targetId :=
    word_eq rfl
  rw [dispatch_short (by rw [challengeReqLen]; omega)
    (by rw [finalizeReqLen]; omega), dispatchAction]
  simp only [lengthRead, textRead, targetRead, length]
  rw [Action.payload]
  simp

private theorem dispatch_challenge (exact : payload.length = challengeReqLen) :
    ∃ request, dispatchReliable payload = some (.challenge request) ∧
      request.encoded = payload := by
  obtain ⟨request, read, same⟩ := ConnectChallengeRequest.readFrom_exact exact
  refine ⟨request, ?_, same⟩
  rw [dispatchReliable, if_pos exact, read]
  rfl

private theorem dispatch_finalize (exact : payload.length = finalizeReqLen) :
    ∃ request, dispatchReliable payload = some (.finalize request) ∧ request.encoded = payload := by
  obtain ⟨request, read, same⟩ := ConnectFinalizeRequest.readFrom_exact exact
  refine ⟨request, ?_, same⟩
  rw [dispatchReliable, if_neg (by rw [exact]; decide), if_pos exact, read]
  rfl

inductive ChatRequest (channel : UInt8) (targetId : UInt32) (message : String) : Request → Prop
  | challenge (request : ConnectChallengeRequest)
      (length : min (textBytes message).length 256 = 18)
      (same : request.encoded = (Action.sendChat channel targetId message).payload) :
      ChatRequest channel targetId message (.challenge request)
  | finalize (request : ConnectFinalizeRequest)
      (length : min (textBytes message).length 256 = 64)
      (same : request.encoded = (Action.sendChat channel targetId message).payload) :
      ChatRequest channel targetId message (.finalize request)
  | chat (noChallenge : min (textBytes message).length 256 ≠ 18)
      (noFinalize : min (textBytes message).length 256 ≠ 64) :
      ChatRequest channel targetId message (.chat channel targetId (sentText message))

private theorem chatRequest_of_sendChat :
    ∃ request, dispatchReliable (Action.sendChat channel targetId message).payload =
        some request ∧ ChatRequest channel targetId message request := by
  have length := length_sendChat channel targetId message
  by_cases asChallenge : min (textBytes message).length 256 = 18
  · have exact : (Action.sendChat channel targetId message).payload.length = challengeReqLen := by
      rw [length, asChallenge, challengeReqLen]
    obtain ⟨request, decoded, same⟩ := dispatch_challenge exact
    exact ⟨_, decoded, .challenge request asChallenge same⟩
  by_cases asFinalize : min (textBytes message).length 256 = 64
  · have exact : (Action.sendChat channel targetId message).payload.length =
        finalizeReqLen := by
      rw [length, asFinalize, finalizeReqLen]
    obtain ⟨request, decoded, same⟩ := dispatch_finalize exact
    exact ⟨_, decoded, .finalize request asFinalize same⟩
  exact ⟨_, dispatch_sendChat asChallenge asFinalize, .chat asChallenge asFinalize⟩

private theorem payload_eq_of_chatRequest {channel otherChannel : UInt8}
    {targetId otherTarget : UInt32} {message otherMessage : String} {request : Request}
    (first : ChatRequest channel targetId message request)
    (second : ChatRequest otherChannel otherTarget otherMessage request) :
    channel = otherChannel ∧ targetId = otherTarget ∧ sentText message = sentText otherMessage := by
  have apart : ∀ {payload : List UInt8},
      payload = (Action.sendChat channel targetId message).payload →
      payload = (Action.sendChat otherChannel otherTarget otherMessage).payload →
      channel = otherChannel ∧ targetId = otherTarget ∧
        sentText message = sentText otherMessage := by
    intro payload isFirst isSecond
    have same := isFirst.symm.trans isSecond
    simp only [Action.payload, List.cons.injEq, true_and] at same
    obtain ⟨sameChannel, sameRest⟩ := same
    obtain ⟨sameTarget, sameText⟩ := append_inj sameRest (by simp)
    obtain ⟨_, sameSent⟩ := append_inj sameText (by simp)
    exact ⟨sameChannel, wordBytes_injective sameTarget, sameSent⟩
  cases first with
  | challenge request length same =>
    cases second with
    | challenge _ _ otherSame => exact apart same otherSame
  | finalize request length same =>
    cases second with
    | finalize _ _ otherSame => exact apart same otherSame
  | chat =>
    generalize sentText message = text at second
    cases second
    exact ⟨rfl, rfl, rfl⟩

/-- Which actions a request can come from; nothing is said of the requests that several
actions are decoded as. -/
private def SentAs : Request → Action → Prop
  | .melee targetId param, action => action = .attack targetId param
  | .castAbility targetId abilityId, action => action = .castAbility targetId abilityId
  | .challenge request, action =>
    ∃ channel targetId message, action = .sendChat channel targetId message ∧
      ChatRequest channel targetId message (.challenge request)
  | .finalize request, action =>
    ∃ channel targetId message, action = .sendChat channel targetId message ∧
      ChatRequest channel targetId message (.finalize request)
  | .chat channel targetId text, action =>
    ∃ otherChannel otherTarget message, action = .sendChat otherChannel otherTarget message ∧
      ChatRequest otherChannel otherTarget message (.chat channel targetId text)
  | .equipItem _ _, _ | .unequipItem _, _ | .party _ _, _ => True

private theorem sentAs_of_dispatch {action : Action} {request : Request}
    (decoded : dispatchReliable action.payload = some request) : SentAs request action := by
  cases action with
  | attack targetId param =>
    rw [dispatch_attack, some.injEq] at decoded
    subst decoded
    rfl
  | castAbility targetId abilityId =>
    rw [dispatch_castAbility, some.injEq] at decoded
    subst decoded
    rfl
  | equipItem inventorySlot equipSlot =>
    rw [dispatch_equipItem, map_eq_some_iff] at decoded
    obtain ⟨slot, _, rfl⟩ := decoded
    trivial
  | unequipItem equipSlot param =>
    rw [dispatch_unequipItem, map_eq_some_iff] at decoded
    obtain ⟨slot, _, rfl⟩ := decoded
    trivial
  | sendChat channel targetId message =>
    obtain ⟨actual, actualDecoded, kept⟩ := chatRequest_of_sendChat channel targetId message
    rw [decoded, some.injEq] at actualDecoded
    subst actualDecoded
    cases kept with
    | challenge request length same =>
      exact ⟨channel, targetId, message, rfl, .challenge request length same⟩
    | finalize request length same =>
      exact ⟨channel, targetId, message, rfl, .finalize request length same⟩
    | chat noChallenge noFinalize =>
      exact ⟨channel, targetId, message, rfl, .chat noChallenge noFinalize⟩
  | partyCommand cmd targetAccount =>
    rw [dispatch_partyCommand] at decoded
    split at decoded
    · cases decoded
      trivial
    cases decoded
  | placeStructure prefabTypeId x y z yawDegrees =>
    rw [dispatch_placeStructure] at decoded
    split at decoded
    · cases decoded
      trivial
    cases decoded
  | moveInteriorItem cellId itemInstanceId localX localY localZ yawDegrees =>
    rw [dispatch_moveInteriorItem] at decoded
    cases decoded
  | _ => cases decoded

variable {equipSlot : UInt32}

private theorem slot_of_word {slot : EquipmentSlot}
    (named : EquipmentSlot.fromU8 equipSlot.toUInt8 = some slot) :
    slot.asU8.toNat = equipSlot.toNat % 256 ∧ equipSlot.toNat % 256 < numEquipmentSlots := by
  have low : slot.asU8.toNat = equipSlot.toNat % 256 := by
    rw [EquipmentSlot.asU8_of_fromU8 named]
    exact UInt32.toNat_toUInt8 equipSlot
  exact ⟨low, low ▸ slot.asU8_lt⟩

private theorem exists_slot (low : equipSlot.toNat % 256 < numEquipmentSlots) :
    ∃ slot, EquipmentSlot.fromU8 equipSlot.toUInt8 = some slot := by
  apply Option.isSome_iff_exists.mp
  apply (EquipmentSlot.fromU8_isSome_iff _).mpr
  exact low

private theorem slot_agrees_iff (equipSlot : UInt32) :
    (∀ slot, EquipmentSlot.fromU8 equipSlot.toUInt8 = some slot →
      slot.asU8.toNat = equipSlot.toNat) ↔
    (equipSlot.toNat % 256 < numEquipmentSlots → equipSlot.toNat < 256) := by
  constructor
  · intro agree low
    obtain ⟨slot, named⟩ := exists_slot low
    have same := agree slot named
    have small := slot.asU8.toNat_lt
    omega
  intro whole slot named
  obtain ⟨same, low⟩ := slot_of_word named
  omega

private theorem equipItem_agrees_iff (inventorySlot equipSlot : UInt32) :
    Agrees (.equipItem inventorySlot equipSlot) ↔
      Agreeable (.equipItem inventorySlot equipSlot) := by
  rw [Agrees, dispatch_equipItem, Agreeable, ← slot_agrees_iff]
  constructor
  · intro agrees slot named
    have handled := agrees (.equipItem inventorySlot slot) (by rw [named]; rfl)
    cases handled with
    | equipItem _ _ _ same => exact same
  intro agree request decoded
  obtain ⟨slot, named, rfl⟩ := Option.map_eq_some_iff.mp decoded
  exact .equipItem inventorySlot equipSlot slot (agree slot named)

private theorem unequipItem_agrees_iff (equipSlot param : UInt32) :
    Agrees (.unequipItem equipSlot param) ↔ Agreeable (.unequipItem equipSlot param) := by
  rw [Agrees, dispatch_unequipItem, Agreeable, ← slot_agrees_iff]
  constructor
  · intro agrees slot named
    have handled := agrees (.unequipItem slot) (by rw [named]; rfl)
    cases handled with
    | unequipItem _ _ _ same => exact same
  intro agree request decoded
  obtain ⟨slot, named, rfl⟩ := Option.map_eq_some_iff.mp decoded
  exact .unequipItem equipSlot param slot (agree slot named)

private theorem sendChat_agrees_iff : Agrees (.sendChat channel targetId message) ↔
      Agreeable (.sendChat channel targetId message) := by
  constructor
  · intro agrees
    obtain ⟨request, decoded, kept⟩ := chatRequest_of_sendChat channel targetId message
    have handled := agrees request decoded
    cases kept with
    | chat noChallenge noFinalize =>
      -- the handled text is the whole message, so the sent text is not cut off
      have whole : sentText message = textBytes message := by
        generalize sentText message = text at handled
        cases handled
        rfl
      have length := length_sentText message
      rw [whole] at length
      exact ⟨by omega, by omega, by omega⟩
    | _ => cases handled
  intro agreeable request decoded
  obtain ⟨short, noChallenge, noFinalize⟩ := agreeable
  rw [dispatch_sendChat (by omega) (by omega), some.injEq] at decoded
  have whole : sentText message = textBytes message := take_of_length_le short
  rw [← decoded, whole]
  exact .sendChat channel targetId message

theorem agrees_iff (action : Action) : Agrees action ↔ Agreeable action := by
  cases action with
  | attack targetId param =>
    refine iff_of_true (fun request decoded => ?_) trivial
    rw [dispatch_attack, some.injEq] at decoded
    exact decoded ▸ .attack targetId param
  | castAbility targetId abilityId =>
    refine iff_of_true (fun request decoded => ?_) trivial
    rw [dispatch_castAbility, some.injEq] at decoded
    exact decoded ▸ .castAbility targetId abilityId
  | equipItem inventorySlot equipSlot => exact equipItem_agrees_iff inventorySlot equipSlot
  | unequipItem equipSlot param => exact unequipItem_agrees_iff equipSlot param
  | sendChat channel targetId message => exact sendChat_agrees_iff channel targetId message
  | partyCommand cmd targetAccount =>
    refine iff_of_true (fun request decoded => ?_) trivial
    rw [dispatch_partyCommand] at decoded
    split at decoded
    · cases decoded
      exact .partyCommand cmd targetAccount
    cases decoded
  | placeStructure prefabTypeId x y z yawDegrees =>
    rw [Agrees, dispatch_placeStructure]
    by_cases taken : prefabTypeId.toNat / 2 ^ 24 ∈ [1, 2, 3]
    · rw [if_pos taken]
      refine iff_of_false (fun agrees => ?_) (not_not_intro taken)
      cases agrees _ rfl
    rw [if_neg taken]
    exact iff_of_true (fun request decoded => nomatch decoded) taken
  | destroyStructure structureId =>
    refine iff_of_true (fun request decoded => ?_) trivial
    rw [dispatch_destroyStructure] at decoded
    cases decoded
  | enterInteriorCell cellId =>
    refine iff_of_true (fun request decoded => ?_) trivial
    rw [dispatch_enterInteriorCell] at decoded
    cases decoded
  | _ =>
    refine iff_of_true (fun request decoded => ?_) trivial
    cases decoded

private theorem decodedApart_of_ignored {action : Action}
    (ignored : dispatchReliable action.payload = none) : DecodedApart action := by
  intro request decoded
  rw [ignored] at decoded
  cases decoded

private theorem exists_sameLow (equipSlot : UInt32) :
    ∃ other : UInt32, other.toUInt8 = equipSlot.toUInt8 ∧ other ≠ equipSlot := by
  refine ⟨equipSlot + 256, ?_, ?_⟩
  · apply UInt8.toNat.inj
    rw [UInt32.toNat_toUInt8, UInt32.toNat_toUInt8, UInt32.toNat_add]
    have value : (256 : UInt32).toNat = 256 := rfl
    omega
  intro same
  have value : (256 : UInt32).toNat = 256 := rfl
  have sums : (equipSlot + 256).toNat = equipSlot.toNat := congrArg UInt32.toNat same
  rw [UInt32.toNat_add] at sums
  omega

private theorem fromU8_eq_none (high : numEquipmentSlots ≤ equipSlot.toNat % 256) :
    EquipmentSlot.fromU8 equipSlot.toUInt8 = none := by
  rcases named : EquipmentSlot.fromU8 equipSlot.toUInt8 with _ | slot
  · rfl
  have low := (slot_of_word named).2
  omega

private theorem equipItem_apart_iff (inventorySlot equipSlot : UInt32) :
    DecodedApart (.equipItem inventorySlot equipSlot) ↔
      Separable (.equipItem inventorySlot equipSlot) := by
  constructor
  · intro apart
    by_contra low
    obtain ⟨slot, named⟩ := exists_slot (Nat.lt_of_not_le low)
    obtain ⟨other, sameLow, differs⟩ := exists_sameLow equipSlot
    have same := apart (.equipItem inventorySlot slot) (by rw [dispatch_equipItem, named]; rfl)
      (.equipItem inventorySlot other) (by rw [dispatch_equipItem, sameLow, named]; rfl)
    cases same
    exact differs rfl
  intro high
  apply decodedApart_of_ignored
  rw [dispatch_equipItem, fromU8_eq_none high]
  rfl

private theorem unequipItem_apart_iff (equipSlot param : UInt32) :
    DecodedApart (.unequipItem equipSlot param) ↔ Separable (.unequipItem equipSlot param) := by
  constructor
  · intro apart
    by_contra low
    obtain ⟨slot, named⟩ := exists_slot (Nat.lt_of_not_le low)
    obtain ⟨other, sameLow, differs⟩ := exists_sameLow equipSlot
    have same := apart (.unequipItem slot) (by rw [dispatch_unequipItem, named]; rfl)
      (.unequipItem other param) (by rw [dispatch_unequipItem, sameLow, named]; rfl)
    cases same
    exact differs rfl
  intro high
  apply decodedApart_of_ignored
  rw [dispatch_unequipItem, fromU8_eq_none high]
  rfl

private theorem textBytes_append (more : String) :
    textBytes (message ++ more) = textBytes message ++ textBytes more := by
  simp [textBytes]

private theorem textBytes_injective {message other : String}
    (same : textBytes message = textBytes other) : message = other := by
  apply String.toByteArray_inj.mp
  apply ByteArray.ext
  exact Array.toList_inj.mp same

private theorem sendChat_apart_iff : DecodedApart (.sendChat channel targetId message) ↔
      Separable (.sendChat channel targetId message) := by
  have length := length_sentText message
  constructor
  · intro apart
    by_contra long
    have cutOff : 256 ≤ (textBytes message).length := Nat.le_of_not_lt long
    -- what follows the first 256 bytes is not sent
    have samePayload : (Action.sendChat channel targetId (message ++ "a")).payload =
        (Action.sendChat channel targetId message).payload := by
      have sameText : sentText (message ++ "a") = sentText message := by
        rw [sentText, sentText, textBytes_append, take_append_of_le_length cutOff]
      have sameLength : min (textBytes (message ++ "a")).length 256 =
          min (textBytes message).length 256 := by
        rw [textBytes_append, length_append]
        omega
      rw [Action.payload, Action.payload, sameText, sameLength]
    obtain ⟨request, decoded, _⟩ := chatRequest_of_sendChat channel targetId message
    have same := apart request decoded (.sendChat channel targetId (message ++ "a"))
      (samePayload ▸ decoded)
    simp only [Action.sendChat.injEq, true_and] at same
    have sameBytes : textBytes message ++ textBytes "a" = textBytes message := by
      rw [← textBytes_append, same]
    have noBytes := List.append_right_eq_self.mp sameBytes
    exact absurd noBytes (by decide)
  intro short request decoded other otherDecoded
  have small : (textBytes message).length < 256 := short
  obtain ⟨actual, actualDecoded, kept⟩ := chatRequest_of_sendChat channel targetId message
  rw [decoded, some.injEq] at actualDecoded
  subst actualDecoded
  have otherSent := sentAs_of_dispatch otherDecoded
  have sentBy : ∃ otherChannel otherTarget otherMessage,
      other = .sendChat otherChannel otherTarget otherMessage ∧
      ChatRequest otherChannel otherTarget otherMessage request := by
    cases kept <;> exact otherSent
  obtain ⟨otherChannel, otherTarget, otherMessage, rfl, otherKept⟩ := sentBy
  obtain ⟨rfl, rfl, sameSent⟩ := payload_eq_of_chatRequest kept otherKept
  have otherLength := length_sentText otherMessage
  rw [← sameSent] at otherLength
  rw [sentText, sentText, take_of_length_le (by omega), take_of_length_le (by omega)] at sameSent
  rw [textBytes_injective sameSent]

private theorem exists_placement (cmd : UInt8) (targetAccount : UInt64)
    (known : cmd.toNat ∈ [1, 2, 3]) :
    ∃ prefabTypeId x y z yawDegrees : UInt32,
      dispatchReliable (Action.placeStructure prefabTypeId x y z yawDegrees).payload =
        some (.party cmd targetAccount) := by
  let account := bigEndian 8 targetAccount.toNat
  have length : account.length = 8 := length_bigEndian 8 _
  have read : ofBigEndian account = targetAccount.toNat :=
    ofBigEndian_bigEndian targetAccount.toNat_lt
  have highLength : (account.take 3).length = 3 := by
    rw [length_take]
    omega
  have middleLength : ((account.drop 3).take 4).length = 4 := by
    rw [length_take, length_drop]
    omega
  have lowLength : (account.drop 7).length = 1 := by
    rw [length_drop]
    omega
  have highBytes : wordBytes (wordOf (cmd :: account.take 3)) = cmd :: account.take 3 :=
    wordBytes_wordOf (by simp [highLength])
  have middleBytes := wordBytes_wordOf middleLength
  have lowBytes : wordBytes (wordOf (account.drop 7 ++ [0, 0, 0])) = account.drop 7 ++ [0, 0, 0] :=
    wordBytes_wordOf (by simp [lowLength])
  refine ⟨wordOf (cmd :: account.take 3), wordOf ((account.drop 3).take 4),
    wordOf (account.drop 7 ++ [0, 0, 0]), 0, 0, ?_⟩
  -- the three words hold the command, the account and three bytes of padding
  have joined : account.take 3 ++ ((account.drop 3).take 4 ++ account.drop 7) = account := by
    rw [show account.drop 7 = (account.drop 3).drop 4 by rw [drop_drop],
      take_append_drop, take_append_drop]
  have laidOut : (Action.placeStructure (wordOf (cmd :: account.take 3))
      (wordOf ((account.drop 3).take 4)) (wordOf (account.drop 7 ++ [0, 0, 0])) 0 0).payload =
      6 :: cmd :: (account ++ ([0, 0, 0] ++ (wordBytes 0 ++ wordBytes 0))) := by
    conv_rhs => rw [← joined]
    simp only [Action.payload, highBytes, middleBytes, lowBytes, append_assoc, cons_append]
  rw [laidOut, dispatch_party cmd, if_pos known, take_left' length, read, UInt64.ofNat_toNat]
  all_goals
    rw [length_append, length]
    simp

private theorem partyCommand_apart_iff (cmd : UInt8) (targetAccount : UInt64) :
    DecodedApart (.partyCommand cmd targetAccount) ↔
      Separable (.partyCommand cmd targetAccount) := by
  constructor
  · intro apart known
    obtain ⟨prefabTypeId, x, y, z, yawDegrees, decoded⟩ :=
      exists_placement cmd targetAccount known
    cases apart _ (by rw [dispatch_partyCommand, if_pos known]) _ decoded
  intro unknown
  apply decodedApart_of_ignored
  rw [dispatch_partyCommand, if_neg unknown]

private theorem placeStructure_apart_iff (x y z yawDegrees : UInt32) :
    DecodedApart (.placeStructure prefabTypeId x y z yawDegrees) ↔
      Separable (.placeStructure prefabTypeId x y z yawDegrees) := by
  have decoded := dispatch_placeStructure prefabTypeId x y z yawDegrees
  constructor
  · intro apart taken
    rw [if_pos taken] at decoded
    cases apart _ decoded (.partyCommand _ _)
      (by rw [dispatch_partyCommand, if_pos (by rw [toNat_high]; exact taken)])
  intro untaken
  rw [if_neg untaken] at decoded
  exact decodedApart_of_ignored decoded

theorem decodedApart_iff (action : Action) : DecodedApart action ↔ Separable action := by
  cases action with
  | attack targetId param =>
    refine iff_of_true (fun request decoded other otherDecoded => ?_) trivial
    rw [dispatch_attack, some.injEq] at decoded
    subst decoded
    exact sentAs_of_dispatch otherDecoded
  | castAbility targetId abilityId =>
    refine iff_of_true (fun request decoded other otherDecoded => ?_) trivial
    rw [dispatch_castAbility, some.injEq] at decoded
    subst decoded
    exact sentAs_of_dispatch otherDecoded
  | equipItem inventorySlot equipSlot => exact equipItem_apart_iff inventorySlot equipSlot
  | unequipItem equipSlot param => exact unequipItem_apart_iff equipSlot param
  | sendChat channel targetId message => exact sendChat_apart_iff channel targetId message
  | partyCommand cmd targetAccount => exact partyCommand_apart_iff cmd targetAccount
  | placeStructure prefabTypeId x y z yawDegrees =>
    exact placeStructure_apart_iff prefabTypeId x y z yawDegrees
  | destroyStructure structureId =>
    exact iff_of_true (decodedApart_of_ignored (dispatch_destroyStructure structureId)) trivial
  | enterInteriorCell cellId =>
    exact iff_of_true (decodedApart_of_ignored (dispatch_enterInteriorCell cellId)) trivial
  | exitInteriorCell =>
    exact iff_of_true (decodedApart_of_ignored dispatch_exitInteriorCell) trivial
  | moveInteriorItem cellId itemInstanceId localX localY localZ yawDegrees =>
    exact iff_of_true (decodedApart_of_ignored (dispatch_moveInteriorItem cellId itemInstanceId
      localX localY localZ yawDegrees)) trivial

/-- An action is ignored or handled as what it is exactly for the arguments `Agreeable`
names, and no other action is decoded as the same request exactly for those that
`Separable` names. -/
theorem dispatch_agreement (action : Action) :
    (Agrees action ↔ Agreeable action) ∧ (DecodedApart action ↔ Separable action) :=
  ⟨agrees_iff action, decodedApart_iff action⟩

/-- A chat of eighteen bytes is taken for a challenge request. -/
theorem not_dispatch_agreement_eighteen :
    ¬ ∀ action : Action, Agrees action ∧ DecodedApart action := by
  intro always
  have agrees := (always (.sendChat 3 0 "anyone at the bank")).1
  have exact : (Action.sendChat 3 0 "anyone at the bank").payload.length = challengeReqLen := by
    rfl
  obtain ⟨request, decoded, _⟩ := dispatch_challenge exact
  cases agrees _ decoded

end Eidolon.Server
