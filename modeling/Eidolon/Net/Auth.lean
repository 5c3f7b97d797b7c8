import Eidolon.Net.Packet

/-!
# The challenge-response handshake

The four handshake messages, the cookie of a challenge and the proof of a client.  The
keyed hash of the cookie and of the proof is a parameter.
-/

namespace Eidolon.Net

open Library List

def nonceLen : Nat := 16

/-- Wire length of a challenge request: account (8), client nonce (16), version (2). -/
def challengeReqLen : Nat := 26

/-- Wire length of a finalize request: account (8), cookie (32), proof (32). -/
def finalizeReqLen : Nat := 72

def accountOf (src : List UInt8) : UInt64 :=
  UInt64.ofNat (ofBigEndian (src.take 8))

theorem bigEndian_accountOf {src : List UInt8} (long : 8 ≤ src.length) :
    bigEndian 8 (accountOf src).toNat = src.take 8 := by
  have length : (src.take 8).length = 8 := by
    rw [length_take]
    omega
  have small : ofBigEndian (src.take 8) < 2 ^ 64 := ofBigEndian_lt length
  rw [accountOf, UInt64.toNat_ofNat_of_lt' small, bigEndian_ofBigEndian length]

/-- An array of bytes of a fixed length. -/
abbrev FixedBytes (length : Nat) := { bytes : List UInt8 // bytes.length = length }

namespace FixedBytes

def read (length offset : Nat) (src : List UInt8) (long : offset + length ≤ src.length) :
    FixedBytes length :=
  ⟨(src.drop offset).take length, by
    rw [length_take, length_drop]
    omega⟩

def replicate (length : Nat) (byte : UInt8) : FixedBytes length :=
  ⟨List.replicate length byte, length_replicate⟩

end FixedBytes

structure ConnectChallengeRequest where
  accountId : UInt64
  clientNonce : FixedBytes nonceLen
  protocolVersion : UInt16
  deriving DecidableEq

namespace ConnectChallengeRequest

def encoded (request : ConnectChallengeRequest) : List UInt8 :=
  bigEndian 8 request.accountId.toNat ++ request.clientNonce.val ++
    bigEndian 2 request.protocolVersion.toNat

def readFrom (src : List UInt8) : Except NetError ConnectChallengeRequest :=
  if long : challengeReqLen ≤ src.length then
    .ok { accountId := accountOf src
          clientNonce := FixedBytes.read nonceLen 8 src (by
            simp only [challengeReqLen, nonceLen] at long ⊢
            omega)
          protocolVersion := UInt16.ofNat (ofBigEndian ((src.drop 24).take 2)) }
  else
    .error (.truncatedPacket challengeReqLen src.length)

theorem readFrom_exact {src : List UInt8} (exact : src.length = challengeReqLen) :
    ∃ request, readFrom src = .ok request ∧ request.encoded = src := by
  have length : src.length = 26 := exact
  have versionLength : ((src.drop 24).take 2).length = 2 := by
    rw [length_take, length_drop]
    omega
  have versionSmall : ofBigEndian ((src.drop 24).take 2) < 2 ^ 16 := ofBigEndian_lt versionLength
  have nonceRead : src.take 8 ++ (src.drop 8).take nonceLen = src.take 24 :=
    List.take_add.symm
  have versionRead : src.take 24 ++ (src.drop 24).take 2 = src := by
    rw [← take_add, take_of_length_le (by omega)]
  rw [readFrom, dif_pos (Nat.le_of_eq exact.symm)]
  refine ⟨_, rfl, ?_⟩
  rw [encoded, bigEndian_accountOf (by omega), UInt16.toNat_ofNat_of_lt' versionSmall,
    bigEndian_ofBigEndian versionLength, FixedBytes.read, nonceRead, versionRead]

end ConnectChallengeRequest

structure ConnectChallengeResponse where
  serverNonce : FixedBytes nonceLen
  authCookie : FixedBytes 32
  deriving DecidableEq

def ConnectChallengeResponse.readFrom (src : List UInt8) :
    Except NetError ConnectChallengeResponse :=
  if long : 48 ≤ src.length then
    .ok { serverNonce := FixedBytes.read nonceLen 0 src (by rw [nonceLen]; omega)
          authCookie := FixedBytes.read 32 nonceLen src long }
  else
    .error (.truncatedPacket 48 src.length)

structure ConnectFinalizeRequest where
  accountId : UInt64
  authCookie : FixedBytes 32
  clientProof : FixedBytes 32
  deriving DecidableEq

namespace ConnectFinalizeRequest

def encoded (request : ConnectFinalizeRequest) : List UInt8 :=
  bigEndian 8 request.accountId.toNat ++ request.authCookie.val ++ request.clientProof.val

def readFrom (src : List UInt8) : Except NetError ConnectFinalizeRequest :=
  if long : finalizeReqLen ≤ src.length then
    .ok { accountId := accountOf src
          authCookie := FixedBytes.read 32 8 src (by
            simp only [finalizeReqLen] at long
            omega)
          clientProof := FixedBytes.read 32 40 src (by
            simp only [finalizeReqLen] at long
            omega) }
  else
    .error (.truncatedPacket finalizeReqLen src.length)

theorem readFrom_exact {src : List UInt8} (exact : src.length = finalizeReqLen) :
    ∃ request, readFrom src = .ok request ∧ request.encoded = src := by
  have length : src.length = 72 := exact
  have cookieRead : src.take 8 ++ (src.drop 8).take 32 = src.take 40 :=
    List.take_add.symm
  have proofRead : src.take 40 ++ (src.drop 40).take 32 = src := by
    rw [← take_add, take_of_length_le (by omega)]
  rw [readFrom, dif_pos (Nat.le_of_eq exact.symm)]
  refine ⟨_, rfl, ?_⟩
  rw [encoded, bigEndian_accountOf (by omega)]
  simp only [FixedBytes.read]
  rw [cookieRead, proofRead]

end ConnectFinalizeRequest

structure ConnectFinalizeResponse where
  sessionId : UInt64
  authorityEpoch : UInt32
  serverProof : FixedBytes 32
  deriving DecidableEq

def ConnectFinalizeResponse.readFrom (src : List UInt8) : Except NetError ConnectFinalizeResponse :=
  if long : 44 ≤ src.length then
    .ok { sessionId := UInt64.ofNat (ofBigEndian (src.take 8))
          authorityEpoch := UInt32.ofNat (ofBigEndian ((src.drop 8).take 4))
          serverProof := FixedBytes.read 32 12 src long }
  else
    .error (.truncatedPacket 44 src.length)

section KeyedHash

variable (hmacSha256 : List UInt8 → List UInt8 → FixedBytes 32)

def computeAuthCookie (serverSecret : List UInt8) (accountId : UInt64)
    (clientNonce serverNonce : FixedBytes nonceLen) : FixedBytes 32 :=
  hmacSha256 serverSecret (bigEndian 8 accountId.toNat ++ clientNonce.val ++ serverNonce.val)

def computeClientProof (accountToken : List UInt8) (authCookie : FixedBytes 32)
    (clientNonce serverNonce : FixedBytes nonceLen) : FixedBytes 32 :=
  hmacSha256 accountToken (authCookie.val ++ clientNonce.val ++ serverNonce.val)

def constantTimeEq (a b : FixedBytes 32) : Bool :=
  (List.range 32).foldl
    (fun diff i => diff ||| (a.val.getD i 0 ^^^ b.val.getD i 0)) (0 : UInt8) == 0

def verifyClientProof (accountToken : List UInt8) (authCookie : FixedBytes 32)
    (clientNonce serverNonce : FixedBytes nonceLen) (providedProof : FixedBytes 32) : Bool :=
  constantTimeEq (computeClientProof hmacSha256 accountToken authCookie clientNonce serverNonce)
    providedProof

end KeyedHash

end Eidolon.Net
