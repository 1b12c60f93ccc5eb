import Hiya.Library.Buf
import Hiya.Library.Bytes
import Hiya.Library.Proc

/-! The authenticator context of `bio_fido2.h`, with the module globals that
belong to it, and what a command takes from outside: the cryptographic
primitives of the linked library, random draws, clocks and the storage. -/

namespace Hiya.Fido2
open Library

inductive Status
  | invalidCommand
  | unexpectedType
  | invalidCbor
  | missingParameter
  | credentialExcluded
  | unsupportedAlgorithm
  | operationDenied
  | keyStoreFull
  | noOperationPending
  | invalidOption
  | noCredentials
  | notAllowed
  | pinInvalid
  | pinBlocked
  | pinAuthInvalid
  | pinNotSet
  | pinPolicyViolation
  | other
  /-- No status of the protocol: the program has stored outside an array, and
  nothing is known about it from here on. -/
  | fault
  deriving DecidableEq, Repr

def maxCredentialIdLen : Nat := 128
def maxRpIdLen : Nat := 256
def maxUserIdLen : Nat := 64
def maxUserNameLen : Nat := 64
def maxAllowList : Nat := 16
def maxCredentialsStored : Nat := 64
def maxBioTemplates : Nat := 10
def maxPinRetries : Int32 := 8

/-! Every text has room for its terminator. -/

theorem maxRpIdLen_pos : 0 < maxRpIdLen := by decide

theorem maxUserNameLen_pos : 0 < maxUserNameLen := by decide

theorem friendlyName_pos : 0 < 64 := by decide

def flagUp : UInt8 := 0x01
def flagUv : UInt8 := 0x04
def flagAt : UInt8 := 0x40
def flagEd : UInt8 := 0x80

def permMakeCredential : UInt32 := 0x01
def permGetAssertion : UInt32 := 0x02
def permCredentialMgmt : UInt32 := 0x04
def permBioEnrollment : UInt32 := 0x08
def permAuthnrCfg : UInt32 := 0x20

/-- The bytes of a string literal of the source. -/
def ascii (text : String) : Bytes := text.toList.map fun char => UInt8.ofNat char.toNat

abbrev CredentialId := Blob maxCredentialIdLen

structure Rp where
  id : CText maxRpIdLen
  name : CText maxRpIdLen
  idHash : Buf 32
  deriving DecidableEq

structure User where
  id : Blob maxUserIdLen
  name : CText maxUserNameLen
  displayName : CText maxUserNameLen
  deriving DecidableEq

structure Credential where
  inUse : Bool
  rp : Rp
  user : User
  credId : CredentialId
  privateKey : Buf 32
  publicKey : Buf 65
  signCount : UInt32
  created : UInt64
  resident : Bool
  credProtect : UInt8
  hmacSecret : Buf 32
  hasHmacSecret : Bool
  deriving DecidableEq

structure PinState where
  pinSet : Bool
  pinHash : Buf 16
  pinRetries : Int32
  pinBlocked : Bool
  platformKeyAgreementX : Buf 32
  platformKeyAgreementY : Buf 32
  sharedSecret : Buf 32
  pinToken : Buf 32
  pinTokenValid : Bool
  pinTokenPermissions : UInt32
  pinTokenRpId : CText maxRpIdLen
  pinTokenRpIdSet : Bool
  deriving DecidableEq

structure BioTemplate where
  inUse : Bool
  templateId : Blob 32
  friendlyName : CText 64
  samplesRemaining : UInt32
  created : UInt64
  deriving DecidableEq

/-- `g_cred_enum`: the parties and the slots collected by the last enumeration. -/
structure CredEnum where
  rps : List (Buf 32 × CText maxRpIdLen)
  rpIndex : Nat
  credSlots : List (Fin maxCredentialsStored)
  credIndex : Nat
  deriving DecidableEq

/-- `bio_fido2_ctx_t` and the globals of its modules. The pending assertions are
the used part of `assertion_matches`; `disk` is the file `credentials.bin`. -/
structure Ctx where
  credentials : Fin maxCredentialsStored → Credential
  credentialCount : Nat
  pin : PinState
  authPrivkey : Buf 32
  authPubkey : Buf 65
  assertionMatches : List (Fin maxCredentialsStored)
  assertionIndex : Nat
  assertionClientDataHash : Buf 32
  assertionRpIdHash : Buf 32
  assertionFlags : UInt8
  globalSignCount : UInt32
  assertionTimestamp : UInt64
  initTimestamp : UInt64
  verifyUser : Bool
  wrapKey : Option (Buf 32)
  minPinLength : UInt32
  bioTemplates : Fin maxBioTemplates → BioTemplate
  bioTemplateCount : Nat
  bioEnrollActive : Option (Fin maxBioTemplates)
  credEnum : CredEnum
  disk : Option Bytes

def Rp.zero : Rp := { id := .empty _ maxRpIdLen_pos, name := .empty _ maxRpIdLen_pos, idHash := .zero 32 }

def User.zero : User := { id := .empty _, name := .empty _ maxUserNameLen_pos, displayName := .empty _ maxUserNameLen_pos }

def Credential.zero : Credential where
  inUse := false
  rp := .zero
  user := .zero
  credId := .empty _
  privateKey := .zero 32
  publicKey := .zero 65
  signCount := 0
  created := 0
  resident := false
  credProtect := 0
  hmacSecret := .zero 32
  hasHmacSecret := false

def PinState.zero : PinState where
  pinSet := false
  pinHash := .zero 16
  pinRetries := 0
  pinBlocked := false
  platformKeyAgreementX := .zero 32
  platformKeyAgreementY := .zero 32
  sharedSecret := .zero 32
  pinToken := .zero 32
  pinTokenValid := false
  pinTokenPermissions := 0
  pinTokenRpId := .empty _ maxRpIdLen_pos
  pinTokenRpIdSet := false

def BioTemplate.zero : BioTemplate where
  inUse := false
  templateId := .empty _
  friendlyName := .empty _ friendlyName_pos
  samplesRemaining := 0
  created := 0

def CredEnum.zero : CredEnum := { rps := [], rpIndex := 0, credSlots := [], credIndex := 0 }

/-- The primitives of the library behind `bio_crypto.c`, which is not part of the
repository. All that can report failure are partial; `leftover` is what a digest's array
holds after a failure, and `entropy` stands for what the signing library draws by itself. -/
structure Crypto where
  hash : Bytes → Option (Buf 32)
  leftover : Bytes → Buf 32
  mac : Buf 32 → Bytes → Option (Buf 32)
  hkdfSha256 : Bytes → Bytes → Bytes → Option (Buf 32)
  gcmSeal : {size : Nat} → Buf 32 → Buf 12 → Bytes → Buf size → Option (Buf size × Buf 16)
  gcmOpen : {size : Nat} → Buf 32 → Buf 12 → Bytes → Buf size → Buf 16 → Option (Buf size)
  cbcEncrypt : {size : Nat} → Buf 32 → Buf size → Option (Buf size)
  cbcDecrypt : {size : Nat} → Buf 32 → Buf size → Option (Buf size)
  ecdhShared : Buf 32 → Buf 65 → Option (Buf 32)
  ecdsaSign : Buf 32 → Buf 32 → Bytes → Option (Buf 64)

/-! No caller looks at the code of the two functions that follow: it goes on with the array. -/

/-- `bio_sha256`, by the digest's array behind it. -/
def Crypto.sha256 (crypto : Crypto) (data : Bytes) : Buf 32 := (crypto.hash data).getD (crypto.leftover data)

/-- `bio_hmac_sha256`, by the array of the code behind it, which a failure wipes. -/
def Crypto.hmacSha256 (crypto : Crypto) (key : Buf 32) (data : Bytes) : Buf 32 := (crypto.mac key data).getD (.zero 32)

/-- Opening succeeds on what was sealed under the same key, nonce and header, and
on nothing else. -/
def Crypto.GcmExact (crypto : Crypto) : Prop :=
  ∀ (size : Nat) (key : Buf 32) (nonce : Buf 12) (aad : Bytes) (plain text : Buf size) (tag : Buf 16),
    crypto.gcmOpen key nonce aad text tag = some plain ↔ crypto.gcmSeal key nonce aad plain = some (text, tag)

structure Keypair where
  privateKey : Buf 32
  publicKey : Buf 65
  deriving DecidableEq

/-- What one command may draw from its surroundings; `none` is a failed call. A
command saves at most once, so one draw of each kind is enough. `saveNonce` is
also `none` when the storage refuses the file. -/
structure Env where
  now : UInt64
  time : UInt64
  userVerified : Bool
  ecdsaKeypair : Option Keypair
  ecdhKeypair : Option Keypair
  credNonce : Option (Buf 12)
  hmacSecret : Option (Buf 32)
  pinToken : Option (Buf 32)
  templateId : Option (Buf 16)
  saveNonce : Option (Buf 12)
  signEntropy : Bytes

abbrev Command := Proc Ctx Status

end Hiya.Fido2
