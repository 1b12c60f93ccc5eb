import Hiya.Cbor.Encoder
import Hiya.Fido2.Requests
import Hiya.Fido2.Storage

/-! `bio_fido2_credential.c` and the helpers of `bio_fido2.c` it uses: credential
ids that carry their own key, authenticator data, and the commands that make and
use credentials. -/

namespace Hiya.Fido2
open Library Cbor

/-- Write items one after another; an error of the encoder sticks and is looked at
once at the end. -/
def encodeItems (capacity : Nat) (items : List (Encode Unit)) : Option Bytes :=
  let enc := (Proc.each (fun item => (item.ignore : Encode Unit)) items (Encoder.init capacity)).2
  if enc.error then none else some enc.buf

def encodeText (text : String) : Encode Unit := encodeTstr (ascii text)

def aaguid : Bytes :=
  [0xb1, 0x0a, 0x07, 0x42, 0xfe, 0xed, 0x43, 0x21, 0x90, 0xab, 0x00, 0x11, 0x22, 0x33, 0x44, 0x55]

/-- A P-256 public key as a COSE key; only uncompressed points are written. -/
def cosePubkeyItems (pubkey : Buf 65) : Option (List (Encode Unit)) :=
  if (sliceAt pubkey.bytes 0 1).bytes ≠ [0x04] then none
  else some [encodeMap 5, encodeUint 1, encodeUint 2, encodeUint 3, encodeNegint 6, encodeNegint 0, encodeUint 1,
    encodeNegint 1, encodeBstr (sliceAt pubkey.bytes 1 32).bytes,
    encodeNegint 2, encodeBstr (sliceAt pubkey.bytes 33 32).bytes]

def attestedData (cap used : Nat) (credId : CredentialId) (pubkey : Buf 65) : Option Bytes :=
  let front := aaguid ++ beBytes 2 credId.bytes.length ++ credId.bytes
  if used + front.length > cap then none
  else do
    let items ← cosePubkeyItems pubkey
    let key ← encodeItems (cap - (used + front.length)) items
    pure (front ++ key)

def buildAuthData (cap : Nat) (rpIdHash : Buf 32) (flags : UInt8) (signCount : UInt32)
    (attested : Option (CredentialId × Buf 65)) : Option Bytes :=
  let front := rpIdHash.bytes ++ [flags] ++ beBytes 4 signCount.toNat
  if front.length > cap then none
  else match attested with
    | some (credId, pubkey) =>
      if flags &&& flagAt = 0 then some front
      else (attestedData cap front.length credId pubkey).map (front ++ ·)
    | none => some front

/-- A self-contained id: nonce, sealed key and party, tag. -/
def generateCredentialId (crypto : Crypto) (nonce : Buf 12) (privkey rpIdHash wrapKey : Buf 32) :
    Option CredentialId :=
  (crypto.gcmSeal wrapKey nonce [] (privkey.append rpIdHash)).map fun (text, tag) =>
    ⟨nonce.bytes ++ text.bytes ++ tag.bytes, by simp [maxCredentialIdLen]⟩

def unwrapCredentialId (crypto : Crypto) (credId : CredentialId) (wrapKey rpIdHash : Buf 32) : Option (Buf 32) :=
  if credId.bytes.length ≠ 92 then none
  else do
    let plain : Buf 64 ← crypto.gcmOpen wrapKey (sliceAt credId.bytes 0 12) [] (sliceAt credId.bytes 12 64)
      (sliceAt credId.bytes 76 16)
    if sliceAt plain.bytes 32 32 = rpIdHash then pure (sliceAt plain.bytes 0 32) else none

def stripZeros : Nat → Bytes → Bytes
  | count + 1, 0 :: rest => stripZeros count rest
  | _, bytes => bytes

/-- A positive integer: no leading zeros but one before a set high bit. -/
def derInteger (bytes : Bytes) : Bytes :=
  let body := stripZeros 31 bytes
  let padded := if (body.headD 0) &&& 0x80 ≠ 0 then 0 :: body else body
  [0x02, UInt8.ofNat padded.length] ++ padded

def ecdsaSigToDer (signature : Buf 64) : Option Bytes :=
  let inner := derInteger (sliceAt signature.bytes 0 32).bytes ++ derInteger (sliceAt signature.bytes 32 32).bytes
  let whole :=
    if inner.length < 128 then [0x30, UInt8.ofNat inner.length] ++ inner
    else [0x30, 0x81, UInt8.ofNat inner.length] ++ inner
  if whole.length > 72 then none else some whole

/-- What a successful command returns. Registrations and assertions keep the id and
the counter they carry beside the encoded response. -/
inductive Reply
  | registered (credId : CredentialId) (signCount : UInt32) (bytes : Bytes)
  | asserted (credId : CredentialId) (flags : UInt8) (signCount : UInt32) (bytes : Bytes)
  | data (bytes : Bytes)
  deriving DecidableEq

/-- Go on with a value, or report a status. -/
def Command.need {α : Type} (value : Option α) (problem : Status) : Command α :=
  match value with
  | some value => pure value
  | none => Proc.fail problem

def Command.ofExcept {α : Type} (outcome : Except Status α) : Command α :=
  match outcome with
  | .ok value => pure value
  | .error problem => Proc.fail problem

/-- The check of a `pinUvAuthParam` against the current token. The message depends
on the protocol; any other protocol is refused. -/
def checkPinUvAuth (crypto : Crypto) (pin : PinState) (permission : UInt32) (rpId : Bytes) (param : Blob 32)
    (protocol : UInt32) (firstMessage secondMessage : Bytes) : Except Status Unit :=
  if !pin.pinTokenValid then .error .pinAuthInvalid
  else if pin.pinTokenPermissions ≠ 0 ∧ pin.pinTokenPermissions &&& permission = 0 then .error .pinAuthInvalid
  else if pin.pinTokenRpIdSet ∧ pin.pinTokenRpId.bytes ≠ rpId then .error .pinAuthInvalid
  else if protocol = 2 then
    if param.bytes.length < 32 ∨ (crypto.hmacSha256 pin.pinToken secondMessage).bytes ≠ param.bytes then
      .error .pinAuthInvalid
    else .ok ()
  else if protocol = 1 then
    if (crypto.hmacSha256 pin.pinToken firstMessage).bytes.take 16 ≠ param.bytes.take 16 then .error .pinAuthInvalid
    else .ok ()
  else .error .pinAuthInvalid

section
variable (crypto : Crypto) (env : Env)

def trySave : Command Bool := ((saveCredentials crypto env) >>= fun _ => pure true).withDefault false

/-- User verification by token or by the callback; without either it is skipped. -/
def performUv (param : Option (Blob 32)) (check : PinState → Blob 32 → Except Status Unit) : Command Bool := do
  let ctx ← Proc.get
  match param with
  | some param => do
    Command.ofExcept (check ctx.pin param)
    pure true
  | none =>
    if ctx.verifyUser then
      if env.userVerified then pure true else Proc.fail .operationDenied
    else pure false

/-- An excluded id is in the table for this party or unwraps for it. -/
def Ctx.excludes (ctx : Ctx) (rpIdHash : Buf 32) (id : CredentialId) : Bool :=
  credSlots.any (fun slot =>
    (ctx.credentials slot).inUse && (ctx.credentials slot).rp.idHash = rpIdHash && (ctx.credentials slot).credId = id) ||
  (ctx.wrapKey.bind fun key => unwrapCredentialId crypto id key rpIdHash).isSome

def makeCredentialUv (params : MakeCredParams) : Command Bool :=
  performUv env params.pinUvAuthParam fun pin param =>
    checkPinUvAuth crypto pin permMakeCredential params.rp.id.bytes param params.pinUvAuthProtocol
      params.clientDataHash.bytes ([0x01] ++ params.clientDataHash.bytes)

def makeCredentialFlags (params : MakeCredParams) (uv : Bool) : UInt8 :=
  flagUp ||| flagAt ||| (if uv then flagUv else 0) |||
    (if params.credProtect ≠ 0 ∨ params.hmacSecretRequested then flagEd else 0)

def extensionItems (params : MakeCredParams) : List (Encode Unit) :=
  [encodeMap ((if params.credProtect ≠ 0 then 1 else 0) + (if params.hmacSecretRequested then 1 else 0))] ++
    (if params.credProtect ≠ 0 then [encodeText "credProtect", encodeUint params.credProtect.toUInt64] else []) ++
    (if params.hmacSecretRequested then [encodeText "hmac-secret", encodeBool true] else [])

/-- Authenticator data of a registration, in a buffer of 512 bytes. -/
def registrationData (params : MakeCredParams) (uv : Bool) (signCount : UInt32) (credId : CredentialId)
    (pubkey : Buf 65) : Option Bytes := do
  let front ← buildAuthData 512 params.rp.idHash (makeCredentialFlags params uv) signCount (some (credId, pubkey))
  if params.credProtect ≠ 0 ∨ params.hmacSecretRequested then
    let extensions ← encodeItems (512 - front.length) (extensionItems params)
    pure (front ++ extensions)
  else pure front

/-- The slot of the same party and user, else the first free one. -/
def Ctx.slotFor (ctx : Ctx) (rpIdHash : Buf 32) (userId : Blob maxUserIdLen) : Option CredSlot :=
  (credSlots.find? fun slot =>
    (ctx.credentials slot).inUse && (ctx.credentials slot).rp.idHash = rpIdHash &&
      (ctx.credentials slot).user.id = userId) <|> ctx.freeSlot

def residentCredential (params : MakeCredParams) (keypair : Keypair) (credId : CredentialId)
    (hmacSecret : Option (Buf 32)) (signCount : UInt32) : Credential where
  inUse := true
  rp := params.rp
  user := params.user
  credId
  privateKey := keypair.privateKey
  publicKey := keypair.publicKey
  signCount
  created := env.time
  resident := true
  credProtect := if params.credProtect ≠ 0 then params.credProtect else 1
  hmacSecret := hmacSecret.getD (.zero 32)
  hasHmacSecret := hmacSecret.isSome

def Ctx.setInUse (slot : CredSlot) (inUse : Bool) (ctx : Ctx) : Ctx :=
  ctx.putCredential slot { ctx.credentials slot with inUse }

/-- Store a resident credential. A failed save frees the slot again, also when it
held an older credential of the same user. -/
def storeResident (cred : Credential) : Command Unit := do
  let ctx ← Proc.get
  let slot ← Command.need (ctx.slotFor cred.rp.idHash cred.user.id) .keyStoreFull
  let added := if (ctx.credentials slot).inUse then 0 else 1
  Proc.modify fun ctx =>
    { ctx.putCredential slot cred with credentialCount := ctx.credentialCount + added }
  if ← trySave crypto env then pure ()
  else do
    Proc.modify fun ctx => { ctx.setInUse slot false with credentialCount := ctx.credentialCount - added }
    Proc.fail .other

def registrationItems (authData der : Bytes) : List (Encode Unit) :=
  [encodeMap 3, encodeUint 0x01, encodeText "packed", encodeUint 0x02, encodeBstr authData, encodeUint 0x03, encodeMap 2,
    encodeText "alg", encodeNegint 6, encodeText "sig", encodeBstr der]

/-- The id the command draws for its new credential. -/
def drawCredentialId (wrapKey : Option (Buf 32)) (rpIdHash : Buf 32) : Option (Keypair × CredentialId) := do
  let keypair ← env.ecdsaKeypair
  let wrapKey ← wrapKey
  let nonce ← env.credNonce
  let credId ← generateCredentialId crypto nonce keypair.privateKey rpIdHash wrapKey
  pure (keypair, credId)

def drawHmacSecret (requested : Bool) : Command (Option (Buf 32)) :=
  if requested then do
    let secret ← Command.need env.hmacSecret .other
    pure (some secret)
  else pure none

def sendRegistration (credId : CredentialId) (signCount : UInt32) (authData : Bytes) (signature : Buf 64)
    (capacity : Nat) : Command Reply := do
  let der ← Command.need (ecdsaSigToDer signature) .other
  let bytes ← Command.need (encodeItems capacity (registrationItems authData der)) .other
  pure (.registered credId signCount bytes)

/-- The second half of the command: count, sign, store and answer. A counter is
spent even when one of these fails. -/
def register (params : MakeCredParams) (uv : Bool) (keypair : Keypair) (credId : CredentialId)
    (hmacSecret : Option (Buf 32)) (capacity : Nat) : Command Reply := do
  let ctx ← Proc.get
  let signCount := ctx.globalSignCount + 1
  Proc.modify fun ctx => { ctx with globalSignCount := signCount }
  let authData ← Command.need (registrationData params uv signCount credId keypair.publicKey) .other
  let signature ← Command.need
    (crypto.ecdsaSign keypair.privateKey (crypto.sha256 (authData ++ params.clientDataHash.bytes)) env.signEntropy)
    .other
  if params.rkRequested then
    storeResident crypto env (residentCredential env params keypair credId hmacSecret signCount)
  else pure ()
  sendRegistration credId signCount authData signature capacity

def makeCredential (request : Bytes) (capacity : Nat) : Command Reply := do
  let (params, excludeList) ← Command.ofExcept (parseMakeCredParams crypto request)
  let ctx ← Proc.get
  if excludeList.ids.any (ctx.excludes crypto params.rp.idHash) then Proc.fail .credentialExcluded
  else do
    let uv ← makeCredentialUv crypto env params
    let (keypair, credId) ← Command.need (drawCredentialId crypto env ctx.wrapKey params.rp.idHash) .other
    let hmacSecret ← drawHmacSecret env params.hmacSecretRequested
    register crypto env params uv keypair credId hmacSecret capacity

/-- Whose counter an assertion uses: that of a slot, or the global one. -/
def Ctx.counter (ctx : Ctx) : Option CredSlot → UInt32
  | some slot => (ctx.credentials slot).signCount
  | none => ctx.globalSignCount

def Ctx.putCounter (holder : Option CredSlot) (signCount : UInt32) (ctx : Ctx) : Ctx :=
  match holder with
  | some slot => ctx.putCredential slot { ctx.credentials slot with signCount }
  | none => { ctx with globalSignCount := signCount }

def descriptorItems (credId : CredentialId) : List (Encode Unit) :=
  [encodeMap 2, encodeText "id", encodeBstr credId.bytes, encodeText "type", encodeText "public-key"]

def userItems (user : User) : List (Encode Unit) :=
  [encodeMap 3, encodeText "id", encodeBstr user.id.bytes, encodeText "name", encodeTstr user.name.bytes,
    encodeText "displayName", encodeTstr user.displayName.bytes]

def assertionItems (credId : CredentialId) (authData der : Bytes) (user : Option User) (includeUser : Bool)
    (total : Nat) : List (Encode Unit) :=
  [encodeMap (3 + (if includeUser then 1 else 0) + (if total > 1 then 1 else 0)), encodeUint 0x01] ++
    descriptorItems credId ++ [encodeUint 0x02, encodeBstr authData, encodeUint 0x03, encodeBstr der] ++
    (match includeUser, user with
    | true, some user => [encodeUint 0x04] ++ userItems user
    | _, _ => []) ++
    (if total > 1 then [encodeUint 0x05, encodeUint (UInt64.ofNat total)] else [])

/-- Count, sign and encode one assertion. The counter goes back only when the
response does not fit. -/
def buildAssertionResponse (holder : Option CredSlot) (privkey : Buf 32) (credId : CredentialId)
    (rpIdHash clientDataHash : Buf 32) (flags : UInt8) (total : Nat) (includeUser : Bool) (capacity : Nat) :
    Command Reply := do
  let ctx ← Proc.get
  let signCount := ctx.counter holder + 1
  Proc.modify (Ctx.putCounter holder signCount)
  let authData ← Command.need (buildAuthData 256 rpIdHash flags signCount none) .other
  let signature ← Command.need
    (crypto.ecdsaSign privkey (crypto.sha256 (authData ++ clientDataHash.bytes)) env.signEntropy) .other
  let der ← Command.need (ecdsaSigToDer signature) .other
  let user := holder.map fun slot => (ctx.credentials slot).user
  match encodeItems capacity (assertionItems credId authData der user includeUser total) with
  | some bytes => pure (.asserted credId flags signCount bytes)
  | none => do
    Proc.modify (Ctx.putCounter holder (ctx.counter holder))
    Proc.fail .other

def assertSlot (slot : CredSlot) (rpIdHash clientDataHash : Buf 32) (flags : UInt8) (total : Nat) (includeUser : Bool)
    (capacity : Nat) : Command Reply := do
  let ctx ← Proc.get
  let cred := ctx.credentials slot
  let reply ← buildAssertionResponse crypto env (some slot) cred.privateKey cred.credId rpIdHash clientDataHash flags
    total includeUser capacity
  (saveCredentials crypto env).ignore
  pure reply

def getAssertionUv (params : GetAssertionParams) : Command Bool :=
  performUv env params.pinUvAuthParam fun pin param =>
    checkPinUvAuth crypto pin permGetAssertion (params.rpId.bytes.takeWhile (· ≠ 0)) param params.pinUvAuthProtocol
      params.clientDataHash.bytes ([0x03] ++ params.rpIdHash.bytes ++ params.clientDataHash.bytes)

def Ctx.allowedSlots (ctx : Ctx) (rpIdHash : Buf 32) (uv : Bool) (id : CredentialId) : List CredSlot :=
  credSlots.filter fun slot =>
    (ctx.credentials slot).inUse && (ctx.credentials slot).rp.idHash = rpIdHash &&
      (ctx.credentials slot).credId = id && !((ctx.credentials slot).credProtect ≥ 3 && !uv)

/-- Slots that may be discovered without an allow list. -/
def Ctx.discoverableSlots (ctx : Ctx) (rpIdHash : Buf 32) (uv : Bool) : List CredSlot :=
  credSlots.filter fun slot =>
    (ctx.credentials slot).inUse && (ctx.credentials slot).rp.idHash = rpIdHash &&
      !((ctx.credentials slot).credProtect ≥ 3) && !((ctx.credentials slot).credProtect ≥ 2 && !uv)

def Ctx.unwraps (ctx : Ctx) (rpIdHash : Buf 32) (id : CredentialId) : Option (Buf 32) :=
  ctx.wrapKey.bind fun key => unwrapCredentialId crypto id key rpIdHash

inductive Selection
  | table (slots : List CredSlot)
  | unwrapped (id : CredentialId) (privkey : Buf 32)

/-- Walk the allow list. An entry is first looked up in the table; the first one
that unwraps ends the walk and discards what the table gave. -/
def Ctx.selectAllowed (ctx : Ctx) (rpIdHash : Buf 32) (uv : Bool) : List CredentialId → List CredSlot → Selection
  | [], found => .table found
  | id :: rest, found =>
    let found := (found ++ ctx.allowedSlots rpIdHash uv id).take maxCredentialsStored
    match ctx.unwraps crypto rpIdHash id with
    | some privkey => .unwrapped id privkey
    | none => ctx.selectAllowed rpIdHash uv rest found

def Ctx.select (ctx : Ctx) (rpIdHash : Buf 32) (uv : Bool) (allowList : IdList) : Selection :=
  if allowList.ids.length > 0 then ctx.selectAllowed crypto rpIdHash uv allowList.ids []
  else .table (ctx.discoverableSlots rpIdHash uv)

def Ctx.beginAssertion (params : GetAssertionParams) (uv : Bool) (ctx : Ctx) : Ctx :=
  { ctx with
    assertionMatches := []
    assertionIndex := 0
    assertionClientDataHash := params.clientDataHash
    assertionRpIdHash := params.rpIdHash
    assertionFlags := flagUp ||| (if uv then flagUv else 0)
    assertionTimestamp := env.now }

def getAssertion (request : Bytes) (capacity : Nat) : Command Reply := do
  let (params, allowList) ← Command.ofExcept (parseGetAssertionParams crypto request)
  let uv ← getAssertionUv crypto env params
  Proc.modify (Ctx.beginAssertion env params uv)
  let ctx ← Proc.get
  match ctx.select crypto params.rpIdHash uv allowList with
  | .unwrapped id privkey => do
    let reply ← buildAssertionResponse crypto env none privkey id params.rpIdHash params.clientDataHash
      ctx.assertionFlags 1 false capacity
    (saveCredentials crypto env).ignore
    pure reply
  | .table [] => Proc.fail .noCredentials
  | .table (first :: rest) => do
    Proc.modify fun ctx => { ctx with assertionMatches := first :: rest, assertionIndex := 1 }
    assertSlot crypto env first params.rpIdHash params.clientDataHash ctx.assertionFlags (rest.length + 1)
      (rest.length + 1 > 1) capacity

def getNextAssertion (capacity : Nat) : Command Reply := do
  let ctx ← Proc.get
  if env.now - ctx.assertionTimestamp > 30 then do
    Proc.modify fun ctx => { ctx with assertionMatches := [], assertionIndex := 0 }
    Proc.fail .notAllowed
  else
    match ctx.assertionMatches[ctx.assertionIndex]? with
    | none => Proc.fail .noCredentials
    | some slot => do
      Proc.modify fun ctx => { ctx with assertionIndex := ctx.assertionIndex + 1 }
      assertSlot crypto env slot ctx.assertionRpIdHash ctx.assertionClientDataHash ctx.assertionFlags
        ctx.assertionMatches.length true capacity

end

end Hiya.Fido2
