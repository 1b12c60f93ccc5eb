import Hiya.Fido2.Assertion

/-! authenticatorClientPIN of `bio_fido2_pin.c`: the retry counter, setting and
changing the PIN, and the tokens that stand for a verified user. -/

namespace Hiya.Fido2
open Library Cbor

structure ClientPinParams where
  subCommand : UInt32
  keyAgreementX : Buf 32
  keyAgreementY : Buf 32
  hasKeyAgreement : Bool
  pinUvAuthParam : Option (Blob 32)
  newPinEnc : Blob 256
  pinHashEnc : Blob 64
  pinProtocol : UInt32
  permissions : Option UInt32
  rpId : Blob 255
  newMinPinLength : Option UInt32

def ClientPinParams.zero : ClientPinParams where
  subCommand := 0
  keyAgreementX := .zero 32
  keyAgreementY := .zero 32
  hasKeyAgreement := false
  pinUvAuthParam := none
  newPinEnc := .empty _
  pinHashEnc := .empty _
  pinProtocol := 1
  permissions := none
  rpId := .empty _
  newMinPinLength := none

/-- One pair of the platform's COSE key: the coordinates are under -2 and -3. -/
def keyAgreementPair (params : ClientPinParams) : Parse ClientPinParams := do
  match ← nextItem with
  | .negint key => do
    match ← nextItem with
    | .bstr data =>
      if exact : data.length = 32 then
        if key = -2 then pure { params with keyAgreementX := .ofBytes data exact, hasKeyAgreement := true }
        else if key = -3 then pure { params with keyAgreementY := .ofBytes data exact }
        else pure params
      else pure params
    | _ => pure params
  | _ => skipValue params

/-- A byte string that is taken over, and any other item that is not. -/
def bstrOr {α : Type} (acc : α) (take : Bytes → α) : Parse α := do
  match ← nextItem with
  | .bstr data => pure (take data)
  | _ => pure acc

def tstrOr {α : Type} (acc : α) (take : Bytes → α) : Parse α := do
  match ← nextItem with
  | .tstr data => pure (take data)
  | _ => pure acc

def clientPinField (key : UInt64) (params : ClientPinParams) : Parse ClientPinParams :=
  match key.toNat with
  | 0x01 => do pure { params with pinProtocol := (← uintValue).toUInt32 }
  | 0x02 => do pure { params with subCommand := (← uintValue).toUInt32 }
  | 0x03 => do
    let count ← decodeMap.orFail .invalidCbor
    Proc.repeatWith count keyAgreementPair params
  | 0x04 => bstrOr params fun data =>
      if data.length ≥ 16 then { params with pinUvAuthParam := some (.ofSlice 32 data) } else params
  | 0x05 => bstrOr params fun data => { params with newPinEnc := .ofSlice _ data }
  | 0x06 => bstrOr params fun data => { params with pinHashEnc := .ofSlice _ data }
  | 0x09 => do pure { params with permissions := some (← uintValue).toUInt32 }
  | 0x0A => tstrOr params fun data => { params with rpId := .ofSlice _ data }
  | 0x0B => do pure { params with newMinPinLength := some (← uintValue).toUInt32 }
  | _ => skipValue params

def parseClientPinParams (request : Bytes) : Except Status ClientPinParams :=
  match parseUintMap clientPinField .zero (Decoder.init request) with
  | (.error problem, _) => .error problem
  | (.ok params, _) => if params.subCommand = 0 then .error .missingParameter else .ok params

/-- The keys of one exchange, for message authentication and for encryption. -/
structure PinKeys where
  hmac : Buf 32
  aes : Buf 32

def Command.check (holds : Prop) [Decidable holds] (problem : Status) : Command Unit :=
  if holds then pure () else Proc.fail problem

def Ctx.updatePin (change : PinState → PinState) (ctx : Ctx) : Ctx := { ctx with pin := change ctx.pin }

def stripPadding (bytes : Bytes) : Bytes := (bytes.reverse.dropWhile (· = 0)).reverse

section
variable (crypto : Crypto) (env : Env)

def derivePinKeys (authPrivkey : Buf 32) (params : ClientPinParams) : Except Status PinKeys :=
  let peer : Buf 65 := (Buf.ofBytes [0x04] rfl : Buf 1).append (params.keyAgreementX.append params.keyAgreementY)
  match crypto.ecdhShared authPrivkey peer with
  | none => .error .other
  | some shared =>
    if params.pinProtocol = 2 then
      let zeros := List.replicate 32 0
      match crypto.hkdfSha256 zeros shared.bytes (ascii "CTAP2 HMAC key"),
        crypto.hkdfSha256 zeros shared.bytes (ascii "CTAP2 AES key") with
      | some hmac, some aes => .ok { hmac, aes }
      | _, _ => .error .other
    else if params.pinProtocol = 1 then
      let key := crypto.sha256 shared.bytes
      .ok { hmac := key, aes := key }
    else .error .pinAuthInvalid

def deriveClientPinKeys (params : ClientPinParams) : Command PinKeys := do
  let ctx ← Proc.get
  Command.ofExcept (derivePinKeys crypto ctx.authPrivkey params)

/-- A new key pair for the next exchange. Without one the old keys are wiped. -/
def regenerateKeyAgreement : Command Unit :=
  match env.ecdhKeypair with
  | none => do
    Proc.modify fun ctx => { ctx with
      authPrivkey := .zero 32
      authPubkey := .zero 65
      pin := { ctx.pin with sharedSecret := .zero 32 } }
    Proc.fail .other
  | some keypair => Proc.modify fun ctx => { ctx with
      authPrivkey := keypair.privateKey
      authPubkey := keypair.publicKey
      pin := { ctx.pin with sharedSecret := .zero 32 } }

def decryptBlob {cap : Nat} (key : Buf 32) (text : Blob cap) : Option Bytes :=
  (crypto.cbcDecrypt key (Buf.ofBytes text.bytes rfl)).map Buf.bytes

def chargeRetry (pin : PinState) : PinState :=
  let pin := { pin with pinRetries := pin.pinRetries - 1 }
  if pin.pinRetries ≤ 0 then { pin with pinBlocked := true } else pin

/-- Compare the platform's PIN hash. A wrong one is charged and written to disk. -/
def verifyPinHash (aes : Buf 32) (pinHashEnc : Blob 64) : Command Unit := do
  let plain ← Command.need (decryptBlob crypto aes pinHashEnc) .other
  let ctx ← Proc.get
  if plain.take 16 = ctx.pin.pinHash.bytes then pure ()
  else do
    Proc.modify (Ctx.updatePin chargeRetry)
    (saveCredentials crypto env).ignore
    let ctx ← Proc.get
    Proc.fail (if ctx.pin.pinBlocked then .pinBlocked else .pinInvalid)

/-- The new PIN, if it is one the policy allows. -/
def decryptNewPin (aes : Buf 32) (newPinEnc : Blob 256) : Command Bytes := do
  Command.check (newPinEnc.bytes.length % 16 = 0) .pinPolicyViolation
  let raw ← Command.need (decryptBlob crypto aes newPinEnc) .other
  let ctx ← Proc.get
  let pin := stripPadding raw
  Command.check (¬ (pin.length < ctx.minPinLength.toNat ∨ pin.length > 63)) .pinPolicyViolation
  pure pin

def pinHashOf (pin : Bytes) : Buf 16 := sliceAt (crypto.sha256 pin).bytes 0 16

def authenticates (key : Buf 32) (message : Bytes) (param : Blob 32) : Prop :=
  (crypto.hmacSha256 key message).bytes.take 16 = param.bytes.take 16

instance (key : Buf 32) (message : Bytes) (param : Blob 32) : Decidable (authenticates crypto key message param) :=
  inferInstanceAs (Decidable (_ = _))

def setPin (params : ClientPinParams) : Command Reply := do
  let ctx ← Proc.get
  Command.check (¬ ctx.pin.pinSet) .notAllowed
  Command.check params.hasKeyAgreement .missingParameter
  Command.check (params.newPinEnc.bytes.length ≠ 0) .missingParameter
  let param ← Command.need params.pinUvAuthParam .missingParameter
  let keys ← deriveClientPinKeys crypto params
  Command.check (authenticates crypto keys.hmac params.newPinEnc.bytes param) .pinAuthInvalid
  let pin ← decryptNewPin crypto keys.aes params.newPinEnc
  Proc.modify (Ctx.updatePin fun state =>
    { state with pinHash := pinHashOf crypto pin, pinSet := true, pinRetries := maxPinRetries })
  if ← trySave crypto env then do
    regenerateKeyAgreement env
    pure (.data [])
  else do
    Proc.modify (Ctx.updatePin fun state => { state with pinSet := false, pinHash := .zero 16 })
    Proc.fail .other

def changePin (params : ClientPinParams) : Command Reply := do
  let ctx ← Proc.get
  Command.check ctx.pin.pinSet .pinNotSet
  Command.check (¬ ctx.pin.pinBlocked) .pinBlocked
  Command.check params.hasKeyAgreement .missingParameter
  let param ← Command.need params.pinUvAuthParam .missingParameter
  Command.check (params.pinHashEnc.bytes.length ≠ 0) .missingParameter
  Command.check (params.newPinEnc.bytes.length ≠ 0) .missingParameter
  let keys ← deriveClientPinKeys crypto params
  Command.check (authenticates crypto keys.hmac (params.newPinEnc.bytes ++ params.pinHashEnc.bytes) param)
    .pinAuthInvalid
  Command.check (params.pinHashEnc.bytes.length % 16 = 0) .pinAuthInvalid
  verifyPinHash crypto env keys.aes params.pinHashEnc
  let pin ← decryptNewPin crypto keys.aes params.newPinEnc
  let before := (← Proc.get).pin
  Proc.modify (Ctx.updatePin fun state =>
    { state with pinHash := pinHashOf crypto pin, pinRetries := maxPinRetries, pinBlocked := false })
  if ← trySave crypto env then do
    regenerateKeyAgreement env
    pure (.data [])
  else do
    Proc.modify (Ctx.updatePin fun state =>
      { state with pinHash := before.pinHash, pinRetries := before.pinRetries, pinBlocked := before.pinBlocked })
    Proc.fail .other

/-- Draw a token and bind it to permissions and, if one is given, to a party. It is drawn
into the place of the last one, which a failure wipes and leaves valid. -/
def issueToken (permissions : UInt32) (rpId : Blob 255) : Command (Buf 32) :=
  match env.pinToken with
  | none => do
    Proc.modify (Ctx.updatePin fun state => { state with pinToken := .zero 32 })
    Proc.fail .other
  | some token => do
    Proc.modify (Ctx.updatePin fun state => { state with
      pinToken := token
      pinTokenValid := true
      pinTokenPermissions := permissions
      pinTokenRpId := .ofSlice _ maxRpIdLen_pos rpId.bytes
      pinTokenRpIdSet := rpId.bytes.length > 0 })
    pure token

def tokenItems (token : Buf 32) : List (Encode Unit) := [encodeMap 1, encodeUint 0x02, encodeBstr token.bytes]

/-- The PIN check shared by both token commands. -/
def verifyPinForToken (params : ClientPinParams) : Command PinKeys := do
  let keys ← deriveClientPinKeys crypto params
  Command.check (params.pinHashEnc.bytes.length ∈ [16, 32, 48, 64]) .pinAuthInvalid
  verifyPinHash crypto env keys.aes params.pinHashEnc
  pure keys

def getPinToken (params : ClientPinParams) (capacity : Nat) : Command Reply := do
  let ctx ← Proc.get
  Command.check ctx.pin.pinSet .pinNotSet
  Command.check (¬ ctx.pin.pinBlocked) .pinBlocked
  Command.check params.hasKeyAgreement .missingParameter
  Command.check (params.pinHashEnc.bytes.length ≠ 0) .missingParameter
  let keys ← verifyPinForToken crypto env params
  Proc.modify (Ctx.updatePin fun state => { state with pinRetries := maxPinRetries })
  -- a legacy token: no restriction at all
  let token ← issueToken env 0 (.empty _)
  let sealed ← Command.need (crypto.cbcEncrypt keys.aes token) .other
  let bytes ← Command.need (encodeItems capacity (tokenItems sealed)) .other
  regenerateKeyAgreement env
  pure (.data bytes)

/-- Hand out a restricted token; here the key pair changes before the response is
encoded. -/
def sendToken (keys : PinKeys) (permissions : UInt32) (rpId : Blob 255) (capacity : Nat) : Command Reply := do
  let token ← issueToken env permissions rpId
  let sealed ← Command.need (crypto.cbcEncrypt keys.aes token) .other
  regenerateKeyAgreement env
  let bytes ← Command.need (encodeItems capacity (tokenItems sealed)) .other
  pure (.data bytes)

def getPinTokenPerm (params : ClientPinParams) (capacity : Nat) : Command Reply := do
  let ctx ← Proc.get
  Command.check ctx.pin.pinSet .pinNotSet
  Command.check (¬ ctx.pin.pinBlocked) .pinBlocked
  Command.check params.hasKeyAgreement .missingParameter
  let permissions ← Command.need params.permissions .missingParameter
  Command.check (permissions ≠ 0) .invalidOption
  Command.check (params.pinHashEnc.bytes.length ≠ 0) .missingParameter
  let keys ← verifyPinForToken crypto env params
  Proc.modify (Ctx.updatePin fun state => { state with pinRetries := maxPinRetries, pinBlocked := false })
  sendToken crypto env keys permissions params.rpId capacity

def getUvTokenPerm (params : ClientPinParams) (capacity : Nat) : Command Reply := do
  let ctx ← Proc.get
  Command.check params.hasKeyAgreement .missingParameter
  let permissions ← Command.need params.permissions .missingParameter
  Command.check (permissions ≠ 0) .invalidOption
  Command.check (ctx.verifyUser ∧ env.userVerified) .operationDenied
  let keys ← deriveClientPinKeys crypto params
  sendToken crypto env keys permissions params.rpId capacity

/-- Comparison of a parameter outside the two assertion commands: everything but
protocol 2 is taken for protocol 1. -/
def paramMatches (pinToken : Buf 32) (protocol : UInt32) (message : Bytes) (param : Blob 32) : Bool :=
  let expected := crypto.hmacSha256 pinToken message
  if protocol = 2 then ¬ (param.bytes.length < 32 ∨ expected.bytes ≠ param.bytes)
  else expected.bytes.take 16 = param.bytes.take 16

def setMinPinLength (params : ClientPinParams) : Command Reply := do
  let ctx ← Proc.get
  Command.check ctx.pin.pinSet .pinNotSet
  let length ← Command.need params.newMinPinLength .missingParameter
  Command.check (¬ (length < 4 ∨ length > 63)) .pinPolicyViolation
  let param ← Command.need params.pinUvAuthParam .missingParameter
  Command.check ctx.pin.pinTokenValid .pinAuthInvalid
  Command.check (¬ (ctx.pin.pinTokenPermissions ≠ 0 ∧ ctx.pin.pinTokenPermissions &&& permAuthnrCfg = 0)) .pinAuthInvalid
  Command.check (paramMatches crypto ctx.pin.pinToken params.pinProtocol ([0x08] ++ beBytes 4 length.toNat) param)
    .pinAuthInvalid
  Proc.modify fun ctx => { ctx with minPinLength := length }
  pure (.data [])

def sendItems (capacity : Nat) (items : List (Encode Unit)) : Command Reply := do
  let bytes ← Command.need (encodeItems capacity items) .other
  pure (.data bytes)

/-- The authenticator's public key for the exchange. -/
def keyAgreementItems (pubkey : Buf 65) : List (Encode Unit) :=
  [encodeMap 5, encodeUint 1, encodeUint 2, encodeUint 3, encodeNegint 24, encodeNegint 0, encodeUint 1,
    encodeNegint 1, encodeBstr (sliceAt pubkey.bytes 1 32).bytes,
    encodeNegint 2, encodeBstr (sliceAt pubkey.bytes 33 32).bytes]

def clientPin (request : Bytes) (capacity : Nat) : Command Reply := do
  let params ← Command.ofExcept (parseClientPinParams request)
  Command.check (params.pinProtocol = 1 ∨ params.pinProtocol = 2) .pinAuthInvalid
  let ctx ← Proc.get
  match params.subCommand.toNat with
  | 0x01 => sendItems capacity [encodeMap 1, encodeUint 0x03, encodeUint ctx.pin.pinRetries.toInt64.toUInt64]
  | 0x02 => sendItems capacity ([encodeMap 1, encodeUint 0x01] ++ keyAgreementItems ctx.authPubkey)
  | 0x03 => setPin crypto env params
  | 0x04 => changePin crypto env params
  | 0x05 => getPinToken crypto env params capacity
  | 0x06 => getUvTokenPerm crypto env params capacity
  | 0x07 => sendItems capacity [encodeMap 1, encodeUint 0x05, encodeUint 3]
  | 0x08 => setMinPinLength crypto params
  | 0x09 => getPinTokenPerm crypto env params capacity
  | _ => Proc.fail .invalidCbor

end

end Hiya.Fido2
