import Hiya.Fido2.Process
import Hiya.Library.Fields

/-! The OpenSSH middleware of `bio_ssh_sk.c`: a client of the authenticator's socket that
makes the credential of an SSH key and reads stored ones back. Every failure of an
exported function is the return value -1. -/

namespace Hiya.Ssh
open Library Cbor Fido2

/-- The size of a message, the same on both ends of the socket. -/
def maxMsg : Nat := 4096

def skEcdsa : UInt32 := 0x00
def skEd25519 : UInt32 := 0x01
def skResidentKey : UInt8 := 0x20

def cmdMakeCredential : UInt8 := 0x01
def cmdCredentialMgmt : UInt8 := 0x0A

/-- One connection to the daemon: whether the request gets through, whether the response
does, and what the surroundings of the daemon give it in between. -/
structure Link where
  delivers : Bool
  answers : Bool
  env : Env

def payload : Reply → Bytes
  | .registered _ _ bytes => bytes
  | .asserted _ _ _ bytes => bytes
  | .data bytes => bytes

/-- `fido2_send_recv` with the daemon at the other end. A request that got through is
processed even when its response is lost. No caller looks at a response whose status is
an error. -/
def fido2SendRecv (crypto : Crypto) (link : Link) (cmd : UInt8) (body : Bytes) : Proc Ctx Unit Bytes :=
  if link.delivers then do
    let reply ← (process crypto { cmd, body, capacity := maxMsg, env := link.env }).orFail ()
    if link.answers then pure (payload reply) else Proc.fail ()
  else Proc.fail ()

def given {α : Type} : Option α → Proc Ctx Unit α
  | some value => pure value
  | none => Proc.fail ()

/-- A copy of some bytes. There is none of nothing, and none without memory. -/
def dupBytes (allocated : Bool) (src : Bytes) : Option Bytes :=
  if src = [] ∨ !allocated then none else some src

/-- `sk_enroll_response`; an absent part is a null pointer. -/
structure EnrollResponse where
  publicKey : Option Bytes
  keyHandle : Option Bytes
  signature : Option Bytes
  attestationCert : Option Bytes
  authData : Option Bytes
  deriving DecidableEq, Repr

def EnrollResponse.zero : EnrollResponse where
  publicKey := none
  keyHandle := none
  signature := none
  attestationCert := none
  authData := none

/-- The arguments of `sk_enroll` that are looked at. -/
structure Enrollment where
  alg : UInt32
  challenge : Option Bytes
  application : Option Bytes
  flags : UInt8

structure EnrollMemory where
  response : Bool
  authData : Bool
  keyHandle : Bool
  publicKey : Bool

/-- The challenge, cut or filled up to 32 bytes. -/
def clientDataHash (challenge : Bytes) : Bytes := (challenge ++ List.replicate 32 0).take 32

/-- What `snprintf` leaves in a buffer of 320 bytes. -/
def userName (application : Bytes) : Bytes := (ascii "ssh:" ++ application).take 319

def enrollItems (challenge application : Bytes) (userId : Buf 32) (resident : Bool) : List (Encode Unit) :=
  [encodeMap (if resident then 5 else 4), encodeUint 0x01, encodeBstr (clientDataHash challenge),
    encodeUint 0x02, encodeMap 1, encodeText "id", encodeTstr application,
    encodeUint 0x03, encodeMap 2, encodeText "id", encodeBstr userId.bytes, encodeText "name",
    encodeTstr (userName application),
    encodeUint 0x04, encodeArray 1, encodeMap 2, encodeText "alg", encodeInt coseAlgEs256, encodeText "type",
    encodeText "public-key"] ++
  (if resident then [encodeUint 0x07, encodeMap 1, encodeText "rk", encodeBool true] else [])

/-- A value that is skipped without a look at the result. -/
def passOver {α : Type} (acc : α) : Decode α := do
  skip.ignore
  pure acc

def authDataPair (found : Option Bytes) : Decode (Option Bytes) := do
  let key ← decodeNext
  if key = .uint 0x02 then do pure (some (← decodeBstr)) else passOver found

def findAuthData : Decode (Option Bytes) := do
  let count ← decodeMap
  if count = 0 then Proc.fail .invalid else Proc.repeatTill count authDataPair none

/-- The authenticator data of a response. What is no map, or an empty one, is taken for
authenticator data itself. -/
def responseAuthData (rsp : Bytes) : Bytes :=
  match findAuthData (Decoder.init rsp) with
  | (.ok found, _) => found.getD []
  | (.error _, _) => rsp

/-- The credential id, and everything that stands behind it. -/
def attestedParts (authData : Bytes) : Option (Bytes × Bytes) :=
  if authData.length > 37 + 18 ∧ (authData.getD 32 0) &&& 0x40 ≠ 0 then
    let length := beNat ((authData.drop 53).take 2)
    if 55 + length < authData.length then some ((authData.drop 55).take length, authData.drop (55 + length)) else none
  else none

def parseEnrollment (memory : EnrollMemory) (rsp : Bytes) : Option EnrollResponse := do
  let authData ← dupBytes memory.authData (responseAuthData rsp)
  let (credId, key) ← attestedParts authData
  let keyHandle ← dupBytes memory.keyHandle credId
  let publicKey ← dupBytes memory.publicKey key
  pure { EnrollResponse.zero with publicKey := some publicKey, keyHandle := some keyHandle, authData := some authData }

section
variable (crypto : Crypto)

def skEnroll (link : Link) (memory : EnrollMemory) (userId : Option (Buf 32)) (args : Enrollment) :
    Proc Ctx Unit EnrollResponse := do
  let challenge ← given args.challenge
  let application ← given args.application
  if args.alg = skEd25519 then Proc.fail ()
  else do
    let userId ← given userId
    let resident : Bool := args.flags &&& skResidentKey ≠ 0
    let request ← given (encodeItems maxMsg (enrollItems challenge application userId resident))
    let rsp ← fido2SendRecv crypto link cmdMakeCredential request
    if memory.response then given (parseEnrollment memory rsp) else Proc.fail ()

end

/-- `sk_resident_key`, without the members that stay zero. -/
structure ResidentKey where
  alg : UInt32
  application : Bytes
  key : EnrollResponse
  userId : Option Bytes
  deriving DecidableEq, Repr

structure LoadMemory where
  key : Bool
  application : Bool
  userId : Bool
  publicKey : Bool
  keyHandle : Bool
  keys : Bool

section
variable {α : Type}

/-- A pair of a map of which only the text key `id` is looked at. -/
def idPair (take : Item → α → α) (acc : α) : Decode α := do
  let key ← decodeNext
  if key = .tstr (ascii "id") then do pure (take (← decodeNext) acc) else passOver acc

def idMap (take : Item → α → α) (acc : α) : Decode α := do
  let count ← decodeMap
  Proc.repeatTill count (idPair take) acc

/-- The pairs of a whole response, as far as they can be read. -/
def scanMap (pair : α → Decode α) (start : α) : Decode α := do
  let count ← decodeMap
  Proc.repeatTill count pair start

def scanResponse (pair : α → Decode α) (start : α) (rsp : Bytes) : Option α :=
  match scanMap pair start (Decoder.init rsp) with
  | (.ok found, _) => some found
  | (.error _, _) => none

end

/-- What is gathered about the first party. -/
structure PartyScan where
  totalRps : UInt64
  rpId : Bytes
  rpIdHash : Buf 32

def PartyScan.zero : PartyScan where
  totalRps := 0
  rpId := List.replicate 256 0
  rpIdHash := .zero 32

/-- At most 255 bytes are copied over what the buffer held before. -/
def takeRpId (value : Item) (scan : PartyScan) : PartyScan :=
  match value with
  | .tstr data => { scan with rpId := data.take 255 ++ scan.rpId.drop (min 255 data.length) }
  | _ => scan

def takeRpIdHash (value : Item) (scan : PartyScan) : PartyScan :=
  match value with
  | .bstr data => if exact : data.length = 32 then { scan with rpIdHash := .ofBytes data exact } else scan
  | _ => scan

def partyPair (scan : PartyScan) : Decode PartyScan := do
  let key ← decodeUint
  match key.toNat with
  | 0x03 => idMap takeRpId scan
  | 0x04 => do pure (takeRpIdHash (← decodeNext) scan)
  | 0x05 => do pure { scan with totalRps := ← decodeUint.withDefault scan.totalRps }
  | _ => passOver scan

/-- What is gathered about the first credential of that party. No algorithm is the -1 of
an unsupported one. -/
structure CredentialScan where
  pubkey : Buf 65
  credId : Bytes
  userId : Bytes
  totalCreds : UInt64
  alg : Option UInt32

def CredentialScan.zero : CredentialScan where
  pubkey := .zero 65
  credId := []
  userId := []
  totalCreds := 0
  alg := some skEcdsa

def takeUserId (value : Item) (scan : CredentialScan) : CredentialScan :=
  match value with
  | .bstr data => { scan with userId := data.take 64 }
  | _ => scan

def takeCredId (value : Item) (scan : CredentialScan) : CredentialScan :=
  match value with
  | .bstr data => { scan with credId := data.take 128 }
  | _ => scan

theorem form_fits : 0 + 1 ≤ 65 := by decide

theorem first_fits : 1 + 32 ≤ 65 := by decide

theorem second_fits : 33 + 32 ≤ 65 := by decide

/-- A coordinate of the point; one of another size leaves what was there. -/
def takeCoordinate (offset : Nat) (fits : offset + 32 ≤ 65) (value : Item) (scan : CredentialScan) : CredentialScan :=
  match value with
  | .bstr data =>
    if exact : data.length = 32 then { scan with pubkey := scan.pubkey.store offset (.ofBytes data exact) fits } else scan
  | _ => scan

def takeAlg (value : Item) (scan : CredentialScan) : CredentialScan :=
  { scan with alg := if value = .negint coseAlgEs256 then some skEcdsa else none }

def coseKeyPair (scan : CredentialScan) : Decode CredentialScan := do
  let key ← decodeNext
  if key = .negint (-2) then do pure (takeCoordinate 1 first_fits (← decodeNext) scan)
  else if key = .negint (-3) then do pure (takeCoordinate 33 second_fits (← decodeNext) scan)
  else if key = .uint 3 then do pure (takeAlg (← decodeNext) scan)
  else passOver scan

/-- The byte of an uncompressed point is there before the coordinates are. -/
def coseKeyMap (scan : CredentialScan) : Decode CredentialScan := do
  let count ← decodeMap
  Proc.repeatTill count coseKeyPair { scan with pubkey := scan.pubkey.store 0 (.single 0x04) form_fits }

def credentialPair (scan : CredentialScan) : Decode CredentialScan := do
  let key ← decodeUint
  match key.toNat with
  | 0x06 => idMap takeUserId scan
  | 0x07 => idMap takeCredId scan
  | 0x08 => coseKeyMap scan
  | 0x09 => do pure { scan with totalCreds := ← decodeUint.withDefault scan.totalCreds }
  | _ => passOver scan

/-- A request that does not fit is sent without a body. -/
def encodedRequest (items : List (Encode Unit)) : Bytes := (encodeItems maxMsg items).getD []

def partiesItems : List (Encode Unit) := [encodeMap 1, encodeUint 0x01, encodeUint 0x02]

def credentialsItems (rpIdHash : Buf 32) : List (Encode Unit) :=
  [encodeMap 2, encodeUint 0x01, encodeUint 0x04, encodeUint 0x02, encodeMap 1, encodeUint 0x01, encodeBstr rpIdHash.bytes]

/-- The key of the credential that was found. Copies of its parts are not checked. -/
def residentKeys (memory : LoadMemory) (party : PartyScan) (scan : CredentialScan) : Option (List ResidentKey) :=
  if scan.credId.length > 0 ∧ scan.pubkey.bytes.headD 0 = 0x04 ∧ scan.alg = some skEcdsa then
    if memory.key ∧ memory.application ∧ memory.keys then
      some [{
        alg := skEcdsa
        application := party.rpId.takeWhile (· ≠ 0)
        key := { EnrollResponse.zero with
          publicKey := dupBytes memory.publicKey scan.pubkey.bytes
          keyHandle := dupBytes memory.keyHandle scan.credId }
        userId := dupBytes memory.userId scan.userId }]
    else none
  else some []

section
variable (crypto : Crypto)

/-- The first credential of the first party. Between the two requests other clients may
use the authenticator. -/
def firstCredential (parties credentials : Link) (meanwhile : Ctx → Ctx) : Proc Ctx Unit (PartyScan × CredentialScan) := do
  let rsp ← fido2SendRecv crypto parties cmdCredentialMgmt (encodedRequest partiesItems)
  let party ← given (scanResponse partyPair .zero rsp)
  if party.totalRps = 0 ∨ party.rpId.headD 0 = 0 then Proc.fail ()
  else do
    Proc.modify meanwhile
    let rsp ← fido2SendRecv crypto credentials cmdCredentialMgmt (encodedRequest (credentialsItems party.rpIdHash))
    let found ← given (scanResponse credentialPair .zero rsp)
    pure (party, found)

/-- Whatever keeps a credential from being found, there are no keys then. -/
def skLoadResidentKeys (parties credentials : Link) (meanwhile : Ctx → Ctx) (memory : LoadMemory) :
    Proc Ctx Unit (List ResidentKey) := do
  match ← (firstCredential crypto parties credentials meanwhile >>= fun found => pure (some found)).withDefault none with
  | some (party, found) => given (residentKeys memory party found)
  | none => pure []

end

end Hiya.Ssh
