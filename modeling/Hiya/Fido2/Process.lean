import Hiya.Fido2.Management

/-! The command dispatcher of `bio_fido2.c`, the commands that need no module of
their own, and the authenticator as a machine fed with requests. -/

namespace Hiya.Fido2
open Library Cbor

def getInfoItems (ctx : Ctx) : List (Encode Unit) :=
  [encodeMap 11,
    encodeUint 0x01, encodeArray 3, encodeText "FIDO_2_0", encodeText "FIDO_2_1_PRE", encodeText "FIDO_2_1",
    encodeUint 0x02, encodeArray 3, encodeText "credProtect", encodeText "credentialMgmtPreview",
    encodeText "hmac-secret",
    encodeUint 0x03, encodeBstr aaguid,
    encodeUint 0x04, encodeMap 10,
    encodeText "plat", encodeBool true, encodeText "rk", encodeBool true, encodeText "up", encodeBool true,
    encodeText "uv", encodeBool true, encodeText "clientPin", encodeBool ctx.pin.pinSet,
    encodeText "bioEnroll", encodeBool true, encodeText "credMgmt", encodeBool true,
    encodeText "pinUvAuthToken", encodeBool true, encodeText "alwaysUv", encodeBool true,
    encodeText "makeCredUvNotRqd", encodeBool false,
    encodeUint 0x05, encodeUint 4096,
    encodeUint 0x06, encodeArray 1, encodeUint 1,
    encodeUint 0x07, encodeUint (UInt64.ofNat maxAllowList),
    encodeUint 0x08, encodeUint (UInt64.ofNat maxCredentialIdLen),
    encodeUint 0x09, encodeArray 1, encodeText "internal",
    encodeUint 0x0A, encodeArray 1, encodeMap 2, encodeText "alg", encodeNegint 6, encodeText "type",
    encodeText "public-key",
    -- an unsigned difference: it wraps once the count passes the table size
    encodeUint 0x18, encodeUint (UInt64.ofNat maxCredentialsStored - UInt64.ofNat ctx.credentialCount)]

def getInfo (capacity : Nat) : Command Reply := do
  let ctx ← Proc.get
  sendItems capacity (getInfoItems ctx)

section
variable (crypto : Crypto) (env : Env)

/-- `bio_fido2_bio_reset`. -/
def Ctx.bioReset (ctx : Ctx) : Ctx :=
  { ctx with bioTemplates := fun _ => .zero, bioTemplateCount := 0, bioEnrollActive := none, credEnum := .zero }

def wiped (cred : Credential) : Credential :=
  { cred with privateKey := if cred.inUse then .zero 32 else cred.privateKey, inUse := false }

/-- Everything a reset clears. The wrap key is not among it. -/
def Ctx.cleared (ctx : Ctx) : Ctx :=
  { ctx.bioReset with
    credentials := fun slot => wiped (ctx.credentials slot)
    credentialCount := 0
    pin := { PinState.zero with pinRetries := maxPinRetries }
    authPrivkey := (env.ecdhKeypair.map Keypair.privateKey).getD (.zero 32)
    authPubkey := (env.ecdhKeypair.map Keypair.publicKey).getD (.zero 65)
    globalSignCount := 0
    minPinLength := 4 }

def reset : Command Reply := do
  let ctx ← Proc.get
  Command.check (¬ env.now - ctx.initTimestamp > 10) .notAllowed
  Command.check (ctx.verifyUser → env.userVerified) .operationDenied
  Proc.modify (Ctx.cleared env)
  (saveCredentials crypto env).ignore
  pure (.data [])

def selection : Command Reply := do
  let ctx ← Proc.get
  Command.check (ctx.verifyUser ∧ env.userVerified) .operationDenied
  pure (.data [])

end

inductive Cmd
  | makeCredential
  | getAssertion
  | getInfo
  | clientPin
  | reset
  | getNextAssertion
  | bioEnrollment
  | credentialManagement
  | selection
  | unknown
  deriving DecidableEq, Repr

def Cmd.ofByte (byte : UInt8) : Cmd :=
  match byte.toNat with
  | 0x01 => makeCredential
  | 0x02 => getAssertion
  | 0x04 => getInfo
  | 0x06 => clientPin
  | 0x07 => reset
  | 0x08 => getNextAssertion
  | 0x09 => bioEnrollment
  | 0x0A => credentialManagement
  | 0x0B => selection
  | _ => unknown

/-- A command as it arrives: its byte, its parameters, the room for the response,
and what its surroundings will give it. -/
structure Request where
  cmd : UInt8
  body : Bytes
  capacity : Nat
  env : Env

def Ctx.dropAssertion (ctx : Ctx) : Ctx := { ctx with assertionMatches := [], assertionIndex := 0, assertionTimestamp := 0 }

def dispatch (crypto : Crypto) (request : Request) : Command Reply :=
  match Cmd.ofByte request.cmd with
  | .makeCredential => makeCredential crypto request.env request.body request.capacity
  | .getAssertion => getAssertion crypto request.env request.body request.capacity
  | .getInfo => getInfo request.capacity
  | .clientPin => clientPin crypto request.env request.body request.capacity
  | .reset => reset crypto request.env
  | .getNextAssertion => getNextAssertion crypto request.env request.capacity
  | .bioEnrollment => bioEnrollment crypto request.env request.body request.capacity
  | .credentialManagement => credentialManagement crypto request.env request.body request.capacity
  | .selection => selection request.env
  | .unknown => Proc.fail .invalidCommand

/-- `bio_fido2_process`: any command but GetNextAssertion ends a pending one. -/
def process (crypto : Crypto) (request : Request) : Command Reply := do
  if Cmd.ofByte request.cmd ≠ .getNextAssertion then Proc.modify Ctx.dropAssertion else pure ()
  dispatch crypto request

/-- The authenticator, one request at a time. A store outside an array ends what
can be said about a run. -/
def authenticator (crypto : Crypto) : Machine Ctx Request (Except Status Reply) where
  step := process crypto
  halts outcome := match outcome with
    | .error .fault => true
    | _ => false

/-- The context `bio_fido2_init` sets up before it loads the stored credentials. -/
def Ctx.fresh (env : Env) (keypair : Keypair) (wrapKey : Buf 32) (disk : Option Bytes) : Ctx where
  credentials := fun _ => .zero
  credentialCount := 0
  pin := { PinState.zero with pinRetries := maxPinRetries }
  authPrivkey := keypair.privateKey
  authPubkey := keypair.publicKey
  assertionMatches := []
  assertionIndex := 0
  assertionClientDataHash := .zero 32
  assertionRpIdHash := .zero 32
  assertionFlags := 0
  globalSignCount := 0
  assertionTimestamp := 0
  initTimestamp := env.now
  verifyUser := false
  wrapKey := some wrapKey
  minPinLength := 4
  bioTemplates := fun _ => .zero
  bioTemplateCount := 0
  bioEnrollActive := none
  credEnum := .zero
  disk

/-- `bio_fido2_init`: a store that cannot be loaded is only warned about. -/
def fido2Init (crypto : Crypto) (env : Env) (keypair : Keypair) (wrapKey : Buf 32) (disk : Option Bytes) : Ctx :=
  (loadCredentials crypto env (.fresh env keypair wrapKey disk)).2

def Ctx.setUvCallback (installed : Bool) (ctx : Ctx) : Ctx := { ctx with verifyUser := installed }

end Hiya.Fido2
