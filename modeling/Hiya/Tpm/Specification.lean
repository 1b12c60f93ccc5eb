import Hiya.Tpm.Commands
import Mathlib.Data.Nat.Bitwise

/-! A TPM as its specification has it, for the commands that sealing uses: how a packet
is taken apart, and what may come of each command. -/

namespace Hiya.Tpm
open Library
open Fido2 (Take takeBytes)

structure Authorization where
  session : Handle
  nonce : Bytes
  attributes : Nat
  hmac : Bytes

structure PublicArea where
  nameAlg : Nat
  attributes : Nat
  policy : Bytes
  unique : Bytes

/-- A hash and the registers selected of its bank. -/
structure PcrSelection where
  hash : Nat
  select : Bytes

inductive Command
  | readPublic (handle : Handle)
  | createPrimary (hierarchy : Handle) (auth : Authorization) (parameters : Bytes)
  | evictControl (hierarchy object : Handle) (auth : Authorization) (persistent : Handle)
  | create (parent : Handle) (auth : Authorization) (userAuth data : Bytes) (area : PublicArea) (outside : Bytes)
      (pcrs : List PcrSelection)
  | load (parent : Handle) (auth : Authorization) (priv pub : Bytes)
  | unsealItem (item : Handle) (auth : Authorization)
  | flushContext (handle : Handle)
  | startAuthSession (key bound : Handle) (nonce salt : Bytes) (kind symmetric hash : Nat)
  | policyPcr (session : Handle) (digest : Bytes) (pcrs : List PcrSelection)
  | policyGetDigest (session : Handle)

def demand (holds : Prop) [Decidable holds] : Take Unit := if holds then pure () else Proc.fail ()

def takeRest : Take Bytes := fun rest => (.ok rest, [])

def takeSized : Take Bytes := takeTpm2b 0xFFFF

def takeMany {α : Type} (item : Take α) : Nat → Take (List α)
  | 0 => pure []
  | count + 1 => do
    let first ← item
    let rest ← takeMany item count
    pure (first :: rest)

def takeSelection : Take PcrSelection := do
  let hash ← takeBe 2
  let size ← takeBe 1
  let select ← takeBytes size
  pure { hash, select := select.bytes }

def takeSelections : Take (List PcrSelection) := do
  let count ← takeBe 4
  takeMany takeSelection count

/-- The authorization area, with the one session these commands need. -/
def takeAuthorization : Take Authorization := do
  let size ← takeBe 4
  let session ← takeHandle
  let nonce ← takeSized
  let attributes ← takeBe 1
  let hmac ← takeSized
  demand (size = 9 + nonce.length + hmac.length)
  pure { session, nonce, attributes, hmac }

/-- The secret part of a new object: its password and its data. -/
def takeSensitive : Take (Bytes × Bytes) := do
  let size ← takeBe 2
  let userAuth ← takeSized
  let data ← takeSized
  demand (size = 4 + userAuth.length + data.length)
  pure (userAuth, data)

/-- The template of a keyed-hash object without a scheme. -/
def takePublicArea : Take PublicArea := do
  let size ← takeBe 2
  let kind ← takeBe 2
  let nameAlg ← takeBe 2
  let attributes ← takeBe 4
  let policy ← takeSized
  let scheme ← takeBe 2
  let unique ← takeSized
  demand (kind = algKeyedHash ∧ scheme = algNull ∧ size = 14 + policy.length + unique.length)
  pure { nameAlg, attributes, policy, unique }

/-- The handles, the authorization and the parameters of a command. -/
def takeBody (tag code : Nat) : Take Command :=
  if tag = stNoSessions ∧ code = ccReadPublic then do
    pure (.readPublic (← takeHandle))
  else if tag = stSessions ∧ code = ccCreatePrimary then do
    let hierarchy ← takeHandle
    let auth ← takeAuthorization
    pure (.createPrimary hierarchy auth (← takeRest))
  else if tag = stSessions ∧ code = ccEvictControl then do
    let hierarchy ← takeHandle
    let object ← takeHandle
    let auth ← takeAuthorization
    pure (.evictControl hierarchy object auth (← takeHandle))
  else if tag = stSessions ∧ code = ccCreate then do
    let parent ← takeHandle
    let auth ← takeAuthorization
    let (userAuth, data) ← takeSensitive
    let area ← takePublicArea
    let outside ← takeSized
    pure (.create parent auth userAuth data area outside (← takeSelections))
  else if tag = stSessions ∧ code = ccLoad then do
    let parent ← takeHandle
    let auth ← takeAuthorization
    let priv ← takeSized
    pure (.load parent auth priv (← takeSized))
  else if tag = stSessions ∧ code = ccUnseal then do
    let item ← takeHandle
    pure (.unsealItem item (← takeAuthorization))
  else if tag = stNoSessions ∧ code = ccFlushContext then do
    pure (.flushContext (← takeHandle))
  else if tag = stNoSessions ∧ code = ccStartAuthSession then do
    let key ← takeHandle
    let bound ← takeHandle
    let nonce ← takeSized
    let salt ← takeSized
    let kind ← takeBe 1
    let symmetric ← takeBe 2
    pure (.startAuthSession key bound nonce salt kind symmetric (← takeBe 2))
  else if tag = stNoSessions ∧ code = ccPolicyPcr then do
    let session ← takeHandle
    let digest ← takeSized
    pure (.policyPcr session digest (← takeSelections))
  else if tag = stNoSessions ∧ code = ccPolicyGetDigest then do
    pure (.policyGetDigest (← takeHandle))
  else Proc.fail ()

def takeCommand (length : Nat) : Take Command := do
  let tag ← takeBe 2
  let size ← takeBe 4
  let code ← takeBe 4
  demand (size = length)
  takeBody tag code

/-- A packet that says its own length and holds one command, and nothing else. -/
def parseCommand (packet : Bytes) : Option Command :=
  match takeCommand packet.length packet with
  | (.ok command, []) => some command
  | _ => none

structure Key where
  secret : Nat
  auth : Bytes
  deriving DecidableEq

structure SealedObject where
  userAuth : Bytes
  data : Bytes
  attributes : Nat
  policy : Bytes

structure PolicySession where
  kind : Nat
  digest : Bytes

structure TpmState where
  keys : Handle → Option Key
  objects : Handle → Option SealedObject
  sessions : Handle → Option PolicySession
  /-- What a private and a public part hold under a key. -/
  holds : Key → Bytes → Bytes → Option SealedObject
  /-- A policy digest, extended by registers with the values they have now. -/
  extended : Bytes → List PcrSelection → Bytes

/-- Commands and responses have the same frame: tag, size of the whole, a code, and the
rest. -/
def framed (tag code : Nat) (body : Bytes) : Bytes :=
  beBytes 2 tag ++ (beBytes 4 (10 + body.length) ++ (beBytes 4 code ++ body))

def Succeeds (tag : Nat) (body reply : Bytes) : Prop := 10 + body.length ≤ maxPacketSize ∧ reply = framed tag 0 body

def Fails (reply : Bytes) : Prop := ∃ rc, rc ≠ 0 ∧ rc < 256 ^ 4 ∧ reply = framed stNoSessions rc []

/-- The parameters of a response with sessions, behind their size and before the
sessions' own area. -/
def withSessions (parameters sessions : Bytes) : Bytes := beBytes 4 parameters.length ++ (parameters ++ sessions)

def Authorization.IsPassword (auth : Authorization) (value : Bytes) : Prop := auth.session = rsPw ∧ auth.hmac = value

/-- The user's password where the object admits it, or a session that has its policy. -/
def MayUnseal (before : TpmState) (item : SealedObject) (auth : Authorization) : Prop :=
  (item.attributes.testBit 6 = true ∧ auth.IsPassword item.userAuth) ∨
    ∃ session, before.sessions auth.session = some session ∧ session.kind = sePolicy ∧ item.policy ≠ [] ∧
      session.digest = item.policy

/-- What can be flushed: everything that is not persistent. -/
def TpmState.Transient (before : TpmState) (handle : Handle) : Prop :=
  before.objects handle ≠ none ∨ before.sessions handle ≠ none ∨ (before.keys handle ≠ none ∧ isPersistent handle = false)

def TpmState.without (before : TpmState) (handle : Handle) : TpmState :=
  { before with
    keys := Function.update before.keys handle none
    objects := Function.update before.objects handle none
    sessions := Function.update before.sessions handle none }

/-- The responses and the states the specification admits for a command. -/
def Allowed (command : Command) (before : TpmState) (reply : Bytes) (after : TpmState) : Prop :=
  match command with
  | .readPublic handle =>
    after = before ∧
      (before.keys handle ≠ none → ∃ area names, area.length ≤ 256 ∧ Succeeds stNoSessions (tpm2b area ++ names) reply) ∧
      (before.keys handle = none → before.objects handle = none → Fails reply)
  | .createPrimary .. =>
    (Fails reply ∧ after = before) ∨
      ∃ handle key rest, before.keys handle = none ∧ Succeeds stSessions (beBytes 4 handle.toNat ++ rest) reply ∧
        after = { before with keys := Function.update before.keys handle (some key) }
  | .evictControl _ object _ persistent =>
    (Fails reply ∧ after = before) ∨
      ∃ key rest, before.keys object = some key ∧ Succeeds stSessions rest reply ∧
        if object = persistent then after = { before with keys := Function.update before.keys persistent none }
        else before.keys persistent = none ∧ after = { before with keys := Function.update before.keys persistent (some key) }
  | .create parent auth userAuth data area .. =>
    (Fails reply ∧ after = before) ∨
      ∃ key priv pub more sessions, before.keys parent = some key ∧ auth.IsPassword key.auth ∧
        Succeeds stSessions (withSessions (tpm2b priv ++ (tpm2b pub ++ more)) sessions) reply ∧
        after = { before with holds := after.holds } ∧
        after.holds key priv pub = some { userAuth, data, attributes := area.attributes, policy := area.policy } ∧
        ∀ key priv pub item, before.holds key priv pub = some item → after.holds key priv pub = some item
  | .load parent auth priv pub =>
    ∀ key, before.keys parent = some key →
      (¬ auth.IsPassword key.auth → Fails reply ∧ after = before) ∧
      (auth.IsPassword key.auth → ∀ item, before.holds key priv pub = some item →
        ∃ handle rest, Succeeds stSessions (beBytes 4 handle.toNat ++ rest) reply ∧
          after = { before with objects := Function.update before.objects handle (some item) })
  | .unsealItem handle auth =>
    after = { before with sessions := after.sessions } ∧
      (before.objects handle = none → Fails reply) ∧
      ∀ item, before.objects handle = some item →
        (¬ MayUnseal before item auth → Fails reply) ∧
        (MayUnseal before item auth → ∃ sessions, Succeeds stSessions (withSessions (tpm2b item.data) sessions) reply)
  | .flushContext handle =>
    (before.Transient handle → Succeeds stNoSessions [] reply ∧ after = before.without handle) ∧
      (¬ before.Transient handle → Fails reply ∧ after = before)
  | .startAuthSession key bound _ salt kind symmetric hash =>
    key = rhNull → bound = rhNull → salt = [] → symmetric = algNull → hash = algSha256 →
      ∃ handle nonce, Succeeds stNoSessions (beBytes 4 handle.toNat ++ tpm2b nonce) reply ∧
        after = { before with sessions := Function.update before.sessions handle (some { kind, digest := List.replicate 32 0 }) }
  | .policyPcr session digest pcrs =>
    (before.sessions session = none → Fails reply ∧ after = before) ∧
      ∀ held, before.sessions session = some held → digest = [] →
        Succeeds stNoSessions [] reply ∧
          after = { before with
            sessions := Function.update before.sessions session
              (some { held with digest := before.extended held.digest pcrs }) }
  | .policyGetDigest session =>
    after = before ∧
      (before.sessions session = none → Fails reply) ∧
      ∀ held, before.sessions session = some held → Succeeds stNoSessions (tpm2b held.digest) reply

/-- A device with a TPM behind it that keeps to the specification. -/
def Conforms {σ : Type} (device : Device σ) (view : σ → TpmState) : Prop :=
  ∀ packet command state, parseCommand packet = some command →
    ∃ reply, (device.transfer packet state).1 = .reply reply ∧
      Allowed command (view state) reply (view (device.transfer packet state).2)

end Hiya.Tpm
