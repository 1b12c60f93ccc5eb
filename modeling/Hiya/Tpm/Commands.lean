import Hiya.Tpm.Packets

/-! The commands of `bio_tpm.c` that sealing takes part in, and sealing itself. -/

namespace Hiya.Tpm
open Library
open Fido2 (Take)

def ccEvictControl : Nat := 0x120
def ccCreatePrimary : Nat := 0x131
def ccCreate : Nat := 0x153
def ccLoad : Nat := 0x157
def ccUnseal : Nat := 0x15E
def ccFlushContext : Nat := 0x165
def ccReadPublic : Nat := 0x173
def ccStartAuthSession : Nat := 0x176
def ccPolicyPcr : Nat := 0x17F
def ccPolicyGetDigest : Nat := 0x189

def algAes : Nat := 0x0006
def algKeyedHash : Nat := 0x0008
def algSha256 : Nat := 0x000B
def algNull : Nat := 0x0010
def algEcc : Nat := 0x0023
def algCfb : Nat := 0x0043
def eccNistP256 : Nat := 0x0003

def sePolicy : Nat := 0x01
def seTrial : Nat := 0x03

def maxSealedData : Nat := 128

section
variable {σ : Type} (device : Device σ)

def readPublic (handle : Handle) (room : Nat) : Proc (Ctx σ) TpmCode Bytes := do
  perform device (commandHeader stNoSessions ccReadPublic ++ [u32 handle.toNat]) fun _ => .handle
  readResponse (takeTpm2b room)

/-- An ECC storage key under the owner hierarchy. -/
def createPrimary : Proc (Ctx σ) TpmCode Handle := do
  perform device (commandHeader stSessions ccCreatePrimary ++ [u32 rhOwner.toNat] ++ passwordAuth [] ++
    [u16 4, u16 0, u16 0] ++
    [u16 (2 + 2 + 4 + 2 + (2 + 2 + 2) + 2 + 2 + 2 + (2 + 2)), u16 algEcc, u16 algSha256, u32 0x00030072, u16 0, u16 algAes,
      u16 128, u16 algCfb, u16 algNull, u16 eccNistP256, u16 algNull, u16 0, u16 0] ++
    [u16 0, u32 0]) fun _ => .hierarchy
  readResponse takeHandle

def evictControl (object persistent : Handle) : Proc (Ctx σ) TpmCode Unit :=
  perform device (commandHeader stSessions ccEvictControl ++ [u32 rhOwner.toNat, u32 object.toNat] ++ passwordAuth [] ++
    [u32 persistent.toNat]) fun _ => .hierarchy

def flushContext (handle : Handle) : Proc (Ctx σ) TpmCode Unit :=
  perform device (commandHeader stNoSessions ccFlushContext ++ [u32 handle.toNat]) fun _ => .handle

/-- The two parts of a new object, of which neither may be empty. -/
def takeCreated : Take (Bytes × Bytes) := do
  let _ ← takeBe 4
  let priv ← takeTpm2b 512
  if priv = [] then Proc.fail () else pure ()
  let pub ← takeTpm2b 512
  if pub = [] then Proc.fail () else pure ()
  pure (priv, pub)

/-- A data object under a parent, as the two parts it is kept as outside. -/
def createObject (parent : Handle) (data auth : Bytes) (attributes : Nat) (policy : Bytes) :
    Proc (Ctx σ) TpmCode (Bytes × Bytes) :=
  if 0xFFFF < auth.length ∨ maxSealedData < data.length then Proc.fail .invalidParam
  else if 0xFFFF < 2 + auth.length + 2 + data.length then Proc.fail .invalidParam
  else do
    perform device (commandHeader stSessions ccCreate ++ [u32 parent.toNat] ++ passwordAuth [] ++
      [u16 (2 + auth.length + 2 + data.length), sized auth, sized data] ++
      [u16 (2 + 2 + 4 + 2 + policy.length + 2 + 2), u16 algKeyedHash, u16 algSha256, u32 attributes, sized policy,
        u16 algNull, u16 0] ++
      [u16 0, u32 0]) fun _ => .sealing
    readResponse takeCreated

/-- fixedTPM, fixedParent and userWithAuth. -/
def createSealed (parent : Handle) (data auth : Bytes) : Proc (Ctx σ) TpmCode (Bytes × Bytes) :=
  if maxSealedData < data.length then Proc.fail .invalidParam else createObject device parent data auth 0x00000052 []

def load (parent : Handle) (priv pub : Bytes) : Proc (Ctx σ) TpmCode Handle :=
  if 0xFFFF < priv.length ∨ 0xFFFF < pub.length then Proc.fail .invalidParam
  else do
    perform device (commandHeader stSessions ccLoad ++ [u32 parent.toNat] ++ passwordAuth [] ++ [sized priv, sized pub])
      fun _ => .handle
    readResponse takeHandle

/-- The data of an Unseal response, behind the size of its parameters. -/
def takeUnsealed (room : Nat) : Take Bytes := do
  let _ ← takeBe 4
  takeTpm2b room

def unsealRefusal (rc : Nat) : TpmCode := if rc = 0x8E ∨ rc = 0x22 then .auth else .sealing

def tpmUnseal (item : Handle) (auth : Bytes) (room : Nat) : Proc (Ctx σ) TpmCode Bytes := do
  perform device (commandHeader stSessions ccUnseal ++ [u32 item.toNat] ++ passwordAuth auth) unsealRefusal
  readResponse (takeUnsealed room)

/-- A session without key and salt. The nonce of the TPM is not looked at. -/
def startAuthSession (nonce : Option (Buf 32)) (kind : Nat) : Proc (Ctx σ) TpmCode Handle :=
  match nonce with
  | none => Proc.fail .random
  | some nonce => do
    perform device (commandHeader stNoSessions ccStartAuthSession ++
      [u32 rhNull.toNat, u32 rhNull.toNat, sized nonce.bytes, u16 0, u8 kind, u16 algNull, u16 algSha256]) fun _ => .command
    readResponse takeHandle

def pcrSelect (index : Nat) : Bytes := (List.range 3).map fun place => if place = index / 8 then
    UInt8.ofNat (2 ^ (index % 8)) else 0

def policyPcr (session : Handle) (index : UInt32) : Proc (Ctx σ) TpmCode Unit :=
  if 23 < index then Proc.fail .invalidParam
  else perform device (commandHeader stNoSessions ccPolicyPcr ++
    [u32 session.toNat, u16 0, u32 1, u16 algSha256, u8 3, some (pcrSelect index.toNat)]) fun _ => .pcr

def policyGetDigest (session : Handle) : Proc (Ctx σ) TpmCode Bytes := do
  perform device (commandHeader stNoSessions ccPolicyGetDigest ++ [u32 session.toNat]) fun _ => .command
  readResponse do
    let digest ← takeTpm2b 32
    if digest.length ≠ 32 then Proc.fail () else pure ()
    pure digest

/-- The digest of the register's policy, by way of a trial session. -/
def trialDigest (nonce : Option (Buf 32)) (index : UInt32) : Proc (Ctx σ) TpmCode Bytes := do
  let session ← startAuthSession device nonce seTrial
  (policyPcr device session index).undoing (flushContext device session)
  (policyGetDigest device session).closing (flushContext device session)

/-- fixedTPM and fixedParent: only the policy authorizes. -/
def createSealedPcr (nonce : Option (Buf 32)) (parent : Handle) (data auth : Bytes) (index : UInt32) :
    Proc (Ctx σ) TpmCode (Bytes × Bytes) :=
  if maxSealedData < data.length then Proc.fail .invalidParam
  else do
    let digest ← trialDigest device nonce index
    createObject device parent data auth 0x00000012 digest

end

def persistentFirst : Handle := 0x81000000
def persistentLast : Handle := 0x81FFFFFF
def hiyaPrimaryHandle : Handle := 0x81000100

def isPersistent (handle : Handle) : Bool := persistentFirst ≤ handle ∧ handle ≤ persistentLast

def Ctx.parent {σ : Type} (ctx : Ctx σ) : Handle :=
  if isPersistent ctx.primaryHandle then ctx.primaryHandle else hiyaPrimaryHandle

/-- The two parts of an object behind their lengths. -/
def packObject (priv pub : Bytes) : Bytes := tpm2b priv ++ tpm2b pub

/-- Whatever stands behind the second part is not looked at. -/
def unpackObject (blob : Bytes) : Option (Bytes × Bytes) :=
  let privLen := beNat (blob.take 2)
  if blob.length < 2 + privLen + 2 then none
  else
    let pubLen := beNat ((blob.drop (2 + privLen)).take 2)
    if blob.length < 2 + privLen + 2 + pubLen then none
    else some ((blob.drop 2).take privLen, (blob.drop (2 + privLen + 2)).take pubLen)

section
variable {σ : Type} (device : Device σ)

/-- The handle of the parent, which is made and stored there when it cannot be read. -/
def ensurePrimaryKey : Proc (Ctx σ) TpmCode Handle := fun ctx =>
  match readPublic device ctx.parent 256 ctx with
  | (.ok _, reached) => (.ok ctx.parent, reached)
  | (.error _, reached) =>
    (do
      let transient ← createPrimary device
      (evictControl device transient ctx.parent).closing (flushContext device transient)
      pure ctx.parent : Proc (Ctx σ) TpmCode Handle) reached

def sealForUser (data auth : Bytes) (room : Nat) : Proc (Ctx σ) TpmCode Bytes := do
  let primary ← ensurePrimaryKey device
  let (priv, pub) ← createSealed device primary data auth
  if room < 2 + priv.length + 2 + pub.length then Proc.fail .bufferTooSmall else pure (packObject priv pub)

def unsealForUser (blob auth : Bytes) (room : Nat) : Proc (Ctx σ) TpmCode Bytes :=
  if blob.length < 4 then Proc.fail .invalidParam
  else do
    let primary ← ensurePrimaryKey device
    match unpackObject blob with
    | none => Proc.fail .invalidParam
    | some (priv, pub) =>
      let item ← load device primary priv pub
      (tpmUnseal device item auth room).closing (flushContext device item)

/-- The register is kept in front, as one byte. There is no password beside a policy. -/
def sealForUserPcr (nonce : Option (Buf 32)) (data auth : Bytes) (index : UInt32) (room : Nat) :
    Proc (Ctx σ) TpmCode Bytes :=
  if auth ≠ [] then Proc.fail .invalidParam
  else do
    let primary ← ensurePrimaryKey device
    let (priv, pub) ← createSealedPcr device nonce primary data auth index
    if room < 1 + 2 + priv.length + 2 + pub.length then Proc.fail .bufferTooSmall
    else pure (index.toUInt8 :: packObject priv pub)

/-- Unseal under a policy session. Both handles are flushed before the outcome is looked
at, and it is the context's response that is read then. -/
def unsealPolicy (item session : Handle) (room : Nat) : Proc (Ctx σ) TpmCode Bytes :=
  match marshal (commandHeader stSessions ccUnseal ++
      [u32 item.toNat, u32 (4 + 2 + 1 + 2), u32 session.toNat, u16 0, u8 0x01, u16 0]) with
  | none => ((Proc.fail .command).closing (flushContext device session)).closing (flushContext device item)
  | some command => do
    let rc ← ((execute device command).closing (flushContext device session)).closing (flushContext device item)
    if rc ≠ 0 then Proc.fail .sealing else pure ()
    readResponse (takeUnsealed room)

def unsealForUserPcr (nonce : Option (Buf 32)) (blob auth : Bytes) (index : UInt32) (room : Nat) :
    Proc (Ctx σ) TpmCode Bytes :=
  if blob.length < 5 then Proc.fail .invalidParam
  else if auth ≠ [] then Proc.fail .invalidParam
  else do
    let primary ← ensurePrimaryKey device
    if blob.head? ≠ some index.toUInt8 then Proc.fail .invalidParam else pure ()
    match unpackObject blob.tail with
    | none => Proc.fail .invalidParam
    | some (priv, pub) =>
      let item ← load device primary priv pub
      let session ← (startAuthSession device nonce sePolicy).undoing (flushContext device item)
      ((policyPcr device session index).undoing (flushContext device session)).undoing (flushContext device item)
      unsealPolicy device item session room

end

end Hiya.Tpm
