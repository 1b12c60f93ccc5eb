import Hiya.Pm.VaultLifecycle
import Hiya.Tpm.Commands

/-! The keys that wrap a vault, kept by the TPM. `pm_bio_wrap.c` puts what the TPM has sealed into
a sidecar of its own form beside the vault, `pm_vault_store.c` writes it down as it is by way of
`pm_tpm_wrapping.c`. -/

namespace Hiya.Pm.Wrapping
open Library
open Format (ensure orFail)

def keySize : Nat := 32
def sealedBlobMax : Nat := 1024

/-- The errors of the password manager, with those that only the TPM gives rise to. -/
inductive Failure
  | pm (error : PmError)
  | tpm
  | bio
  deriving DecidableEq, Repr

def mapBioError : Tpm.TpmCode → Failure
  | .invalidParam => .pm .invalidParam
  | .random => .pm .crypto
  | .bufferTooSmall => .bio
  | _ => .tpm

structure Params where
  requireTpm : Bool
  pcrIndex : UInt32
  deriving DecidableEq

def Params.defaults : Params := { requireTpm := false, pcrIndex := 7 }

def validateParams (params : Params) : Except PmError Unit := ensure (params.pcrIndex ≤ 23) .invalidParam

abbrev headerSize : Nat := 32

abbrev Header := Buf headerSize

def magic : Buf 8 := .ofBytes [0x50, 0x4D, 0x42, 0x57, 0x52, 0x41, 0x50, 0x00] rfl

def sidecarHeader (params : Params) (sealedLen : Nat) : Header :=
  (Buf.zero headerSize)
    |>.store 0 magic (by decide)
    |>.store 8 (.single 1) (by decide)
    |>.store 9 (.single 0) (by decide)
    |>.store 10 (.le 2 (if params.requireTpm then 1 else 0)) (by decide)
    |>.store 12 (.le 4 params.pcrIndex.toNat) (by decide)
    |>.store 16 (.le 4 sealedLen) (by decide)

def sidecar (params : Params) (sealedBlob : Bytes) : Bytes := (sidecarHeader params sealedBlob.length).bytes ++ sealedBlob

/-- The parameters, and how long the sealed key is to be. -/
def readHeader (header : Header) : Except PmError (Params × Nat) := do
  ensure (header.field 0 8 (by decide) = magic) .formatMagic
  ensure (header.field 8 1 (by decide) = .single 1 ∧ header.field 9 1 (by decide) = .single 0) .formatVersion
  let flags := UInt32.ofNat (header.field 10 2 (by decide)).leValue
  ensure (flags &&& ~~~1 = 0) .format
  pure ({ requireTpm := flags &&& 1 ≠ 0, pcrIndex := UInt32.ofNat (header.field 12 4 (by decide)).leValue },
    (header.field 16 4 (by decide)).leValue)

/-- The contents of a file as a sidecar; `copied` tells whether there is memory for the sealed key. -/
def parseSidecar (copied : Bool) (blob : Bytes) : Except PmError (Params × Bytes) :=
  if long : headerSize ≤ blob.length then do
    let (params, sealedLen) ← readHeader (.ofBytes (blob.take headerSize) (List.length_take_of_le long))
    ensure (¬ (23 < params.pcrIndex ∨ sealedLen = 0 ∨ blob.length ≠ headerSize + sealedLen)) .format
    ensure (copied = true) .nomem
    pure (params, (blob.drop headerSize).take sealedLen)
  else .error .format

structure World (σ : Type) where
  /-- The file behind `.tpmwrap`, in the place of a vault. -/
  wrapped : Lifecycle.Files
  /-- The file behind `.tpm`. -/
  plain : Option Bytes
  /-- The context that was opened last, and the TPM. -/
  ctx : Tpm.Ctx σ
  /-- What stands where the caller wants the key. -/
  key : Bytes

structure Env where
  pathFits : Bool
  /-- Whether the size of the file can be asked for, and whether it can be read. -/
  looked : Bool
  readable : Bool
  /-- Memory for the whole file, and for the copy of what is sealed. -/
  memory : Bool
  copied : Bool
  disk : Lifecycle.Disk
  tpmOpens : Bool
  /-- Random numbers for the session to seal in, the one to unseal in, and a key. -/
  sealNonce : Option (Buf 32)
  unsealNonce : Option (Buf 32)
  random : Option (Buf keySize)
  /-- Whether the plain file opens, how many bytes of it seem to be written, and how many are. -/
  plainOpens : Bool
  reported : Nat
  landed : Nat

abbrev Call (σ α : Type) := Proc (World σ) Failure α

section
variable {σ : Type}

def liftPm {α : Type} : Except PmError α → Call σ α
  | .ok value => pure value
  | .error problem => Proc.fail (.pm problem)

def newCtx (tpm : σ) : Tpm.Ctx σ := { primaryHandle := Tpm.hiyaPrimaryHandle, rsp := [], tpm }

def openTpm (env : Env) : Call σ Unit :=
  if env.tpmOpens = false then Proc.fail .tpm else Proc.modify fun world => { world with ctx := newCtx world.ctx.tpm }

/-- A use of the TPM, with its errors translated. -/
def onTpm {α : Type} (failure : Tpm.TpmCode → Failure) (body : Proc (Tpm.Ctx σ) Tpm.TpmCode α) : Call σ α := fun world =>
  match body world.ctx with
  | (.ok value, ctx) => (.ok value, { world with ctx })
  | (.error problem, ctx) => (.error (failure problem), { world with ctx })

def setKey (key : Bytes) : Call σ Unit := Proc.modify fun world => { world with key }

def noKey : Bytes := List.replicate keySize 0

/-- How a whole file is read; `missing` is the error where there is none. -/
def readFileAll (env : Env) (missing : PmError) (file : Option Bytes) : Except PmError Bytes := do
  ensure (env.looked = true) .io
  let bytes ← orFail missing file
  ensure (bytes ≠ []) .format
  ensure (env.memory = true) .nomem
  ensure (env.readable = true) .io
  pure bytes

end

section
variable {σ : Type} (device : Tpm.Device σ) (env : Env)

/-- The key that was sealed, where the caller wants it. -/
def unsealKey (failure : Tpm.TpmCode → Failure) (short : PmError) (sealedBlob : Bytes) (pcrIndex : UInt32) : Call σ Unit := do
  let data ← (onTpm failure (Tpm.unsealForUserPcr device env.unsealNonce sealedBlob [] pcrIndex keySize)).undoing
    (setKey noKey)
  setKey data
  if data.length ≠ keySize then (Proc.fail (.pm short)).undoing (setKey noKey) else pure ()

/-- The sidecar takes the place of the old one as a vault does. -/
def writeFileAtomic (data : Bytes) : Call σ Unit := fun world =>
  match Lifecycle.writeFileAtomic env.disk data world.wrapped with
  | (outcome, wrapped) => liftPm outcome { world with wrapped }

def writeSidecar (params : Params) (sealedBlob : Bytes) : Call σ Unit := do
  liftPm (ensure (sealedBlob ≠ [] ∧ sealedBlob.length < 2 ^ 32) .invalidParam)
  liftPm (validateParams params)
  liftPm (ensure (env.pathFits = true) .io)
  liftPm (ensure (env.memory = true) .nomem)
  writeFileAtomic env (sidecar params sealedBlob)

def readSidecar : Call σ (Params × Bytes) := do
  liftPm (ensure (env.pathFits = true) .io)
  let world ← Proc.get
  let blob ← liftPm (readFileAll env .notFound world.wrapped.vault)
  liftPm (parseSidecar env.copied blob)

def sealToTpm (params : Params) (wrappingKey : Buf keySize) : Call σ Unit := do
  liftPm (validateParams params)
  openTpm env
  let sealedBlob ← onTpm mapBioError (Tpm.sealForUserPcr device env.sealNonce wrappingKey.bytes []
    params.pcrIndex sealedBlobMax)
  writeSidecar env params sealedBlob

/-- Unless it succeeds, the parameters it gives out are the default ones. -/
def unsealFromTpm : Call σ Params := do
  setKey noKey
  let (params, sealedBlob) ← readSidecar env
  openTpm env
  unsealKey device env mapBioError .format sealedBlob params.pcrIndex
  pure params

def unsealVaultKey : Call σ Unit := do
  let _ ← unsealFromTpm device env
  pure ()

def generateAndSealWrappingKey (pcrIndex : UInt32) : Call σ Bytes :=
  match env.random with
  | none => Proc.fail (.pm .crypto)
  | some wrappingKey =>
    onTpm (fun _ => .tpm) (Tpm.sealForUserPcr device env.sealNonce wrappingKey.bytes [] pcrIndex sealedBlobMax)

def unsealWrappingKey (sealedBlob : Bytes) (pcrIndex : UInt32) : Call σ Unit :=
  if sealedBlob = [] then Proc.fail (.pm .invalidParam) else unsealKey device env (fun _ => .tpm) .state sealedBlob pcrIndex

/-- The old contents are gone once the file is open. -/
def writePlain (sealedBlob : Bytes) : Call σ Unit :=
  if env.plainOpens = false then Proc.fail (.pm .io)
  else do
    Proc.modify fun world => { world with plain := some (sealedBlob.take env.landed) }
    liftPm (ensure (env.reported = sealedBlob.length) .io)

/-- The key is taken back from the TPM before anything is written. -/
def vaultTpmSealWrappingKey (pcrIndex : UInt32) : Call σ Unit := do
  liftPm (ensure (env.pathFits = true) .nomem)
  openTpm env
  let sealedBlob ← generateAndSealWrappingKey device env pcrIndex
  (unsealWrappingKey device env sealedBlob pcrIndex).undoing (setKey noKey)
  (writePlain env sealedBlob).undoing (setKey noKey)

def vaultTpmUnsealWrappingKey (pcrIndex : UInt32) : Call σ Unit := do
  liftPm (ensure (env.pathFits = true) .nomem)
  let world ← Proc.get
  let sealedBlob ← liftPm (readFileAll env .io world.plain)
  openTpm env
  unsealWrappingKey device env sealedBlob pcrIndex

end

inductive Request (σ : Type)
  | sealToTpm (params : Params) (wrappingKey : Buf keySize)
  | unsealVaultKey
  | vaultSeal (pcrIndex : UInt32)
  | vaultUnseal (pcrIndex : UInt32)
  /-- Somebody else uses the TPM. -/
  | others (change : σ → σ)

structure Input (σ : Type) where
  request : Request σ
  env : Env
  key : Bytes

section
variable {σ : Type} (device : Tpm.Device σ)

def answer (env : Env) : Request σ → Call σ Unit
  | .sealToTpm params wrappingKey => sealToTpm device env params wrappingKey
  | .unsealVaultKey => unsealVaultKey device env
  | .vaultSeal pcrIndex => vaultTpmSealWrappingKey device env pcrIndex
  | .vaultUnseal pcrIndex => vaultTpmUnsealWrappingKey device env pcrIndex
  | .others change => Proc.modify fun world => { world with ctx := { world.ctx with tpm := change world.ctx.tpm } }

def keeper : Machine (World σ) (Input σ) (Except Failure Unit) where
  step input world := answer device input.env input.request { world with key := input.key }
  halts _ := false

end

end Hiya.Pm.Wrapping
