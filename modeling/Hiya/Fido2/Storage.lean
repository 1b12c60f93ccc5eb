import Hiya.Fido2.Context

/-! The credential file of `bio_fido2_pin.c`. Version 2 is one sealed blob behind a
16-byte header that is authenticated with it; every other version is read as the
older plaintext format. -/

namespace Hiya.Fido2
open Library

inductive StoreError
  | io
  | cryptoEncrypt
  | cryptoDecrypt
  | cryptoMac
  deriving DecidableEq, Repr

def storeMagic : Bytes := ascii "BIOF"
def storeVersion : Nat := 2
def pinStateSize : Nat := 420

def boolByte (value : Bool) : UInt8 := if value then 1 else 0

/-- The memory of a `ctap2_pin_state_t`; padding bytes are never looked at. -/
def PinState.toBytes (pin : PinState) : Bytes :=
  [boolByte pin.pinSet] ++ pin.pinHash.bytes ++ List.replicate 3 0 ++ leBytes 4 pin.pinRetries.toUInt32.toNat ++
    [boolByte pin.pinBlocked] ++ pin.platformKeyAgreementX.bytes ++ pin.platformKeyAgreementY.bytes ++
    pin.sharedSecret.bytes ++ pin.pinToken.bytes ++ [boolByte pin.pinTokenValid] ++ List.replicate 2 0 ++
    leBytes 4 pin.pinTokenPermissions.toNat ++ pin.pinTokenRpId.padded ++ [boolByte pin.pinTokenRpIdSet] ++
    List.replicate 3 0

/-- The `size` bytes of a block of memory that begin at `start`. -/
def sliceAt (memory : Bytes) (start size : Nat) : Buf size :=
  .ofBytes (((memory.drop start).take size) ++ List.replicate (size - ((memory.drop start).take size).length) 0)
    (by simp only [List.length_append, List.length_replicate, List.length_take]; omega)

def boolAt (memory : Bytes) (start : Nat) : Bool := (sliceAt memory start 1).bytes ≠ [0]

def uint32At (memory : Bytes) (start : Nat) : UInt32 := UInt32.ofNat (leNat (sliceAt memory start 4).bytes)

def PinState.ofBytes (memory : Bytes) : PinState where
  pinSet := boolAt memory 0
  pinHash := sliceAt memory 1 16
  pinRetries := (uint32At memory 20).toInt32
  pinBlocked := boolAt memory 24
  platformKeyAgreementX := sliceAt memory 25 32
  platformKeyAgreementY := sliceAt memory 57 32
  sharedSecret := sliceAt memory 89 32
  pinToken := sliceAt memory 121 32
  pinTokenValid := boolAt memory 153
  pinTokenPermissions := uint32At memory 156
  pinTokenRpId := .ofSlice _ maxRpIdLen_pos (sliceAt memory 160 256).bytes
  pinTokenRpIdSet := boolAt memory 416

/-- Clear what must not outlive the session. -/
def PinState.wipeSession (pin : PinState) : PinState :=
  { pin with
    platformKeyAgreementX := .zero 32
    platformKeyAgreementY := .zero 32
    sharedSecret := .zero 32
    pinToken := .zero 32
    pinTokenValid := false
    pinTokenPermissions := 0
    pinTokenRpId := .empty _ maxRpIdLen_pos
    pinTokenRpIdSet := false }

/-- A stored credential. The hmac-secret fields are not written. -/
def credentialBytes (cred : Credential) : Bytes :=
  [1] ++ cred.rp.id.padded ++ cred.rp.name.padded ++ cred.rp.idHash.bytes ++ cred.user.id.padded ++
    leBytes 2 cred.user.id.bytes.length ++ cred.user.name.padded ++ cred.user.displayName.padded ++
    cred.credId.padded ++ leBytes 2 cred.credId.bytes.length ++ cred.privateKey.bytes ++ cred.publicKey.bytes ++
    leBytes 4 cred.signCount.toNat ++ leBytes 8 cred.created.toNat ++ [boolByte cred.resident] ++
    [cred.credProtect + 0x10]

abbrev CredSlot := Fin maxCredentialsStored

def credSlots : List CredSlot := List.finRange maxCredentialsStored

/-- The credentials in use, in the order of their slots. -/
def Ctx.inUse (ctx : Ctx) : List Credential := (credSlots.map ctx.credentials).filter Credential.inUse

def Ctx.freeSlot (ctx : Ctx) : Option CredSlot := credSlots.find? fun slot => !(ctx.credentials slot).inUse

def Ctx.putCredential (slot : CredSlot) (cred : Credential) (ctx : Ctx) : Ctx :=
  { ctx with credentials := Function.update ctx.credentials slot cred }

def storePlaintext (ctx : Ctx) : Bytes := ctx.pin.wipeSession.toBytes ++ ctx.inUse.flatMap credentialBytes

/-- Magic, version, credential count and global counter. -/
def storeHeader (version count signCount : Nat) : Bytes :=
  storeMagic ++ leBytes 4 version ++ leBytes 4 count ++ leBytes 4 signCount

section
variable (crypto : Crypto) (env : Env)

/-- The file is written aside and renamed, so a failed save leaves the old one. -/
def saveCredentials : Proc Ctx StoreError Unit := do
  let ctx ← Proc.get
  match env.saveNonce, ctx.wrapKey with
  | none, _ => Proc.fail .io
  | some _, none => Proc.fail .cryptoEncrypt
  | some nonce, some key =>
    let header := storeHeader storeVersion ctx.credentialCount ctx.globalSignCount.toNat
    match crypto.gcmSeal key nonce header (.ofBytes (storePlaintext ctx) rfl) with
    | none => Proc.fail .cryptoEncrypt
    | some (text, tag) =>
      Proc.modify fun ctx => { ctx with disk := some (header ++ nonce.bytes ++ text.bytes ++ tag.bytes) }

end

/-- Reading bytes from the front; running out of them ends the loop around. -/
abbrev Take := Proc Bytes Unit

def takeBytes (size : Nat) : Take (Buf size) := do
  let rest ← Proc.get
  if enough : size ≤ rest.length then do
    Proc.modify (List.drop size)
    pure (.ofBytes (rest.take size) (List.length_take_of_le enough))
  else Proc.fail ()

def takeNat (size : Nat) : Take Nat := do pure (leNat (← takeBytes size).bytes)

/-- Level of a version-2 record: biased by 0x10, with the flag of an older writer
below that. -/
def protectV2 (byte : Nat) : UInt8 := if byte ≥ 0x10 then UInt8.ofNat (byte - 0x10) else if byte = 0 then 1 else 3

def protectV1 (byte : Nat) : UInt8 := if byte ≠ 0 then 3 else 1

/-- The fields of one record, read into a slot that becomes used with the last one. -/
def readCredential (protect : Nat → UInt8) (slot : Credential) : Take Credential := do
  let rpId ← takeBytes 256
  let rpName ← takeBytes 256
  let idHash ← takeBytes 32
  let userId ← takeBytes 64
  let userIdLen ← takeNat 2
  let userName ← takeBytes 64
  let displayName ← takeBytes 64
  let credId ← takeBytes 128
  let credIdLen ← takeNat 2
  let privateKey ← takeBytes 32
  let publicKey ← takeBytes 65
  let signCount ← takeNat 4
  let created ← takeNat 8
  let resident ← takeNat 1
  let level ← takeNat 1
  pure { slot with
    inUse := true
    rp := { id := .ofSlice _ maxRpIdLen_pos rpId.bytes, name := .ofSlice _ maxRpIdLen_pos rpName.bytes, idHash }
    user := {
      id := .ofSlice _ (userId.bytes.take userIdLen)
      name := .ofSlice _ maxUserNameLen_pos userName.bytes
      displayName := .ofSlice _ maxUserNameLen_pos displayName.bytes }
    credId := .ofSlice _ (credId.bytes.take credIdLen)
    privateKey
    publicKey
    signCount := UInt32.ofNat signCount
    created := UInt64.ofNat created
    resident := resident ≠ 0
    credProtect := protect level }

/-- The records still to be read, and the context they are read into. -/
structure Loader where
  rest : Bytes
  ctx : Ctx

def onRest {α : Type} (body : Take α) : Proc Loader Unit α :=
  Proc.zoom Loader.rest (fun rest loader => { loader with rest }) body

def loadEntry (protect : Nat → UInt8) : Proc Loader Unit Unit := do
  let flag ← onRest (takeNat 1)
  if flag ≠ 1 then pure ()
  else do
    let ctx := (← Proc.get).ctx
    match ctx.freeSlot with
    | none => Proc.fail ()
    | some slot => do
      let cred ← onRest (readCredential protect (ctx.credentials slot))
      Proc.modify fun loader => { loader with
        ctx := { loader.ctx.putCredential slot cred with credentialCount := loader.ctx.credentialCount + 1 } }

def loadEntries (protect : Nat → UInt8) (count : Nat) (bytes : Bytes) (ctx : Ctx) : Ctx :=
  (Proc.repeatWith (min count maxCredentialsStored) (fun _ => loadEntry protect) ()
    { rest := bytes, ctx := { ctx with credentialCount := 0 } }).2.ctx

section
variable (crypto : Crypto) (env : Env)

/-- What follows the header of a version-2 file. -/
def loadEncrypted (key : Buf 32) (header : Bytes) (count : Nat) (body : Bytes) :
    Proc Ctx StoreError Unit :=
  let blob := body.drop 12
  if body.length < 12 then Proc.fail .io
  else if blob.length < 16 then Proc.fail .io
  else
    let size := blob.length - 16
    match crypto.gcmOpen key (sliceAt body 0 12) header (sliceAt blob 0 size) (sliceAt blob size 16) with
    | none => Proc.fail .cryptoMac
    | some plain =>
      if plain.bytes.length < pinStateSize then Proc.fail .io
      else Proc.modify fun ctx => loadEntries protectV2 count (plain.bytes.drop pinStateSize)
        { ctx with pin := (PinState.ofBytes (plain.bytes.take pinStateSize)).wipeSession }

/-- The plaintext format. The PIN state is read straight into the context, so a
short file has already overwritten the front of it when the error is noticed. -/
def loadLegacy (count : Nat) (body : Bytes) : Proc Ctx StoreError Unit := do
  Proc.modify fun ctx => { ctx with
    pin := PinState.ofBytes (body.take pinStateSize ++ ctx.pin.toBytes.drop body.length) }
  if body.length < pinStateSize then Proc.fail .io
  else do
    Proc.modify fun ctx =>
      loadEntries protectV1 count (body.drop pinStateSize) { ctx with pin := ctx.pin.wipeSession }
    let ctx ← Proc.get
    if ctx.wrapKey.isSome ∧ ctx.credentialCount > 0 then (saveCredentials crypto env).ignore else pure ()

def loadFile (file : Bytes) : Proc Ctx StoreError Unit :=
  if file.take 4 ≠ storeMagic then Proc.fail .io
  else if file.length < 16 then Proc.fail .io
  else do
    let version := leNat (sliceAt file 4 4).bytes
    let count := leNat (sliceAt file 8 4).bytes
    let signCount := uint32At file 12
    let body := file.drop 16
    Proc.modify fun ctx => { ctx with globalSignCount := signCount }
    let ctx ← Proc.get
    if version = storeVersion then
      match ctx.wrapKey with
      | some key => loadEncrypted crypto key (storeHeader version count signCount.toNat) count body
      | none => Proc.fail .cryptoDecrypt
    else loadLegacy crypto env count body

def loadCredentials : Proc Ctx StoreError Unit := do
  let ctx ← Proc.get
  match ctx.disk with
  | none => pure ()
  | some file => loadFile crypto env file

end

end Hiya.Fido2
