import Hiya.Pm.VaultStore

/-! The life of a handle: `pm_vault_create` besides the calls that open, unlock, lock and
save, with what can go wrong on the way. Memory can run out in every call, and the file
takes the place of the old one through a temporary file beside it. -/

namespace Hiya.Pm.Lifecycle
open Library Format Store

structure Files where
  vault : Option Bytes
  /-- The file under the same path with `.tmp` behind it. -/
  tmp : Option Bytes
  deriving DecidableEq

/-- How one `write` ends. -/
inductive WriteAnswer
  | wrote (count : Nat)
  | interrupted
  | failed

/-- What the calls on the temporary file answer. -/
structure Disk where
  tmpPathFits : Bool
  opens : Bool
  writes : List WriteAnswer
  syncs : Bool
  renames : Bool

/-- The write loop. After the last of the answers everything left goes through at once. -/
def writeRest : List WriteAnswer → Bytes → Bytes → Option Bytes
  | _, written, [] => some written
  | [], written, rest => some (written ++ rest)
  | .failed :: _, _, _ :: _ => none
  | .interrupted :: answers, written, rest => writeRest answers written rest
  | .wrote count :: answers, written, rest => writeRest answers (written ++ rest.take count) (rest.drop count)

/-- The temporary file is taken away again. -/
def dropTmp : Proc Files PmError Unit := do
  Proc.modify fun files => { files with tmp := none }
  Proc.fail .io

def writeFileAtomic (disk : Disk) (data : Bytes) : Proc Files PmError Unit :=
  if data = [] then Proc.fail .invalidParam
  else if disk.tmpPathFits = false then Proc.fail .io
  else if disk.opens = false then Proc.fail .io
  else do
    Proc.modify fun files => { files with tmp := some [] }
    match writeRest disk.writes [] data with
    | none => dropTmp
    | some written => do
      Proc.modify fun files => { files with tmp := some written }
      if disk.syncs = false then dropTmp
      else if disk.renames = false then dropTmp
      else Proc.modify fun files => { vault := files.tmp, tmp := none }

/-- Which parts of a change find memory: the first look of an add, the decoded payload, the
new one, its encoding, the decoded copy that checks it, and the copy for the handle. -/
structure Memory where
  lookup : Bool
  decode : Bool
  rebuild : Bool
  encode : Bool
  check : Bool
  copy : Bool

def Memory.plenty : Memory := ⟨true, true, true, true, true, true⟩

def within {α : Type} (enough : Bool) (outcome : Except PmError α) : Except PmError α :=
  if enough then outcome else .error .nomem

section
variable (memory : Memory)

def getPayloadModel (enough : Bool) : Vault Payload := do
  let handle ← Proc.get
  if handle.locked then Proc.fail .locked
  else if handle.payload = [] then Proc.fail .state
  else liftVault (within enough (payloadDecodeCbor handle.payload))

def setPayload (payload : Bytes) : Vault Unit := do
  let handle ← Proc.get
  if payload = [] then Proc.fail .invalidParam
  else if handle.locked then Proc.fail .locked
  else do
    let _ ← liftVault (within memory.check (payloadDecodeCbor payload))
    let copy ← liftVault (within memory.copy (.ok payload))
    Proc.modify fun handle => { handle with payload := copy }

def setPayloadModel (payload : Payload) : Vault Unit := do
  let handle ← Proc.get
  if handle.locked then Proc.fail .locked
  else do
    let encoded ← liftVault (within memory.encode (payloadEncodeCbor payload))
    setPayload memory encoded

def entryGet (entryId : CStr) : Vault Entry := do
  if !validEntryId entryId then Proc.fail .invalidParam
  else do
    let payload ← getPayloadModel memory.decode
    match payload.entries.find? (·.id = entryId) with
    | some entry => liftVault (within memory.rebuild (entryClone entry))
    | none => Proc.fail .notFound

def entryUpdate (entryId : CStr) (replacement : Entry) : Vault Unit := do
  if !validEntryId entryId || !validEntryId replacement.id then Proc.fail .invalidParam
  else do
    let payload ← getPayloadModel memory.decode
    let (updated, found) ← liftVault (within memory.rebuild
      (payload.entries.foldlM (updateStep entryId replacement) (updatedInit payload, false)))
    if !found then Proc.fail .notFound else setPayloadModel memory updated

def entryRemove (entryId : CStr) : Vault Unit := do
  if !validEntryId entryId then Proc.fail .invalidParam
  else do
    let payload ← getPayloadModel memory.decode
    let (updated, found) ← liftVault (within memory.rebuild
      (payload.entries.foldlM (removeStep entryId) (updatedInit payload, false)))
    if !found then Proc.fail .notFound else setPayloadModel memory updated

def entryAdd (entry : Entry) (failIfExists : Bool) : Vault Unit := do
  if !validEntryId entry.id then Proc.fail .invalidParam
  else do
    let payload ← getPayloadModel memory.lookup
    let found := payload.entries.any (·.id = entry.id)
    if found && failIfExists then Proc.fail .alreadyExists
    else if found then entryUpdate memory entry.id entry
    else do
      let payload ← liftVault (within memory.rebuild (payloadAppendEntry payload entry))
      setPayloadModel memory payload

def change : Edit → Vault Unit
  | .setPayload payload => setPayload memory payload
  | .entryAdd entry failIfExists => entryAdd memory entry failIfExists
  | .entryUpdate entryId replacement => entryUpdate memory entryId replacement
  | .entryRemove entryId => entryRemove memory entryId

end

structure CreateOpts where
  format : Params
  mode : CompositeMode
  password : Bytes
  wrappingKey : Option (Buf masterKeySize)
  keyfileHash : Option (Buf masterKeySize)
  yubikeyKey : Option (Buf masterKeySize)
  initialPayload : Bytes

def CreateOpts.factors (opts : CreateOpts) : Factors where
  password := opts.password
  wrappingKey := opts.wrappingKey
  keyfileHash := opts.keyfileHash

def CreateOpts.complete (opts : CreateOpts) : Bool :=
  !((opts.mode.usePassword && opts.password.isEmpty) || (opts.mode.useBiometric && opts.wrappingKey.isNone) ||
    (opts.mode.useKeyfile && opts.keyfileHash.isNone) || (opts.mode.useYubikey && opts.yubikeyKey.isNone))

def flagWhen (enabled : Bool) (flag : UInt32) : UInt32 := if enabled then flag else 0

def vaultFlagsFromMode (mode : CompositeMode) : UInt32 :=
  flagWhen mode.usePassword 1 ||| flagWhen mode.useBiometric 2 ||| flagWhen mode.useKeyfile 4 ||| flagWhen mode.useYubikey 8

def vaultCompositeEnumFromMode : CompositeMode → Except PmError UInt16
  | ⟨true, false, false, false⟩ => .ok 0
  | ⟨false, true, false, false⟩ => .ok 1
  | ⟨true, true, false, false⟩ => .ok 2
  | ⟨true, false, true, false⟩ => .ok 3
  | ⟨true, false, false, true⟩ => .ok 4
  | ⟨true, true, true, false⟩ => .ok 5
  | ⟨true, true, false, true⟩ => .ok 6
  | ⟨true, false, true, true⟩ => .ok 7
  | ⟨true, true, true, true⟩ => .ok 8
  | ⟨false, false, true, false⟩ => .ok 9
  | ⟨false, false, false, true⟩ => .ok 10
  | ⟨false, true, true, false⟩ => .ok 11
  | ⟨false, true, false, true⟩ => .ok 12
  | ⟨false, false, true, true⟩ => .ok 13
  | ⟨false, true, true, true⟩ => .ok 14
  | ⟨false, false, false, false⟩ => .error .unsupported

def vaultInitialFileSequence (requested : UInt64) : UInt64 := if requested = 0 then 1 else requested

/-- What a call finds. The file is written as the disk answers. -/
structure Env extends Store.Env where
  memory : Memory
  pathFits : Bool
  disk : Disk

section
variable (argon2id : Argon2id) (lib : Primitives) (env : Env)

/-- The payload is looked at before the caller's variable is touched. -/
def checkInitialPayload (opts : CreateOpts) : Except PmError Unit := do
  ensure (opts.initialPayload ≠ []) .invalidParam
  let _ ← within env.memory.check (payloadDecodeCbor opts.initialPayload)
  pure ()

/-- The handle of a new vault, and the bytes of its file. -/
def vaultCreate (opts : CreateOpts) : Except PmError (Handle × Bytes) := do
  ensure (env.handleMemory = true) .nomem
  ensure (env.pathFits = true) .io
  let compositeMode ← vaultCompositeEnumFromMode opts.mode
  ensure (env.format.cryptoReady = true) .crypto
  let salt ← orFail .crypto env.format.randomSalt
  let handle : Handle := {
    format := { opts.format with
      fileSequence := vaultInitialFileSequence opts.format.fileSequence
      flags := vaultFlagsFromMode opts.mode
      compositeMode }
    mode := opts.mode
    salt
    masterKey := none
    contents := { locked := true, payload := [] } }
  ensure (opts.complete = true) .invalidParam
  let masterKey ← deriveMasterKey argon2id opts.factors handle
  let blob ← vaultSerialize lib env.format {
    params := handle.format
    masterKey
    payload := opts.initialPayload
    salt := some salt
    iv := none }
  pure (handle, blob)

end

inductive Call
  | create (opts : CreateOpts)
  | openVault
  | unlock (factors : Factors)
  | lock
  | edit (change : Edit)
  | getPayloadModel
  | entryGet (entryId : CStr)
  | save
  /-- Somebody else puts another file in place, or takes it away. -/
  | elsewhere (file : Option Bytes)

structure Input where
  call : Call
  env : Env

/-- The files, and the caller's variable for the handle. -/
structure World where
  files : Files
  handle : Option Handle

section
variable (argon2id : Argon2id) (lib : Primitives) (env : Env)

/-- Write the file and only then give the handle out. -/
def install (blob : Bytes) (failed done : Option Handle) (world : World) : Outcome × World :=
  match writeFileAtomic env.disk blob world.files with
  | (.ok (), files) => (.ok (), { files, handle := done })
  | (.error problem, files) => (.error (.error problem), { files, handle := failed })

def createStep (opts : CreateOpts) (world : World) : Outcome × World :=
  match checkInitialPayload env opts with
  | .error problem => (.error (.error problem), world)
  | .ok () =>
    match vaultCreate argon2id lib env opts with
    | .error problem => (.error (.error problem), { world with handle := none })
    | .ok (handle, blob) => install env blob none (some handle) world

def openStep (world : World) : Outcome × World :=
  if env.pathFits = false then (.error (.error (if env.handleMemory then .io else .nomem)), { world with handle := none })
  else
    match vaultOpen env.toEnv world.files.vault with
    | .error stop => (.error stop, { world with handle := none })
    | .ok handle => (.ok (), { world with handle := some handle })

/-- A call on the handle; without one the library refuses. -/
def onHandle (world : World) (use : Handle → Outcome × World) : Outcome × World :=
  match world.handle with
  | none => (.error (.error .invalidParam), world)
  | some handle => use handle

def unlockStep (factors : Factors) (world : World) (handle : Handle) : Outcome × World :=
  match vaultUnlock argon2id lib env.toEnv factors world.files.vault handle with
  | .error stop => (.error stop, world)
  | .ok handle => (.ok (), { world with handle := some handle })

/-- A call on the payload; what it reads goes to the caller. -/
def payloadStep {α : Type} (body : Vault α) (world : World) (handle : Handle) : Outcome × World :=
  let (outcome, contents) := body handle.contents
  (ofPm (outcome.map fun _ => ()), { world with handle := some { handle with contents } })

def saveStep (world : World) (handle : Handle) : Outcome × World :=
  match vaultSave lib { env.toEnv with writable := true } handle with
  | .error problem => (.error (.error problem), world)
  | .ok (saved, blob) => install env blob (some handle) (some saved) world

def step (input : Input) (world : World) : Outcome × World :=
  match input.call with
  | .create opts => createStep argon2id lib input.env opts world
  | .openVault => openStep input.env world
  | .unlock factors => onHandle world (unlockStep argon2id lib input.env factors world)
  | .lock => onHandle world fun handle => (.ok (), { world with handle := some (vaultLock handle) })
  | .edit edit => onHandle world (payloadStep (change input.env.memory edit) world)
  | .getPayloadModel => onHandle world (payloadStep (getPayloadModel input.env.memory.decode) world)
  | .entryGet entryId => onHandle world (payloadStep (entryGet input.env.memory entryId) world)
  | .save => onHandle world (saveStep lib input.env world)
  | .elsewhere file => (.ok (), { world with files := { world.files with vault := file } })

/-- To read past the end of a file may do anything, so nothing is said of what follows. -/
def lifecycle : Machine World Input Outcome where
  step := step argon2id lib
  halts outcome := match outcome with
    | .error .fault => true
    | _ => false

end

end Hiya.Pm.Lifecycle
