import Hiya.Pm.EntryStore
import Hiya.Pm.VaultFormat

/-! Handles on a vault file, `pm_vault_store.c`. A handle keeps what it has read of the
file: the parameters from the time it was opened, the payload from the time it was
unlocked. A save writes the whole file anew. Several handles may share one file. -/

namespace Hiya.Pm.Store
open Library Format

structure Handle where
  format : Params
  mode : CompositeMode
  salt : Buf saltSize
  masterKey : Option (Buf masterKeySize)
  contents : VaultHandle

/-- What a call finds: memory and randomness as for the format, memory for a handle and
for a key, and whether files can be read and written. -/
structure Env where
  format : Format.Env
  handleMemory : Bool
  keyMemory : Except PmError Unit
  readable : Bool
  writable : Bool

structure Factors where
  password : Bytes
  wrappingKey : Option (Buf masterKeySize)
  keyfileHash : Option (Buf masterKeySize)

def xor32 (first second : Buf masterKeySize) : Buf masterKeySize :=
  .ofBytes (List.zipWith (· ^^^ ·) first.bytes second.bytes)
    (by rw [List.length_zipWith, first.length_bytes, second.length_bytes, Nat.min_self])

/-- One enabled factor: its key is mixed in. -/
def mixIn (enabled : Bool) (key : Option (Buf masterKeySize)) (mixed : Buf masterKeySize) :
    Except PmError (Buf masterKeySize) :=
  if enabled then do pure (xor32 mixed (← orFail .invalidParam key)) else .ok mixed

def masterKeyDerive (mode : CompositeMode) (password biometric keyfile yubikey : Option (Buf masterKeySize)) :
    Except PmError (Buf masterKeySize) := do
  let mixed ← mixIn mode.usePassword password (.zero masterKeySize)
  let mixed ← mixIn mode.useBiometric biometric mixed
  let mixed ← mixIn mode.useKeyfile keyfile mixed
  let mixed ← mixIn mode.useYubikey yubikey mixed
  ensure (mode.usePassword || mode.useBiometric || mode.useKeyfile || mode.useYubikey) .policy
  pure mixed

abbrev Argon2id := Argon2.Request → Except PmError (Buf masterKeySize)

def passwordKey (argon2id : Argon2id) (factors : Factors) (handle : Handle) : Except PmError (Option (Buf masterKeySize)) :=
  if handle.mode.usePassword then do
    ensure (factors.password ≠ []) .denied
    pure (some (← argon2id { password := factors.password, salt := handle.salt, params := handle.format.argon2 }))
  else .ok none

/-- A factor that has to be there if it is enabled. -/
def factorKey (enabled : Bool) (key : Option (Buf masterKeySize)) : Except PmError (Option (Buf masterKeySize)) :=
  if enabled then do pure (some (← orFail .denied key)) else .ok none

def deriveMasterKey (argon2id : Argon2id) (factors : Factors) (handle : Handle) : Except PmError (Buf masterKeySize) := do
  let password ← passwordKey argon2id factors handle
  let biometric ← factorKey handle.mode.useBiometric factors.wrappingKey
  let keyfile ← factorKey handle.mode.useKeyfile factors.keyfileHash
  ensure (handle.mode.useYubikey = false) .unsupported
  masterKeyDerive handle.mode password biometric keyfile none

section
variable (argon2id : Argon2id) (lib : Primitives) (env : Env)

def readFileAll (file : Option Bytes) : Except PmError Bytes := do
  let bytes ← orFail .io file
  ensure (bytes ≠ []) .format
  ensure (env.format.malloc bytes.length = true) .nomem
  ensure (env.readable = true) .io
  pure bytes

def vaultOpen (file : Option Bytes) : Except Stop Handle := do
  ensure (env.handleMemory = true) (.error .nomem)
  let blob ← ofPm (readFileAll env file)
  let metadata ← vaultParseMetadata blob
  pure {
    format := metadata.params
    mode := metadata.mode
    salt := metadata.salt
    masterKey := none
    contents := { locked := true, payload := [] } }

/-- An unlocked handle stays as it is. A locked one takes the payload from the file, but
not the parameters. -/
def vaultUnlock (factors : Factors) (file : Option Bytes) (handle : Handle) : Except Stop Handle :=
  if handle.contents.locked = false then .ok handle
  else do
    let derived ← ofPm (deriveMasterKey argon2id factors handle)
    let blob ← ofPm (readFileAll env file)
    let result ← vaultDeserialize lib env.format blob derived
    ofPm env.keyMemory
    pure { handle with masterKey := some derived, contents := { locked := false, payload := result.payload } }

def vaultLock (handle : Handle) : Handle := { handle with masterKey := none, contents := { locked := true, payload := [] } }

def saveFormat (handle : Handle) : Params := { handle.format with fileSequence := handle.format.fileSequence + 1 }

def saveRequest (handle : Handle) (masterKey : Buf masterKeySize) : WriteRequest where
  params := saveFormat handle
  masterKey
  payload := handle.contents.payload
  salt := some handle.salt
  iv := none

/-- The file is written beside the old one and takes its place, or nothing happens. -/
def vaultSave (handle : Handle) : Except PmError (Handle × Bytes) := do
  ensure (handle.contents.locked = false) .locked
  let masterKey ← orFail .locked handle.masterKey
  ensure (handle.contents.payload ≠ []) .state
  ensure (handle.format.fileSequence ≠ 0xFFFFFFFFFFFFFFFF) .state
  let blob ← vaultSerialize lib env.format (saveRequest handle masterKey)
  ensure (env.writable = true) .io
  pure ({ handle with format := saveFormat handle }, blob)

end

inductive Edit
  | setPayload (payload : Bytes)
  | entryAdd (entry : Entry) (failIfExists : Bool)
  | entryUpdate (entryId : CStr) (replacement : Entry)
  | entryRemove (entryId : CStr)

def Edit.apply : Edit → Vault Unit
  | setPayload payload => vaultSetPayload payload
  | entryAdd entry failIfExists => vaultEntryAdd entry failIfExists
  | entryUpdate entryId replacement => vaultEntryUpdate entryId replacement
  | entryRemove entryId => vaultEntryRemove entryId

inductive Call
  | openVault
  | unlock (factors : Factors)
  | lock
  | edit (change : Edit)
  | save
  | close

structure Input (ι : Type) where
  who : ι
  call : Call
  env : Env

/-- The file, and for everyone the handle, if there is one. -/
structure World (ι : Type) where
  file : Option Bytes
  handles : ι → Option Handle

namespace World
variable {ι : Type} [DecidableEq ι]

def closed (file : Option Bytes) : World ι where
  file
  handles _ := none

def put (world : World ι) (who : ι) (handle : Option Handle) : World ι :=
    { world with handles := Function.update world.handles who handle }

end World

abbrev Outcome := Except Stop Unit

section
variable {ι : Type} [DecidableEq ι] (argon2id : Argon2id) (lib : Primitives)

/-- A call on a handle; without one the library refuses. -/
def onHandle (who : ι) (world : World ι) (use : Handle → Outcome × World ι) : Outcome × World ι :=
  match world.handles who with
  | none => (.error (.error .invalidParam), world)
  | some handle => use handle

def openStep (env : Env) (who : ι) (world : World ι) : Outcome × World ι :=
  match vaultOpen env world.file with
  | .error stop => (.error stop, world.put who none)
  | .ok handle => (.ok (), world.put who (some handle))

def unlockStep (env : Env) (factors : Factors) (who : ι) (world : World ι) (handle : Handle) : Outcome × World ι :=
  match vaultUnlock argon2id lib env factors world.file handle with
  | .error stop => (.error stop, world)
  | .ok handle => (.ok (), world.put who (some handle))

def editStep (change : Edit) (who : ι) (world : World ι) (handle : Handle) : Outcome × World ι :=
  let (outcome, contents) := change.apply handle.contents
  (ofPm outcome, world.put who (some { handle with contents }))

def saveStep (env : Env) (who : ι) (world : World ι) (handle : Handle) : Outcome × World ι :=
  match vaultSave lib env handle with
  | .error problem => (.error (.error problem), world)
  | .ok (handle, blob) => (.ok (), { world.put who (some handle) with file := some blob })

def step (input : Input ι) (world : World ι) : Outcome × World ι :=
  match input.call with
  | .openVault => openStep input.env input.who world
  | .unlock factors => onHandle input.who world (unlockStep argon2id lib input.env factors input.who world)
  | .lock => onHandle input.who world fun handle => (.ok (), world.put input.who (some (vaultLock handle)))
  | .edit change => onHandle input.who world (editStep change input.who world)
  | .save => onHandle input.who world (saveStep lib input.env input.who world)
  | .close => (.ok (), world.put input.who none)

/-- To read past the end of a file may do anything, so nothing is said of what follows. -/
def store : Machine (World ι) (Input ι) Outcome where
  step := step argon2id lib
  halts outcome := match outcome with
    | .error .fault => true
    | _ => false

end

end Hiya.Pm.Store
