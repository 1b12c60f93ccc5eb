import Hiya.Daemon.RateLimiter
import Hiya.Daemon.ReadMethods

/-! The vaults of all users. `bio_daemon.c` keeps a table of slots, finds the slot of the caller in
front of every method, unlocks a vault after its user was recognized, and locks vaults by a timer
and when the session is locked or the system goes to sleep. -/

namespace Hiya.Daemon.Vaults
open Library Pm Pm.Store
open Fido2 (ascii)
open Pm.Format (Primitives Stop masterKeySize)

def maxVaults : Nat := 64
def pathMax : Nat := 4096

/-- The state directory, as long as its field is. -/
structure StatePath where
  bytes : Bytes
  fits : bytes.length < 256

def StatePath.vaultPath (stateDir : StatePath) (uid : Uid) : Bytes :=
  stateDir.bytes ++ ascii "/users/" ++ Audit.unsigned uid.toNat ++ ascii "/vault.vlt"

def buildUserVaultPath (stateDir : StatePath) (uid : Uid) : Except PmError Bytes :=
  if pathMax ≤ (stateDir.vaultPath uid).length then .error .io else .ok (stateDir.vaultPath uid)

/-- `bio_user_vault_t`. A slot that is not active is none. -/
structure UserVault where
  uid : Uid
  path : Bytes
  handle : Option Handle
  unlockedAt : UInt64

def UserVault.isUnlocked (vault : UserVault) : Bool := vault.handle.any (!·.contents.locked)

/-- The slots, and the files by their paths. -/
structure VaultTable where
  stateDir : StatePath
  vaults : Fin maxVaults → Option UserVault
  files : Bytes → Option Bytes

namespace VaultTable
variable (table : VaultTable) (uid : Uid)

def slotOf : Option (Fin maxVaults) := (List.finRange maxVaults).find? fun slot => (table.vaults slot).any (·.uid = uid)

def freeSlot : Option (Fin maxVaults) := (List.finRange maxVaults).find? fun slot => (table.vaults slot).isNone

def setVault (slot : Fin maxVaults) (vault : Option UserVault) : VaultTable :=
    { table with vaults := Function.update table.vaults slot vault }

/-- The slot of the user, or else the first free one, which is taken for the user. -/
def findOrAllocUserVaultSlot (path : Bytes) : Option (Fin maxVaults × VaultTable) :=
  match table.slotOf uid with
  | some slot => some (slot, table)
  | none => table.freeSlot.map fun slot => (slot, table.setVault slot (some { uid, path, handle := none, unlockedAt := 0 }))

def closeUserVaultSlot (slot : Fin maxVaults) : VaultTable := table.setVault slot none

def ensureUserVaultHandle (store : Store.Env) : Except Stop (Fin maxVaults) × VaultTable :=
  match buildUserVaultPath table.stateDir uid with
  | .error problem => (.error (.error problem), table)
  | .ok path =>
    match table.findOrAllocUserVaultSlot uid path with
    | none => (.error (.error .state), table)
    | some (slot, taken) =>
      match taken.vaults slot with
      | none => (.error (.error .state), taken)
      | some vault =>
        match vault.handle with
        | some _ => (.ok slot, taken)
        | none =>
          match vaultOpen store (taken.files path) with
          | .error stop => (.error stop, taken.closeUserVaultSlot slot)
          | .ok handle => (.ok slot, taken.setVault slot (some { vault with path, handle := some handle }))

/-- The slot of the user as a method finds it. -/
def view : VaultSlot where
  file := table.files (table.stateDir.vaultPath uid)
  handle := ((table.slotOf uid).bind table.vaults).bind (·.handle)
  unlockedAt := (((table.slotOf uid).bind table.vaults).map (·.unlockedAt)).getD 0

/-- There is a slot for the user, or one can be taken. -/
def hasRoom : Bool := (table.slotOf uid).isSome || table.freeSlot.isSome

/-- What a method leaves in the slot and in the file. A slot without a handle is given back. -/
def put (after : VaultSlot) : VaultTable :=
  let path := table.stateDir.vaultPath uid
  let written := { table with files := Function.update table.files path after.file }
  match after.handle with
  | none => ((table.slotOf uid).map written.closeUserVaultSlot).getD written
  | some handle =>
    match written.findOrAllocUserVaultSlot uid path with
    | none => written
    | some (slot, taken) => taken.setVault slot (some { uid, path, handle := some handle, unlockedAt := after.unlockedAt })

/-- A method of the user, with the slot that is found for it. -/
def onUser {ο : Type} (method : Env → VaultSlot → ο × VaultSlot) (env : Env) : ο × VaultTable :=
  let (outcome, after) := method { env with slotFree := table.hasRoom uid } (table.view uid)
  (outcome, table.put uid after)

/-- One of the loops that lock: the users whose vaults it locks, and the vaults after it. -/
def lockEach (due : UserVault → Bool) : List Uid × VaultTable :=
  ((List.finRange maxVaults).filterMap fun slot => ((table.vaults slot).filter fun vault => vault.isUnlocked && due vault).map (·.uid),
    { table with vaults := fun slot => (table.vaults slot).map fun vault =>
        if vault.isUnlocked && due vault then { vault with handle := vault.handle.map vaultLock } else vault })

def lockUnlockedVaultsForReason : List Uid × VaultTable := table.lockEach fun _ => true

end VaultTable

/-- How long ago the vault was used, compared with the configured time. -/
def idleFor (timeout : Int) (now unlockedAt : UInt64) : Bool := timeout ≤ (now.toNat : Int) - unlockedAt.toNat

def VaultTable.checkVaultIdleTimeout (table : VaultTable) (shuttingDown : Bool) (timeout : Int) (now : UInt64) :
    List Uid × VaultTable :=
  if shuttingDown then ([], table)
  else if timeout ≤ 0 then ([], table)
  else table.lockEach fun vault => idleFor timeout now vault.unlockedAt

/-- The signals of logind. A PrepareForSleep has a flag, or nothing in it. -/
inductive SessionSignal
  | lock
  | unlock
  | prepareForSleep (start : Option Bool)
  | other
  deriving DecidableEq

def SessionSignal.locks : SessionSignal → Bool
  | .lock => true
  | .unlock => false
  | .prepareForSleep start => start.getD false
  | .other => false

def VaultTable.handleSessionLockSignal (table : VaultTable) (shuttingDown : Bool) (signal : SessionSignal) :
    List Uid × VaultTable :=
  if shuttingDown then ([], table) else if signal.locks then table.lockUnlockedVaultsForReason else ([], table)

/-- `LockVault`. There is nothing to lock where no vault can be opened. -/
def lockVault (env : Env) (slot : VaultSlot) : Option Bool × VaultSlot :=
  match ensureUserVaultHandle env slot with
  | .error .fault => (none, slot)
  | .error (.error _) => (some true, slot)
  | .ok handle => (some true, { slot with handle := some (if handle.contents.locked then handle else vaultLock handle) })

/-- The property `Locked`. -/
def lockedProperty (env : Env) (slot : VaultSlot) : Option Bool × VaultSlot :=
  match ensureUserVaultHandle env slot with
  | .error .fault => (none, slot)
  | .error (.error _) => (some true, slot)
  | .ok handle => (some handle.contents.locked, { slot with handle := some handle })

/-- What `auto_unlock_user_vault` finds around it, and what the TPM gives out for the vault. -/
structure Recognized where
  tpmAvailable : Bool
  memoryLocks : Bool
  shuttingDown : Bool
  wrappingKey : Except PmError (Buf masterKeySize)

inductive UnlockStop
  | keyUnavailable
  | tpm
  | stop (stop : Stop)

def Recognized.key (around : Recognized) (mode : Format.CompositeMode) : Except UnlockStop (Buf masterKeySize) :=
  if mode.usePassword && !mode.useBiometric && !mode.useKeyfile && !mode.useYubikey then .error .keyUnavailable
  else if mode.usePassword && mode.useBiometric then .error .keyUnavailable
  else if !mode.useBiometric then .error .keyUnavailable
  else if !around.tpmAvailable then .error .tpm
  else if !around.memoryLocks then .error (.stop (.error .denied))
  else if around.shuttingDown then .error (.stop (.error .io))
  else match around.wrappingKey with
    | .error problem => .error (.stop (.error problem))
    | .ok key =>
      if mode.useKeyfile then .error (.stop (.error .unsupported))
      else if mode.useYubikey then .error (.stop (.error .unsupported))
      else .ok key

section
variable (otpImportFromQr : OtpImport) (lib : Primitives) (argon2id : Argon2id)

def autoUnlockUserVault (around : Recognized) (env : Env) (slot : VaultSlot) : Except UnlockStop Unit × VaultSlot :=
  match ensureUserVaultHandle env slot with
  | .error stop => (.error (.stop stop), slot)
  | .ok handle =>
    let slot := { slot with handle := some handle }
    if handle.contents.locked = false then (.ok (), slot)
    else match around.key handle.mode with
      | .error problem => (.error problem, slot)
      | .ok key =>
        match vaultUnlock argon2id lib env.store { password := [], wrappingKey := some key, keyfileHash := none }
          slot.file handle with
        | .error stop => (.error (.stop stop), slot)
        | .ok handle => (.ok (), { slot with handle := some handle, unlockedAt := env.now })

inductive UserCall
  | change (call : Call)
  | read (call : ReadCall)
  | lockVault
  | locked
  /-- The user was recognized. -/
  | recognized (around : Recognized)

inductive VaultOutcome
  | changed (reply : Except Refusal Reply)
  | read (reply : Except Refusal Bytes)
  | flag (reply : Option Bool)
  | unlocked (result : Except UnlockStop Unit)
  | swept (locked : List Uid)

/-- The memory was misused, and nothing is known any more. -/
def VaultOutcome.faults : VaultOutcome → Bool
  | .changed (.error .fault) => true
  | .read (.error .fault) => true
  | .flag none => true
  | .unlocked (.error (.stop .fault)) => true
  | _ => false

def UserCall.run (call : UserCall) (env : Env) (slot : VaultSlot) : VaultOutcome × VaultSlot :=
  match call with
  | .change call => Prod.map .changed id (call.run otpImportFromQr lib env slot)
  | .read call => Prod.map .read id (answerRead env call slot)
  | .lockVault => Prod.map .flag id (Vaults.lockVault env slot)
  | .locked => Prod.map .flag id (lockedProperty env slot)
  | .recognized around => Prod.map .unlocked id (autoUnlockUserVault lib argon2id around env slot)

inductive VaultRequest
  | user (uid : Uid) (env : Env) (call : UserCall)
  | idleTimeout (shuttingDown : Bool) (timeout : Int) (now : UInt64)
  | session (shuttingDown : Bool) (signal : SessionSignal)

def VaultTable.step (request : VaultRequest) (table : VaultTable) : VaultOutcome × VaultTable :=
  match request with
  | .user uid env call => table.onUser uid (call.run otpImportFromQr lib argon2id) env
  | .idleTimeout shuttingDown timeout now => Prod.map .swept id (table.checkVaultIdleTimeout shuttingDown timeout now)
  | .session shuttingDown signal => Prod.map .swept id (table.handleSessionLockSignal shuttingDown signal)

/-- The vaults of the daemon, fed with what its users and the system ask for. -/
def vaults : Machine VaultTable VaultRequest VaultOutcome where
  step := VaultTable.step otpImportFromQr lib argon2id
  halts := VaultOutcome.faults

end

end Hiya.Daemon.Vaults
