import Hiya.Library.Locking
import Hiya.Library.Runs

/-! The two mutexes of `bio_daemon.c`. `data_lock` guards the tables that fprintd tasks
share with the main thread, `fp_lock` the sensor and the TPM; neither is recursive. D-Bus
calls and timers run on the main thread, and an operation of the sensor runs the main
loop there until it ends, which begins further calls on top of the one that waits. -/

namespace Hiya.Daemon.Locks
open Library Routine

/-- `data_lock` and `fp_lock`. -/
inductive Lock where
  | data
  | fp
  deriving DecidableEq

/-- What the start of the daemon settles: a sensor is open, it keeps templates of its own,
and a TPM answers. -/
structure Setup where
  fpDev : Bool
  hasStorage : Bool
  tpmAvailable : Bool

abbrev Act (α : Type) : Type := Routine Lock α

inductive Enrolled where
  | ok
  | alreadyEnrolled
  | failed
  deriving DecidableEq

/-- The loop is one on the default context, so on the main thread it begins whatever
comes in. Then the print is there, or the sensor knew it already, or it all failed. -/
def bioFpEnroll : Act Enrolled := do
  runLoop
  if ← decides then return .ok
  if ← decides then return .alreadyEnrolled
  return .failed

def bioFpDeleteAllPrints (setup : Setup) : Act Bool := do
  if !setup.hasStorage then return false
  runLoop
  decides

/-- The sensor's part of Enroll: a template that the chip has kept is cleared, and the
enrolment tried once more. -/
def enrollRetrying (setup : Setup) : Act Bool := do
  match ← bioFpEnroll with
  | .ok => return true
  | .failed => return false
  | .alreadyEnrolled =>
    if !(← bioFpDeleteAllPrints setup) then return false
    return (← bioFpEnroll) = .ok

def ensureUserVaultHandle : Act Bool := do
  -- the path is too long
  if ← decides then return false
  take .data
  -- no slot is left
  if ← decides then
    release .data
    return false
  -- the vault does not open
  if ← decides then
    release .data
    return false
  release .data
  return true

def tableLook : Act Unit := do
  take .data
  release .data

/-- The methods and timers that look at the tables once, where nothing stops them before. -/
def tableAccess : Act Unit := do
  if ← decides then return
  tableLook

def autoUnlockUserVault (setup : Setup) : Act Unit := do
  if !(← ensureUserVaultHandle) then return
  -- unlocked already, or not a vault that the fingerprint alone opens
  if ← decides then return
  if !setup.tpmAvailable then return
  -- the key's buffer stays in memory only if it can be locked there
  if ← decides then return
  take .fp
  -- shutting_down
  if ← decides then
    release .fp
    return
  release .fp
  -- the key was not unsealed, or the vault did not take it
  if ← decides then return
  tableLook

/-- The methods that work on the entries of an open vault: arguments, vault and operation
may each be refused before `unlocked_at` is set. -/
def vaultAccess : Act Unit := do
  if ← decides then return
  if !(← ensureUserVaultHandle) then return
  if ← decides then return
  tableLook

def vaultStatus : Act Unit := do
  let _ ← ensureUserVaultHandle

def lockVault : Act Unit := do
  let _ ← ensureUserVaultHandle

/-- `handle_get_property`. -/
def getLocked : Act Unit := do
  if ← decides then return
  let _ ← ensureUserVaultHandle

/-- What Verify and VerifyUser share. `bio_fp_verify` has a context of its own, so the
templates are tried without a call coming in between. -/
def verifyTemplates (setup : Setup) : Act Unit := do
  -- the session or the caller is refused
  if ← decides then return
  take .data
  -- rate limited
  if ← decides then
    release .data
    return
  if !setup.fpDev then
    release .data
    return
  -- out of memory
  if ← decides then
    release .data
    return
  release .data
  take .fp
  -- shutting_down
  if ← decides then
    release .fp
    return
  let matched ← decides
  release .fp
  if !matched then
    -- denied by the TPM policy
    if ← decides then return
  tableLook
  if matched then autoUnlockUserVault setup

def verify (setup : Setup) : Act Unit := verifyTemplates setup

def verifyUser (setup : Setup) : Act Unit := verifyTemplates setup

def bioDaemonVerifyUser (setup : Setup) : Act Bool := do
  -- unknown user
  if ← decides then return false
  take .data
  -- rate limited
  if ← decides then
    release .data
    return false
  -- no enrolment
  if ← decides then
    release .data
    return false
  -- out of memory
  if ← decides then
    release .data
    return false
  release .data
  if !setup.fpDev then return false
  take .fp
  -- shutting_down
  if ← decides then
    release .fp
    return false
  let matched ← decides
  release .fp
  if !matched then
    -- denied by the TPM policy
    if ← decides then return false
  tableLook
  return matched

/-- Authenticate and AuthenticateInteractive: a face may do where the fingerprint does not. -/
def authenticateWith (setup : Setup) : Act Unit := do
  if ← decides then return
  let matched ← bioDaemonVerifyUser setup
  let matched ← if matched then pure true else decides
  if matched then autoUnlockUserVault setup

def authenticate (setup : Setup) : Act Unit := authenticateWith setup

def authenticateInteractive (setup : Setup) : Act Unit := authenticateWith setup

/-- What every enrolment begins with: whether the policy asks for a TPM, or nothing where
it is refused. -/
def mayEnroll (setup : Setup) : Act (Option Bool) := do
  take .data
  let tpmRequire ← decides
  -- the user has all the enrolments that are allowed
  if ← decides then
    release .data
    return none
  if tpmRequire && !setup.tpmAvailable then
    release .data
    return none
  release .data
  return some tpmRequire

/-- Enroll at the sensor: the template is sealed before `fp_lock` is given back. -/
def enrollAndSeal (setup : Setup) (tpmRequire : Bool) : Act Bool := do
  take .fp
  -- shutting_down
  if ← decides then
    release .fp
    return false
  if !(← enrollRetrying setup) then
    release .fp
    return false
  if setup.tpmAvailable then
    let sealed ← decides
    if !sealed && tpmRequire then
      release .fp
      return false
  release .fp
  return true

def enroll (setup : Setup) : Act Unit := do
  -- the finger is out of range
  if ← decides then return
  if !setup.fpDev then return
  match ← mayEnroll setup with
  | none => return
  | some tpmRequire =>
    if !(← enrollAndSeal setup tpmRequire) then return
    -- the user's enrolments are counted again and the new one stored
    tableLook

def enrollOnly : Act Bool := do
  take .fp
  -- shutting_down
  if ← decides then
    release .fp
    return false
  let enrolled ← bioFpEnroll
  release .fp
  return enrolled = .ok

/-- The template of a fprintd task is sealed once `data_lock` is held, so that one lock
is taken inside the other. -/
def sealAndStore (setup : Setup) (tpmRequire : Bool) : Act Unit := do
  take .data
  -- the user's enrolments, counted again
  if ← decides then
    release .data
    return
  -- out of memory
  if ← decides then
    release .data
    return
  if setup.tpmAvailable then
    take .fp
    let sealed ← decides
    release .fp
    if !sealed && tpmRequire then
      release .data
      return
  release .data

def bioDaemonEnrollUser (setup : Setup) : Act Unit := do
  -- unknown user
  if ← decides then return
  if !setup.fpDev then return
  match ← mayEnroll setup with
  | none => return
  | some tpmRequire =>
    if !(← enrollOnly) then return
    sealAndStore setup tpmRequire

def startFingerEnroll (setup : Setup) : Act Unit := do
  if ← decides then return
  bioDaemonEnrollUser setup

def clearDevice (setup : Setup) : Act Unit := do
  -- not root
  if ← decides then return
  if !setup.fpDev then return
  take .fp
  let _ ← bioFpDeleteAllPrints setup
  release .fp

def bioDaemonDeleteEnrollments (setup : Setup) : Act Unit := do
  if ← decides then return
  tableLook
  if setup.fpDev then
    let _ ← bioFpDeleteAllPrints setup

/-- CommitFaceEnroll looks its session up and, when the face is enrolled, clears it. -/
def commitFaceEnroll : Act Unit := do
  if ← decides then return
  tableLook
  if ← decides then return
  tableLook

inductive Handler where
  -- the methods of the daemon
  | authenticate | authenticateInteractive
  | enroll | startFingerEnroll | deleteEnrollment | removeFinger | clearDevice
  | getEnrolledFingers | listEnrolledFingers
  | verify | verifyUser
  | startFaceEnroll | getEnrollFrame | commitFaceEnroll | abortEnroll
  | searchCredentials | getCredential | getAllCredentials | saveCredential | updateCredential | deleteCredential
  | listPasskeys | getPasskey | savePasskey
  | search | searchAdvanced | getEntry | updateEntry | deleteEntry
  | listGroups | getEntryHistory | listEntryAttachments | restoreEntryRevision
  | importTOTP | getTOTP | getTOTPStatus
  | vaultStatus | lockVault | getLocked
  -- the methods for fprintd's clients
  | verifyStart | enrollStart | fprintdListEnrolledFingers | deleteEnrolledFingers | deleteEnrolledFingers2
  -- timers and signals
  | sweepExpiredSessions | checkVaultIdleTimeout | handleSessionLockSignal | reloadDaemonConfig
  -- the methods that take no lock
  | lockless

/-- What a handler does on the main thread. -/
def Handler.act (setup : Setup) : Handler → Act Unit
  | .authenticate => Locks.authenticate setup
  | .authenticateInteractive => Locks.authenticateInteractive setup
  | .enroll => Locks.enroll setup
  | .startFingerEnroll => Locks.startFingerEnroll setup
  | .clearDevice => Locks.clearDevice setup
  | .verify => Locks.verify setup
  | .verifyUser => Locks.verifyUser setup
  | .deleteEnrollment | .removeFinger | .getEnrolledFingers | .listEnrolledFingers => tableAccess
  | .startFaceEnroll | .getEnrollFrame | .abortEnroll => tableAccess
  | .commitFaceEnroll => Locks.commitFaceEnroll
  | .searchCredentials | .getCredential | .getAllCredentials | .saveCredential | .updateCredential | .deleteCredential
  | .listPasskeys | .getPasskey | .savePasskey | .search | .searchAdvanced | .getEntry | .updateEntry | .deleteEntry
  | .listGroups | .getEntryHistory | .listEntryAttachments | .restoreEntryRevision
  | .importTOTP | .getTOTP | .getTOTPStatus => vaultAccess
  | .vaultStatus => Locks.vaultStatus
  | .lockVault => Locks.lockVault
  | .getLocked => Locks.getLocked
  | .fprintdListEnrolledFingers => tableAccess
  | .deleteEnrolledFingers | .deleteEnrolledFingers2 => bioDaemonDeleteEnrollments setup
  | .sweepExpiredSessions | .checkVaultIdleTimeout | .handleSessionLockSignal | .reloadDaemonConfig => tableAccess
  | .verifyStart | .enrollStart | .lockless => pure ()

/-- `fprintd_async_thread_func`, unless the task was cancelled before it began. -/
def fprintdAsyncThreadFunc (setup : Setup) (isEnroll : Bool) : Act Unit := do
  if ← decides then return
  if isEnroll then bioDaemonEnrollUser setup
  else
    let _ ← bioDaemonVerifyUser setup

/-- The task that a handler starts in a thread of its own. -/
def Handler.task (setup : Setup) : Handler → Option (Act Unit)
  | .verifyStart => some (fprintdAsyncThreadFunc setup false)
  | .enrollStart => some (fprintdAsyncThreadFunc setup true)
  | _ => none

inductive Thread where
  | main
  | worker (index : Nat)
  deriving DecidableEq

/-- One call of a handler or task: the locks it has taken and not given back, what is
left to do, and whether it sleeps in `pthread_mutex_lock`. -/
structure Frame where
  held : List Lock
  todo : Act Unit
  asleep : Bool

def Frame.begin (act : Act Unit) : Frame := ⟨[], act, false⟩

def Frame.wants (frame : Frame) : Option Lock := if frame.asleep then frame.todo.asks else none

/-- The main thread's calls, the running one first, and one frame for each worker. -/
structure Threads where
  main : List Frame
  workers : List Frame

namespace Threads
variable (threads : Threads)

def frames : Thread → List Frame
  | .main => threads.main
  | .worker index => threads.workers[index]?.toList

/-- The lock that a thread is about to ask for, or sleeps for. -/
def asks (thread : Thread) : Option Lock := (threads.frames thread).head?.bind fun frame => frame.todo.asks

def wants (thread : Thread) : Option Lock := (threads.frames thread).head?.bind Frame.wants

def holds (thread : Thread) (key : Lock) : Bool := (threads.frames thread).any fun frame => frame.held.contains key

def taken (key : Lock) : Bool := (threads.main ++ threads.workers).any fun frame => frame.held.contains key

/-- The main thread is in its main loop, the outermost or one that a call runs. -/
def dispatching : Bool := threads.main.head?.all fun frame => frame.todo.idles

end Threads

/-- One operation of a frame. A lock that is held by anyone, the same thread too, puts the
frame to sleep. A loop ends when the main thread has begun the callback that ends it. -/
def Frame.advance (taken : Lock → Bool) (dispatching answer : Bool) (frame : Frame) : Frame :=
  match frame.todo with
  | .done () => frame
  | .lock key rest =>
    if taken key then { frame with asleep := true } else { held := key :: frame.held, todo := rest, asleep := false }
  | .unlock key rest => { held := frame.held.erase key, todo := rest, asleep := false }
  | .loop rest => if dispatching then { held := frame.held, todo := rest, asleep := false } else frame
  | .choose rest => { held := frame.held, todo := rest answer, asleep := false }

/-- The running call goes on; one that has returned gives way to the call it came in on. -/
def advanceMain (taken : Lock → Bool) (answer : Bool) : List Frame → List Frame
  | [] => []
  | frame :: below =>
    match frame.todo with
    | .done () => below
    | _ => frame.advance taken true answer :: below

inductive Move where
  | dispatch (handler : Handler)
  | advance (thread : Thread) (answer : Bool)

def move (setup : Setup) (threads : Threads) : Move → Threads
  | .dispatch handler =>
    if threads.dispatching then
      { main := .begin (handler.act setup) :: threads.main
        workers := threads.workers ++ ((handler.task setup).map Frame.begin).toList }
    else threads
  | .advance .main answer => { threads with main := advanceMain threads.taken answer threads.main }
  | .advance (.worker index) answer =>
    { threads with workers := threads.workers.modify index (Frame.advance threads.taken threads.dispatching answer) }

def scheduler (setup : Setup) : Machine Threads Move Unit where
  step next threads := ((), move setup threads next)
  halts _ := false

def Threads.start : Threads := ⟨[], []⟩

/-- Who holds and who waits for which of the two locks. -/
def Threads.standing (threads : Threads) : Standing Thread Lock where
  holds thread key := threads.holds thread key = true
  waits thread key := threads.wants thread = some key

end Hiya.Daemon.Locks
