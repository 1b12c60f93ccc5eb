import Hiya.Daemon.Calls
import Hiya.Library.Table

/-! The fprintd-compatible device of `bio_fprintd_compat.c`. Method calls, vanished names
and the callbacks of tasks are served one after the other on the main loop; the two ends
of a worker's run come in between, in any order. -/

namespace Hiya.Fprintd
open Library
open Daemon (Name Uid Accounts Env Comparison)
open Fido2 (ascii)

inductive DeviceState
  | idle
  | claimed
  | enrolling
  | verifying
  deriving DecidableEq, Repr

def DeviceState.busy : DeviceState → Bool
  | .enrolling => true
  | .verifying => true
  | .idle => false
  | .claimed => false

def operation (isEnroll : Bool) : DeviceState := if isEnroll then .enrolling else .verifying

structure Device where
  state : DeviceState
  claimedBy : Blob 63
  claimedSender : Blob 255
  enrollFinger : Blob 47
  /-- The name whose owner is watched. -/
  watched : Option Name
  /-- The task whose cancellable the record holds. -/
  cancellable : Option Nat

inductive Phase
  | pending
  | running
  | returned (success : Bool)
  deriving DecidableEq

/-- A task and its cancellable, up to the end of its callback. -/
structure Task where
  username : Blob 63
  finger : Blob 47
  isEnroll : Bool
  cancelled : Bool
  phase : Phase

structure State where
  device : Device
  tasks : Table Task
  daemon : Daemon.State

/-- What `bio_fprintd_compat_init` leaves of a zeroed context. -/
def State.init (daemon : Daemon.State) : State where
  device := {
    state := .idle
    claimedBy := .empty _
    claimedSender := .empty _
    enrollFinger := .empty _
    watched := none
    cancellable := none }
  tasks := .empty
  daemon

inductive FprintError
  | internal
  | permissionDenied
  | alreadyInUse
  | claimDevice
  deriving DecidableEq, Repr

def FprintError.name : FprintError → String
  | .internal => "net.reactivated.Fprint.Error.Internal"
  | .permissionDenied => "net.reactivated.Fprint.Error.PermissionDenied"
  | .alreadyInUse => "net.reactivated.Fprint.Error.AlreadyInUse"
  | .claimDevice => "net.reactivated.Fprint.Error.ClaimDevice"

inductive Reply
  | returned
  | failed (name message : String)
  deriving DecidableEq, Repr

def Reply.error (kind : FprintError) (message : String) : Reply := .failed kind.name message

inductive Status
  | verifyMatch
  | verifyNoMatch
  | enrollCompleted
  | enrollFailed
  deriving DecidableEq, Repr

def Status.isEnroll : Status → Bool
  | .verifyMatch => false
  | .verifyNoMatch => false
  | .enrollCompleted => true
  | .enrollFailed => true

def Status.signalName (status : Status) : String := if status.isEnroll then "EnrollStatus" else "VerifyStatus"

def Status.text : Status → String
  | .verifyMatch => "verify-match"
  | .verifyNoMatch => "verify-no-match"
  | .enrollCompleted => "enroll-completed"
  | .enrollFailed => "enroll-failed"

def Status.of (isEnroll success : Bool) : Status :=
  if isEnroll then if success then .enrollCompleted else .enrollFailed
  else if success then .verifyMatch else .verifyNoMatch

inductive Signal
  | verifyFingerSelected (finger : Name)
  /-- VerifyStatus or EnrollStatus. -/
  | status (name result : String) (done : Bool)
  deriving DecidableEq

def Status.signal (status : Status) : Signal := .status status.signalName status.text true

/-- What a step answers, what it sends to everybody, and what the sensor was asked in it. -/
structure Outcome where
  reply : Option Reply
  signals : List Signal
  comparisons : List Comparison

def Outcome.quiet : Outcome := { reply := none, signals := [], comparisons := [] }

def Outcome.replied (reply : Reply) : Outcome := { Outcome.quiet with reply := some reply }

structure Sender where
  name : Name
  nonempty : name ≠ []

/-- What `get_sender_uid` returns when the bus does not tell. -/
def noUid : Uid := 0xFFFFFFFF

def getSenderUid (answer : Option Uid) : Uid := answer.getD noUid

def getSenderUser (names : Accounts) (answer : Option Uid) : Option Name :=
  if getSenderUid answer = noUid then none
  else (names.nameOf (getSenderUid answer)).map fun name => name.take 63

/-- The user a client may claim the device for. -/
def claimant (names : Accounts) (answer : Option Uid) (username : Name) : Except Reply Name :=
  if username = [] then
    match getSenderUser names answer with
    | none => .error (.error .internal "Could not determine calling user")
    | some user => .ok user
  else
    let denied : Reply := .error .permissionDenied "Not authorized to claim as another user"
    match names.uidOf username with
    | none => .error denied
    | some target =>
      if getSenderUid answer ≠ 0 ∧ getSenderUid answer ≠ target then .error denied else .ok username

def claim (names : Accounts) (sender : Sender) (answer : Option Uid) (username : Name) (s : State) : Outcome × State :=
  match claimant names answer username with
  | .error refusal => (.replied refusal, s)
  | .ok user =>
    if s.device.state ≠ .idle then (.replied (.error .alreadyInUse "Device is already claimed"), s)
    else
      (.replied .returned, { s with device := { s.device with
        state := .claimed
        claimedBy := .ofSlice _ user
        claimedSender := .ofSlice _ sender.name
        watched := some sender.name } })

def Sender.owns (sender : Sender) (device : Device) : Bool := sender.name = device.claimedSender.bytes

def denied (method : String) : Reply := .error .permissionDenied (method ++ " denied: device claimed by a different client")

def State.cancel (s : State) : State :=
  match s.device.cancellable with
  | none => s
  | some id => { s with tasks := s.tasks.change id fun task => { task with cancelled := true } }

/-- `fprintd_device_release`. The record keeps the cancellable. -/
def deviceRelease (s : State) : State :=
  { s.cancel with device := { s.device with
    state := .idle
    claimedBy := .empty _
    claimedSender := .empty _
    enrollFinger := .empty _
    watched := none } }

def release (sender : Sender) (s : State) : Outcome × State :=
  if s.device.state = .idle then (.replied (.error .claimDevice "Device is not claimed"), s)
  else if !sender.owns s.device then (.replied (denied "Release"), s)
  else (.replied .returned, deviceRelease s)

/-- `on_claimer_vanished`, for a change of the name that is watched. -/
def nameOwnerChanged (name oldOwner newOwner : Name) (s : State) : Outcome × State :=
  if s.device.watched ≠ some name then (.quiet, s)
  else if newOwner ≠ [] then (.quiet, s)
  else if s.device.state ≠ .idle ∧ s.device.claimedSender.bytes = oldOwner then (.quiet, deviceRelease s)
  else (.quiet, s)

/-- Start a task. A cancellable that the record still holds is overwritten. -/
def State.launch (isEnroll : Bool) (finger : Blob 47) (s : State) : State :=
  { s with
    device := { s.device with state := operation isEnroll, cancellable := some s.tasks.next }
    tasks := s.tasks.add { username := s.device.claimedBy, finger, isEnroll, cancelled := false, phase := .pending } }

def startRefusal (method : String) (sender : Sender) (device : Device) : Option Reply :=
  if device.state ≠ .claimed then some (.error .claimDevice "Device must be claimed first")
  else if !sender.owns device then some (denied method)
  else none

def verifyStart (sender : Sender) (finger : Name) (s : State) : Outcome × State :=
  match startRefusal "VerifyStart" sender s.device with
  | some refusal => (.replied refusal, s)
  | none =>
    -- any enrolled finger is accepted; the name is only told to the desktop
    let selected := if finger = [] then ascii "any" else finger
    ({ Outcome.replied .returned with signals := [.verifyFingerSelected selected] }, s.launch false (.empty _))

def enrollStart (sender : Sender) (finger : Name) (s : State) : Outcome × State :=
  match startRefusal "EnrollStart" sender s.device with
  | some refusal => (.replied refusal, s)
  | none =>
    let s := { s with device := { s.device with enrollFinger := .ofSlice _ finger } }
    (.replied .returned, s.launch true s.device.enrollFinger)

/-- Cancel the operation that runs, if it is one of the given kind. -/
def stop (method : String) (isEnroll : Bool) (sender : Sender) (s : State) : Outcome × State :=
  if !sender.owns s.device then (.replied (denied method), s)
  else if s.device.state = operation isEnroll then
    (.replied .returned, { s.cancel with device := { s.device with state := .claimed } })
  else (.replied .returned, s)

def verifyStop : Sender → State → Outcome × State := stop "VerifyStop" false

def enrollStop : Sender → State → Outcome × State := stop "EnrollStop" true

/-- The worker starts with the only look it takes at its cancellable. -/
def workerBegins (id : Nat) (s : State) : Outcome × State :=
  match s.tasks.entries id with
  | none => (.quiet, s)
  | some task =>
    if task.phase = .pending then
      (.quiet, { s with tasks := s.tasks.change id fun task =>
        { task with phase := if task.cancelled then .returned false else .running } })
    else (.quiet, s)

section
variable (mac : Buf 32 → Bytes → Buf 32) (accounts : Accounts)

def work (env : Env) (task : Task) (daemon : Daemon.State) : Daemon.Outcome × Daemon.State :=
  if task.isEnroll then Daemon.daemonEnrollUser env mac accounts task.username.bytes task.finger.bytes daemon
  else Daemon.daemonVerifyUser accounts env task.username.bytes daemon

def workerReturns (id : Nat) (env : Env) (s : State) : Outcome × State :=
  match s.tasks.entries id with
  | none => (.quiet, s)
  | some task =>
    if task.phase = .running then
      let (answer, daemon) := work mac accounts env task s.daemon
      ({ Outcome.quiet with comparisons := answer.comparisons },
        { s with
          daemon
          tasks := s.tasks.change id fun task => { task with phase := .returned (answer.reply = .returned .ok) } })
    else (.quiet, s)

/-- What a callback leaves of the device, whoever's task the record is about by now. -/
def Device.settled (device : Device) : Device :=
  { device with state := if device.state.busy then .claimed else device.state, cancellable := none }

/-- `fprintd_async_ready_cb`. -/
def asyncReady (id : Nat) (s : State) : Outcome × State :=
  match s.tasks.entries id with
  | none => (.quiet, s)
  | some task =>
    match task.phase with
    | .pending => (.quiet, s)
    | .running => (.quiet, s)
    | .returned success =>
      let settled : State := { s with device := s.device.settled, tasks := s.tasks.erase id }
      if task.cancelled then (.quiet, settled)
      else ({ Outcome.quiet with signals := [(Status.of task.isEnroll success).signal] }, settled)

inductive Input
  /-- With the uid that the bus tells of the sender. -/
  | claim (sender : Sender) (answer : Option Uid) (username : Name)
  | release (sender : Sender)
  | verifyStart (sender : Sender) (finger : Name)
  | verifyStop (sender : Sender)
  | enrollStart (sender : Sender) (finger : Name)
  | enrollStop (sender : Sender)
  | nameOwnerChanged (name oldOwner newOwner : Name)
  | workerBegins (id : Nat)
  | workerReturns (id : Nat) (env : Env)
  | asyncReady (id : Nat)
  /-- A call of the daemon that does not come through the device. -/
  | daemonCall (request : Daemon.Request)

/-- The names are those that the small buffers of this file can read. -/
def step (names : Accounts) (input : Input) (s : State) : Outcome × State :=
  match input with
  | .claim sender answer username => claim names sender answer username s
  | .release sender => release sender s
  | .verifyStart sender finger => verifyStart sender finger s
  | .verifyStop sender => verifyStop sender s
  | .enrollStart sender finger => enrollStart sender finger s
  | .enrollStop sender => enrollStop sender s
  | .nameOwnerChanged name oldOwner newOwner => nameOwnerChanged name oldOwner newOwner s
  | .workerBegins id => workerBegins id s
  | .workerReturns id env => workerReturns mac accounts id env s
  | .asyncReady id => asyncReady id s
  | .daemonCall request => (.quiet, { s with daemon := (Daemon.serve mac accounts request s.daemon).2 })

def fprintd (names : Accounts) : Machine State Input Outcome where
  step := step mac accounts names
  halts _ := false

end

end Hiya.Fprintd
