import Hiya.Library.Runs
import Hiya.Pm.Payload

/-! The clipboard, `pm_clipboard.c`: a worker counts seconds down and then has the clipboard
cleared. What happens under the lock is one step. The calls that schedule, cancel or shut down come
one after another; the worker, the calls that only look, and `pm_clipboard_init` come in between
at any time. -/

namespace Hiya.Pm.Clipboard
open Library

def clampTimeout (timeoutSeconds : Int) : Nat :=
  if timeoutSeconds ≤ 0 then 30
  else if timeoutSeconds < 10 then 10
  else if 120 < timeoutSeconds then 120
  else timeoutSeconds.toNat

variable {φ δ : Type}

/-- `pm_clipboard_state_t` without its lock. Threads are known by their number, and a null pointer
is none. -/
structure State (φ δ : Type) where
  worker : Nat
  workerRunning : Bool
  workerJoinPending : Bool
  cancelRequested : Bool
  timeoutSeconds : Nat
  countdownCb : Option φ
  clearCb : Option φ
  userdata : Option δ

/-- `pm_clipboard_worker_main` between two of its steps. -/
inductive Worker (φ δ : Type)
  /-- It sleeps for a second. -/
  | sleeping (remaining : Nat)
  /-- It has read what to call while it had the lock. -/
  | counting (remaining : Nat) (countdownCb : Option φ) (userdata : Option δ)
  | finishing (countdownCb clearCb : Option φ) (userdata : Option δ)
  | clearing (clearCb : Option φ) (userdata : Option δ)
  | ended

def Worker.isEnded : Worker φ δ → Bool
  | .ended => true
  | .sleeping _ => false
  | .counting _ _ _ => false
  | .finishing _ _ _ => false
  | .clearing _ _ => false

inductive Task
  | schedule (timeoutSeconds : Nat)
  | cancel
  | shutdown

inductive Caller (φ δ : Type)
  | idle
  /-- `pthread_join`. -/
  | joining (target : Nat) (task : Task)
  /-- In front of the second part that is under the lock. -/
  | locking (task : Task)
  /-- Scheduled, and the callback is still to be called. -/
  | announcing (timeoutSeconds : Nat) (countdownCb : Option φ) (userdata : Option δ)
  /-- In front of the last part of the shutdown. -/
  | unhooking

structure World (φ δ : Type) where
  state : State φ δ
  workers : List (Worker φ δ)
  caller : Caller φ δ

inductive Sign
  | countdown (remainingSeconds : Nat)
  | clear
  deriving DecidableEq

inductive Outcome (φ δ : Type)
  /-- Nothing to be done, or not yet. -/
  | waits
  | moved
  /-- A callback is called, if there is one. -/
  | called (callback : Option φ) (sign : Sign) (userdata : Option δ)
  | created (thread timeoutSeconds : Nat)
  | returned (result : Except PmError Unit)
  | armed (answer : Bool)
  | seconds (answer : Nat)

/-- From one wait, for the clock or for the callback, to the next. -/
def Worker.step (state : State φ δ) : Worker φ δ → Outcome φ δ × Worker φ δ × State φ δ
  | .sleeping 0 => (.moved, .ended, { state with workerRunning := false })
  | .sleeping (remaining + 1) =>
    if state.cancelRequested then (.moved, .ended, { state with workerRunning := false })
    else if remaining = 0 then (.moved, .finishing state.countdownCb state.clearCb state.userdata,
      { state with workerRunning := false })
    else (.moved, .counting remaining state.countdownCb state.userdata, state)
  | .counting remaining countdownCb userdata =>
    (.called countdownCb (.countdown remaining) userdata, .sleeping remaining, state)
  | .finishing countdownCb clearCb userdata =>
    (.called countdownCb (.countdown 0) userdata, .clearing clearCb userdata, state)
  | .clearing clearCb userdata => (.called clearCb .clear userdata, .ended, state)
  | .ended => (.waits, .ended, state)

theorem Worker.step_sleeping (remaining : Nat) (state : State φ δ) : (sleeping (remaining + 1)).step state =
    if state.cancelRequested then (.moved, .ended, { state with workerRunning := false })
    else if remaining = 0 then (.moved, .finishing state.countdownCb state.clearCb state.userdata,
      { state with workerRunning := false })
    else (.moved, .counting remaining state.countdownCb state.userdata, state) := rfl

def moveWorker (thread : Nat) (world : World φ δ) : Outcome φ δ × World φ δ :=
  match world.workers[thread]? with
  | none => (.waits, world)
  | some worker =>
    let (outcome, worker, state) := worker.step world.state
    (outcome, { world with state, workers := world.workers.set thread worker })

/-- The part that schedule, cancel and shutdown begin with. None of them begins while another is
under way: no lock is held over a whole call, so the callers have to see to that. -/
def begin (task : Task) (world : World φ δ) : Outcome φ δ × World φ δ :=
  match world.caller with
  | .idle =>
    if world.state.workerJoinPending then
      (.moved, { world with
        state := { world.state with cancelRequested := world.state.cancelRequested || world.state.workerRunning, workerJoinPending := false }
        caller := .joining world.state.worker task })
    else (.moved, { world with caller := .locking task })
  | _ => (.waits, world)

/-- The part of `pm_clipboard_schedule_clear` behind the join. -/
def restart (timeoutSeconds : Nat) (created : Bool) (world : World φ δ) : Outcome φ δ × World φ δ :=
  let state := { world.state with cancelRequested := false, timeoutSeconds }
  if created then
    (.created world.workers.length timeoutSeconds, {
      state := { state with worker := world.workers.length, workerRunning := true, workerJoinPending := true }
      workers := world.workers ++ [.sleeping timeoutSeconds]
      caller := .announcing timeoutSeconds state.countdownCb state.userdata })
  else (.returned (.error .internal), { world with state := { state with workerRunning := false }, caller := .idle })

/-- The call under way goes on, if it does not wait for a worker. The flag is whether
`pthread_create` succeeds. -/
def goOn (created : Bool) (world : World φ δ) : Outcome φ δ × World φ δ :=
  match world.caller with
  | .idle => (.waits, world)
  | .joining target task =>
    if world.workers[target]?.any (·.isEnded) then (.moved, { world with caller := .locking task }) else (.waits, world)
  | .locking (.schedule timeoutSeconds) => restart timeoutSeconds created world
  | .locking .cancel =>
    (.returned (.ok ()), { world with state := { world.state with workerRunning := false, cancelRequested := false }, caller := .idle })
  | .locking .shutdown =>
    (.moved, { world with state := { world.state with workerRunning := false, cancelRequested := false }, caller := .unhooking })
  | .announcing timeoutSeconds countdownCb userdata =>
    (.called countdownCb (.countdown timeoutSeconds) userdata, { world with caller := .idle })
  | .unhooking =>
    (.returned (.ok ()), { world with state := { world.state with countdownCb := none, clearCb := none, userdata := none }, caller := .idle })

def isArmed (state : State φ δ) : Bool := state.workerRunning && !state.cancelRequested

inductive Action (φ δ : Type)
  | init (countdownCb clearCb : Option φ) (userdata : Option δ)
  | scheduleClear (timeoutSeconds : Int)
  | cancelClear
  | shutdown
  | isArmed
  | timeoutSeconds
  /-- The call under way. -/
  | goOn (created : Bool)
  | worker (thread : Nat)

def step : Action φ δ → World φ δ → Outcome φ δ × World φ δ
  | .init countdownCb clearCb userdata, world =>
    (.returned (.ok ()), { world with state := { world.state with countdownCb, clearCb, userdata } })
  | .scheduleClear timeoutSeconds, world => begin (.schedule (clampTimeout timeoutSeconds)) world
  | .cancelClear, world => begin .cancel world
  | .shutdown, world => begin .shutdown world
  | .isArmed, world => (.armed (isArmed world.state), world)
  | .timeoutSeconds, world => (.seconds world.state.timeoutSeconds, world)
  | .goOn created, world => goOn created world
  | .worker thread, world => moveWorker thread world

def clipboard : Machine (World φ δ) (Action φ δ) (Outcome φ δ) where
  step
  halts _ := false

/-- `g_clipboard_state` as it is in the beginning. -/
def initial : World φ δ where
  state := {
    worker := 0
    workerRunning := false
    workerJoinPending := false
    cancelRequested := false
    timeoutSeconds := 30
    countdownCb := none
    clearCb := none
    userdata := none }
  workers := []
  caller := .idle

end Hiya.Pm.Clipboard
