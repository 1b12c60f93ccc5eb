import Hiya.Daemon.Calls

/-! The verifying calls, taken apart where they let go of a lock. The handler on the main loop
and the workers of the fprintd device ask the limiter and copy their templates under
`data_lock`, wait for `fp_lock`, use the sensor under it, and do the bookkeeping under
`data_lock` again. The steps of the others come in between, in any order. -/

namespace Hiya.Daemon
open Library
open Fido2 (ascii)

inductive Purpose
  | authenticate (interactive : Bool) (caller : Uid) (sender username : Name)
  | verify (caller : Uid) (slot : SessionSlot)
  | verifyUser (target : Uid)
  | fprintd (uid : Uid)

/-- What is copied under `data_lock`. -/
structure Copies where
  own : List Enrollment
  policy : TpmPolicy

def State.copies (uid : Uid) (d : State) : Copies where
  own := d.enrollmentsOf uid
  policy := d.tpmPolicy

/-- How far a verification has come, and whose limiter it has asked. -/
inductive Stage
  | waiting (key : Uid) (copies : Copies)
  | scanned (key : Uid) (trial : Trial)
  /-- The finger is judged; what follows from it is to come. -/
  | decided (verdict : Outcome)

structure Verification where
  purpose : Purpose
  stage : Stage

/-- The first step of a call answers it, or leaves a verification under way. -/
inductive Opening
  | answered (outcome : Outcome)
  | begun (verification : Verification)

section
variable (mac : Buf 32 → Bytes → Buf 32) (accounts : Accounts) (env : Env)

def verifyOpens (caller : Uid) (sender : Name) (token : Bytes) (d : State) : Opening × State :=
  match findSession env.time token d with
  | (none, d) => (.answered (.quiet (.refused .authFailed (ascii "Invalid or expired session"))), d)
  | (some slot, d) =>
    let session := d.sessions slot
    if caller ≠ 0 ∧ session.uid ≠ caller then
      (.answered (.quiet (.refused .accessDenied (ascii "Session belongs to another user"))), d)
    else if !session.belongsTo sender then
      (.answered (.quiet (.refused .accessDenied (ascii "Session bound to different connection"))), d)
    else
      match checkVerifyRateLimit env.checkedAt caller d.limiters with
      | (some seconds, limiters) => (.answered (.quiet (rateLimited seconds)), { d with limiters })
      | (none, limiters) =>
        let d := { d with limiters }
        if !d.fpDev then (.answered (.quiet (.refused .failed (ascii "No fingerprint device"))), d)
        else if d.enrollmentsOf session.uid ≠ [] ∧ !env.allocates then
          (.answered (.quiet (.refused .failed (ascii "Out of memory"))), d)
        else (.begun { purpose := .verify caller slot, stage := .waiting caller (d.copies session.uid) }, d)

def verifyUserOpens (caller : Uid) (trustedPortal : Bool) (username : Name) (d : State) : Opening × State :=
  if username = [] then (.answered (.quiet (.refused .invalidArgs (ascii "Username is required"))), d)
  else match accounts.uidOf username with
    | none => (.answered (.quiet (.refused .invalidArgs (ascii "Unknown user: " ++ username))), d)
    | some target =>
      if caller ≠ 0 ∧ ¬ (trustedPortal ∧ caller = target) then
        (.answered (.quiet (.refused .accessDenied (ascii "Not authorized for VerifyUser (root or trusted portal only)"))), d)
      else
        match checkVerifyRateLimit env.checkedAt target d.limiters with
        | (some seconds, limiters) => (.answered (.quiet (rateLimited seconds)), { d with limiters })
        | (none, limiters) =>
          let d := { d with limiters }
          if !d.fpDev then (.answered (.quiet (.refused .failed (ascii "No fingerprint device"))), d)
          else if d.enrollmentsOf target ≠ [] ∧ !env.allocates then
            (.answered (.quiet (.refused .failed (ascii "Out of memory"))), d)
          else (.begun { purpose := .verifyUser target, stage := .waiting target (d.copies target) }, d)

/-- `bio_daemon_verify_user`, up to its wait. -/
def daemonVerifyUserOpens (user : Name) (d : State) : Stage × State :=
  match accounts.uidOf user with
  | none => (.decided (.quiet (.returned .notFound)), d)
  | some uid =>
    match checkVerifyRateLimit env.checkedAt uid d.limiters with
    | (some _, limiters) => (.decided (.quiet (.returned .rateLimit)), { d with limiters })
    | (none, limiters) =>
      let d := { d with limiters }
      if d.enrollmentsOf uid = [] then (.decided (.quiet (.returned .notFound)), d)
      else if !env.allocates then (.decided (.quiet (.returned .nomem)), d)
      else if !d.fpDev then (.decided (.quiet (.returned .io)), d)
      else (.waiting uid (d.copies uid), d)

def authenticateOpens (interactive : Bool) (caller : Uid) (sender : Name) (d : State) : Opening × State :=
  match usernameForUid accounts caller with
  | none => (.answered (.quiet (.refused .failed (ascii "Unable to resolve caller username"))), d)
  | some username =>
    let (stage, d) := daemonVerifyUserOpens accounts env username d
    (.begun { purpose := .authenticate interactive caller sender username, stage }, d)

def fprintdOpens (username : Name) (d : State) : Opening × State :=
  match accounts.uidOf username with
  | none => (.answered (.quiet (.returned .notFound)), d)
  | some uid =>
    let (stage, d) := daemonVerifyUserOpens accounts env username d
    (.begun { purpose := .fprintd uid, stage }, d)

/-- The first step of a call. One that verifies nobody is served in it. -/
def opens (call : Call) (d : State) : Opening × State :=
  match call with
  | .authenticate caller sender => authenticateOpens accounts env false caller sender d
  | .authenticateInteractive caller sender => authenticateOpens accounts env true caller sender d
  | .verify caller sender token => verifyOpens env caller sender token d
  | .verifyUser caller trustedPortal username => verifyUserOpens accounts env caller trustedPortal username d
  | .fprintdVerify username => fprintdOpens accounts env username d
  | other =>
    let (outcome, d) := serve mac accounts { call := other, env } d
    (.answered outcome, d)

namespace Purpose

/-- The reply where the daemon is shutting down. -/
def stopped : Purpose → Reply
  | .authenticate .. => .returned .io
  | .verify .. => .refused .failed (ascii "Daemon shutting down")
  | .verifyUser _ => .refused .failed (ascii "Daemon shutting down")
  | .fprintd _ => .returned .io

/-- The reply where the policy keeps the templates from the sensor. -/
def denied : Purpose → Reply
  | .authenticate .. => .returned .permission
  | .verify .. => .refused .failed (ascii "TPM is required by policy; verification denied without TPM-sealed data")
  | .verifyUser _ => .refused .failed (ascii "TPM is required by policy; VerifyUser denied without TPM-sealed data")
  | .fprintd _ => .returned .permission

/-- The reply to a finger that was looked at. -/
def judged (matched : Bool) : Purpose → Reply
  | .authenticate .. => .returned (if matched then .ok else .noMatch)
  | .verify .. => .matched matched
  | .verifyUser _ => .matched matched
  | .fprintd _ => .returned (if matched then .ok else .noMatch)

def locks : Purpose → Nat → Bool
  | .authenticate .. => fun _ => true
  | .verify .. => env.locks
  | .verifyUser _ => env.locks
  | .fprintd _ => fun _ => true

/-- Whether a match counts: Verify has to issue its token. -/
def counts (d : State) : Purpose → Nat → Bool
  | .authenticate .. => fun _ => true
  | .verify _ slot => fun number => (issueToken env (d.sessions slot) number).isSome
  | .verifyUser _ => fun _ => true
  | .fprintd _ => fun _ => true

/-- Verify marks its session while it holds the sensor. -/
def marks (trial : Trial) (d : State) : Purpose → State
  | .authenticate .. => d
  | .verify _ slot => d.putSession slot ((d.sessions slot).judged env trial)
  | .verifyUser _ => d
  | .fprintd _ => d

end Purpose

def Purpose.scan (key : Uid) (copies : Copies) (d : State) (purpose : Purpose) : Stage × State :=
  if d.shuttingDown then (.decided (.quiet purpose.stopped), d)
  else
    let trial := tryTemplates env copies.policy (purpose.locks env) (purpose.counts env d) 0 copies.own
    let d := purpose.marks env trial d
    if trial.accepted.isNone ∧ trial.policyDenied then
      (.decided { reply := purpose.denied, comparisons := trial.comparisons }, d)
    else (.scanned key trial, d)

def Purpose.settle (key : Uid) (trial : Trial) (d : State) (purpose : Purpose) : Outcome × State :=
  ({ reply := purpose.judged trial.accepted.isSome, comparisons := trial.comparisons },
    if trial.accepted.isSome then { d with limiters := resetVerifyRateLimit key d.limiters }
    else { d with limiters := recordVerifyFailure d.config env.recordedAt key d.limiters })

def authenticateReply (interactive done : Bool) (method : String) : Reply :=
  if interactive then .matched done else .authenticated done method

/-- Whatever the finger was refused for, a face may do instead. -/
def authenticateConcludes (interactive : Bool) (caller : Uid) (sender username : Name) (finger : Outcome) (d : State) :
    Outcome × State :=
  if finger.reply = .returned .ok then
    ({ finger with reply := authenticateReply interactive true "fingerprint" }, letIn env caller sender d)
  else if env.howdyAvailable ∧ env.howdyVerifies username then
    ({ finger with reply := authenticateReply interactive true "face" }, letIn env caller sender d)
  else ({ finger with reply := authenticateReply interactive false "none" }, d)

def Purpose.concludes (verdict : Outcome) (d : State) : Purpose → Outcome × State
  | .authenticate interactive caller sender username => authenticateConcludes env interactive caller sender username verdict d
  | .verify caller _ => (verdict, if verdict.reply = .matched true then autoUnlockUserVault env caller d else d)
  | .verifyUser target => (verdict, if verdict.reply = .matched true then autoUnlockUserVault env target d else d)
  | .fprintd _ => (verdict, d)

end

inductive Thread
  | main
  | worker (number : Nat)
  deriving DecidableEq

/-- The daemon, its monotonic clock, and what its threads have under way. -/
structure Threads where
  daemon : State
  clock : Nat
  underway : Thread → Option Verification

def Threads.idle (daemon : State) (clock : Nat) : Threads where
  daemon
  clock
  underway _ := none

/-- The main loop serves the methods, workers what the fprintd device asks for. -/
def Call.runsOn : Call → Thread → Bool
  | .fprintdVerify _, thread => thread ≠ .main
  | .fprintdEnroll .., thread => thread ≠ .main
  | .restart, _ => false
  | _, thread => thread = .main

inductive Act
  | start (call : Call)
  | scan
  | settle
  | conclude
  /-- The process is replaced by another. -/
  | restart

/-- A step of one thread, some seconds after the last step of any. -/
structure Move where
  thread : Thread
  act : Act
  env : Env
  waited : Nat

def Env.at (now : Int) (env : Env) : Env := { env with checkedAt := now, recordedAt := now }

def Threads.put (thread : Thread) (verification : Option Verification) (d : State) (threads : Threads) : Threads :=
  { threads with daemon := d, underway := Function.update threads.underway thread verification }

section
variable (mac : Buf 32 → Bytes → Buf 32) (accounts : Accounts)

def Threads.start (thread : Thread) (call : Call) (env : Env) (threads : Threads) : Option Outcome × Threads :=
  match opens mac accounts env call threads.daemon with
  | (.answered outcome, d) => (some outcome, threads.put thread none d)
  | (.begun verification, d) => (none, threads.put thread (some verification) d)

/-- A step of a verification that is under way. The bookkeeping tells the verdict, the end the
reply. -/
def Threads.go (thread : Thread) (verification : Verification) (env : Env) (act : Act) (threads : Threads) :
    Option Outcome × Threads :=
  match act, verification.stage with
  | .scan, .waiting key copies =>
    let (stage, d) := verification.purpose.scan env key copies threads.daemon
    (none, threads.put thread (some { verification with stage }) d)
  | .settle, .scanned key trial =>
    let (verdict, d) := verification.purpose.settle env key trial threads.daemon
    (some verdict, threads.put thread (some { verification with stage := .decided verdict }) d)
  | .conclude, .decided verdict =>
    let (outcome, d) := verification.purpose.concludes env verdict threads.daemon
    (some outcome, threads.put thread none d)
  | _, _ => (none, threads)

def Threads.step (move : Move) (before : Threads) : Option Outcome × Threads :=
  let threads := { before with clock := before.clock + move.waited }
  let env := move.env.at threads.clock
  match move.act with
  | .restart => (none, .idle (threads.daemon.started mac env) threads.clock)
  | act =>
    match threads.underway move.thread with
    | some verification => threads.go move.thread verification env act
    | none =>
      match act with
      | .start call => if call.runsOn move.thread then threads.start mac accounts move.thread call env else (none, threads)
      | _ => (none, threads)

/-- A step that does not fit what the thread has under way does nothing. -/
def threads : Machine Threads Move (Option Outcome) where
  step := Threads.step mac accounts
  halts _ := false

end

end Hiya.Daemon
