import Hiya.Daemon.Calls

/-! `pam_sm_authenticate` of `pam_hiya.c`: the daemon is asked for a session of the user
who wants in, and then to verify it. Other clients are served between its calls. -/

namespace Hiya.Pam
open Library Daemon

structure PamConfig where
  tryFirst : Bool
  fallback : Bool

/-- One option of the module. The others only set a timeout or add messages. -/
def PamConfig.option (config : PamConfig) (argument : String) : PamConfig :=
  if argument = "try_first" then { config with tryFirst := true }
  else if argument = "fallback" then { config with fallback := true }
  else if argument = "nofallback" then { config with fallback := false }
  else config

def parseConfig (arguments : List String) : PamConfig := arguments.foldl .option { tryFirst := false, fallback := true }

inductive PamResult
  | success
  | ignore
  | authErr
  | userUnknown
  deriving DecidableEq, Repr

/-- What the module meets: whether the bus and the daemon answer, the surroundings of its
two calls that change the daemon, and the calls of others before each of them. -/
structure World where
  connects : Bool
  hasDevice : Bool
  answersCount : Bool
  beforeCreate : List Request
  createEnv : Env
  answersCreate : Bool
  beforeVerify : List Request
  verifyEnv : Env
  answersVerify : Bool

section
variable (mac : Buf 32 → Bytes → Buf 32) (accounts : Accounts)

def serveAll (requests : List Request) (d : State) : State :=
  requests.foldl (fun d request => (serve mac accounts request d).2) d

/-- GetEnrolledFingers: a user's own, or anybody's for root. -/
def getEnrolledFingers (caller uid : Uid) (d : State) : Option Bytes :=
  if caller ≠ 0 ∧ caller ≠ uid then none else some ((d.enrollmentsOf uid).map Enrollment.finger)

def getEnrolledCount (world : World) (caller uid : Uid) (d : State) : Option Nat :=
  if world.answersCount then (getEnrolledFingers caller uid d).map List.length else none

/-- The token of a new session for the user. -/
def createSession (world : World) (caller : Uid) (sender : Name) (uid : Uid) (d : State) : Option (Buf 32) × State :=
  let (outcome, d) := serve mac accounts { call := .createSession caller sender (some uid), env := world.createEnv } d
  match outcome.reply, world.answersCreate with
  | .token token, true => (some token, d)
  | _, _ => (none, d)

/-- Whether the session verifies, with what the sensor was asked. -/
def callVerify (world : World) (caller : Uid) (sender : Name) (token : Buf 32) (d : State) : Option Bool × Outcome × State :=
  let (outcome, d) := serve mac accounts { call := .verify caller sender token.bytes, env := world.verifyEnv } d
  match outcome.reply, world.answersVerify with
  | .matched done, true => (some done, outcome, d)
  | _, _ => (none, outcome, d)

/-- A call of the module: what it returns, what the sensor was asked in it, and the
enrolments it was asked about. -/
structure Verdict where
  result : PamResult
  comparisons : List Comparison
  stored : List Enrollment

def Verdict.early (result : PamResult) (d : State) : Verdict := { result, comparisons := [], stored := d.enrollments }

/-- An application with a uid of its own authenticates a user through the module. -/
def pamSmAuthenticate (config : PamConfig) (world : World) (caller : Uid) (sender : Name) (username : Option Name)
    (d : State) :
    Verdict :=
  let giveUp (other : PamResult) (d : State) : Verdict := .early (if config.fallback then .ignore else other) d
  match username with
  | none => giveUp .authErr d
  | some [] => giveUp .authErr d
  | some username =>
    match accounts.uidOf username with
    | none => giveUp .userUnknown d
    | some uid =>
      if !world.connects then giveUp .authErr d
      else if !world.hasDevice then giveUp .authErr d
      -- a count that cannot be had does not end the attempt
      else if getEnrolledCount world caller uid d = some 0 then .early (if config.tryFirst then .authErr else .ignore) d
      else
        match createSession mac accounts world caller sender uid (serveAll mac accounts world.beforeCreate d) with
        | (none, d) => giveUp .authErr d
        | (some token, d) =>
          let d := serveAll mac accounts world.beforeVerify d
          match callVerify mac accounts world caller sender token d with
          | (none, outcome, _) =>
            { result := if config.fallback then .ignore else .authErr, comparisons := outcome.comparisons, stored := d.enrollments }
          | (some true, outcome, _) => { result := .success, comparisons := outcome.comparisons, stored := d.enrollments }
          | (some false, outcome, _) =>
            { result := if config.tryFirst then .authErr else .ignore, comparisons := outcome.comparisons
              stored := d.enrollments }

end

end Hiya.Pam
