import Hiya.Daemon.Enrollments
import Hiya.Library.Runs

/-! The daemon as a machine that is fed with calls. Handlers run one after the other on
the main loop; a call of the fprintd worker is served like one of theirs, as it runs where
nothing comes between its critical sections. -/

namespace Hiya.Daemon
open Library
open Fido2 (ascii)

inductive Call
  | authenticate (caller : Uid) (sender : Name)
  | authenticateInteractive (caller : Uid) (sender : Name)
  | revokeSession (caller : Uid) (sender : Name)
  /-- A uid is passed along by callers that speak for somebody else. -/
  | createSession (caller : Uid) (sender : Name) (requested : Option Uid)
  | verify (caller : Uid) (sender : Name) (token : Bytes)
  | verifyUser (caller : Uid) (trustedPortal : Bool) (username : Name)
  | fprintdVerify (username : Name)
  | enroll (caller : Uid) (finger : Int16) (label : Name)
  | fprintdEnroll (username finger : Name)
  | removeFinger (caller : Uid) (fingerId : Name)
  | deleteEnrollment (caller : Uid) (finger : Int16)
  | deleteEnrollments (username : Name)
  | reload (config : Config)
  | restart

structure Request where
  call : Call
  env : Env

section
variable (mac : Buf 32 → Bytes → Buf 32) (accounts : Accounts) (env : Env)

/-- Only root may ask for a session of somebody else. -/
def sessionUid (caller : Uid) (requested : Option Uid) : Uid := if caller = 0 then requested.getD caller else caller

def createSessionCall (caller : Uid) (sender : Name) (requested : Option Uid) (d : State) : Outcome × State :=
  match createSession env env.time (sessionUid caller requested) sender d with
  | (none, d) => (.quiet (.refused .limitsExceeded (ascii "Session limit exceeded")), d)
  | (some slot, d) => (.quiet (.token (d.sessions slot).token), d)

/-- Close the sessions beyond the capacity. -/
def pruneSessions (d : State) : State :=
  ((List.finRange maxSessionSlots).filter fun slot => d.sessionCapacity ≤ slot.val).foldl
    (fun d slot => if (d.sessions slot).active then d.closeSession slot else d) d

/-- The state a daemon starts with: nothing but what its directory holds. -/
def State.started (d : State) : State :=
  let (loaded, disk) := loadEnrollments mac env d.disk
  { d with
    sessions := fun _ => .zero
    sessionCount := 0
    enrollments := loaded.getD []
    limiters := .empty
    shuttingDown := false
    vaultUnlocked := fun _ => false
    disk }

/-- A whole call, with nothing of another call between its steps. -/
def serve (request : Request) (d : State) : Outcome × State :=
  match request.call with
  | .authenticate caller sender => authenticate accounts request.env caller sender d
  | .authenticateInteractive caller sender => authenticateInteractive accounts request.env caller sender d
  | .revokeSession caller sender => (.quiet .done, revokeSessionsForSender caller sender d)
  | .createSession caller sender requested => createSessionCall request.env caller sender requested d
  | .verify caller sender token => verify request.env caller sender token d
  | .verifyUser caller trustedPortal username => verifyUser accounts request.env caller trustedPortal username d
  | .fprintdVerify username => daemonVerifyUser accounts request.env username d
  | .enroll caller finger label => enroll request.env mac caller finger label d
  | .fprintdEnroll username finger => daemonEnrollUser request.env mac accounts username finger d
  | .removeFinger caller fingerId => removeFinger request.env mac caller fingerId d
  | .deleteEnrollment caller finger => deleteEnrollment request.env mac caller finger d
  | .deleteEnrollments username => deleteEnrollments request.env mac accounts username d
  | .reload config => (.quiet .done, pruneSessions { d with config })
  | .restart => (.quiet .done, d.started mac request.env)

def daemon : Machine State Request Outcome where
  step := serve mac accounts
  halts _ := false

end

end Hiya.Daemon
