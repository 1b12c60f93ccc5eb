import Hiya.Daemon.State
import Hiya.Fido2.Context

/-! The ways to be verified by `bio_daemon.c`. Verify, VerifyUser and the internal entry
point each have their own copy of the loop over a user's templates. -/

namespace Hiya.Daemon
open Library
open Fido2 (ascii)

structure TpmPolicy where
  available : Bool
  fallback : Bool
  require : Bool

def State.tpmPolicy (d : State) : TpmPolicy where
  available := d.tpmAvailable
  fallback := d.config.tpmFallbackToPlaintext
  require := d.config.tpmRequire

/-- The data of a template that goes to the sensor, unless the policy denies it. -/
def chooseTemplate (env : Env) (policy : TpmPolicy) (locks : Bool) (number : Nat) (template : Enrollment) :
    Option Bytes :=
  if template.sealedBlob.bytes ≠ [] then
    if !policy.available then
      if policy.require then none else some template.printData.bytes
    else if !locks then none
    else match env.unseals number template.sealedBlob.bytes with
      | some (first :: rest) => some (first :: rest)
      | _ => if policy.fallback && !policy.require then some template.printData.bytes else none
  else if policy.require then none
  else some template.printData.bytes

/-- A template that was put to the sensor, and its answer. -/
structure Comparison where
  template : Enrollment
  matched : Bool
  deriving DecidableEq

structure Trial where
  comparisons : List Comparison
  /-- The match that counts, with the number of its template. -/
  accepted : Option (Nat × Enrollment)
  policyDenied : Bool

/-- Try one template after the other, up to a match that counts. -/
def tryTemplates (env : Env) (policy : TpmPolicy) (locks counts : Nat → Bool) : Nat → List Enrollment → Trial
  | _, [] => { comparisons := [], accepted := none, policyDenied := false }
  | number, template :: rest =>
    match chooseTemplate env policy (locks number) number template with
    | none => { tryTemplates env policy locks counts (number + 1) rest with policyDenied := true }
    | some data =>
      let matched := env.fpVerify number data
      if matched && counts number then
        { comparisons := [{ template, matched }], accepted := some (number, template), policyDenied := false }
      else
        let later := tryTemplates env policy locks counts (number + 1) rest
        { later with comparisons := { template, matched } :: later.comparisons }

def State.enrollmentsOf (d : State) (uid : Uid) : List Enrollment := d.enrollments.filter fun enrolled => enrolled.uid = uid

inductive DBusError
  | authFailed
  | accessDenied
  | limitsExceeded
  | invalidArgs
  | unknownObject
  | failed
  deriving DecidableEq, Repr

/-- The codes the internal entry points return. -/
inductive BioCode
  | ok
  | notFound
  | rateLimit
  | nomem
  | io
  | permission
  | noMatch
  | alreadyExists
  | sensor (reason : String)
  deriving DecidableEq, Repr

inductive Reply
  | refused (kind : DBusError) (message : Bytes)
  | authenticated (done : Bool) (method : String)
  | token (bytes : Buf 32)
  | matched (done : Bool)
  | returned (code : BioCode)
  | done
  deriving DecidableEq

/-- What a call answers, and what the sensor was asked on the way. -/
structure Outcome where
  reply : Reply
  comparisons : List Comparison

def Outcome.quiet (reply : Reply) : Outcome := { reply, comparisons := [] }

def rateLimited (seconds : Int) : Reply :=
  .refused .limitsExceeded (ascii ("Rate limited: try again in " ++ toString seconds ++ " seconds"))

section
variable (accounts : Accounts) (env : Env)

/-- Open the vault of a user who has been verified, if it opens that way. -/
def autoUnlockUserVault (uid : Uid) (d : State) : State :=
  if env.vaultOpens uid then { d with vaultUnlocked := Function.update d.vaultUnlocked uid true } else d

/-- The token a match is confirmed with: a MAC over uid, time and a nonce. -/
def issueToken (session : Session) (number : Nat) : Option (Buf 32) :=
  (env.nonce number).bind fun nonce =>
    env.hmac session.sessionKey
      (leBytes 4 session.uid.toNat ++ leBytes 8 (Int64.ofInt (env.stamp number)).toUInt64.toNat ++ nonce.bytes)

/-- What the loop leaves in the session. A match without its token takes back an
earlier verification; no match at all leaves it standing. -/
def Session.judged (session : Session) (trial : Trial) : Session :=
  match trial.accepted with
  | some (number, _) =>
    { session with
      verified := true
      verifyToken := (issueToken env session number).getD session.verifyToken
      hasVerifyToken := true }
  | none => if trial.comparisons.any Comparison.matched then { session with verified := false } else session

def verify (caller : Uid) (sender : Name) (token : Bytes) (d : State) : Outcome × State :=
  match findSession env.time token d with
  | (none, d) => (.quiet (.refused .authFailed (ascii "Invalid or expired session")), d)
  | (some slot, d) =>
    let session := d.sessions slot
    if caller ≠ 0 ∧ session.uid ≠ caller then
      (.quiet (.refused .accessDenied (ascii "Session belongs to another user")), d)
    else if !session.belongsTo sender then
      (.quiet (.refused .accessDenied (ascii "Session bound to different connection")), d)
    else
      -- the limiter of the caller, whoever the session belongs to
      match checkVerifyRateLimit env.checkedAt caller d.limiters with
      | (some seconds, limiters) => (.quiet (rateLimited seconds), { d with limiters })
      | (none, limiters) =>
        let d := { d with limiters }
        let own := d.enrollmentsOf session.uid
        if !d.fpDev then (.quiet (.refused .failed (ascii "No fingerprint device")), d)
        else if own ≠ [] ∧ !env.allocates then (.quiet (.refused .failed (ascii "Out of memory")), d)
        else if d.shuttingDown then (.quiet (.refused .failed (ascii "Daemon shutting down")), d)
        else
          let trial := tryTemplates env d.tpmPolicy env.locks (fun number => (issueToken env session number).isSome) 0 own
          let d := d.putSession slot (session.judged env trial)
          if trial.accepted.isNone ∧ trial.policyDenied then
            ({ reply := .refused .failed (ascii "TPM is required by policy; verification denied without TPM-sealed data")
               comparisons := trial.comparisons }, d)
          else if trial.accepted.isSome then
            ({ reply := .matched true, comparisons := trial.comparisons },
              autoUnlockUserVault env caller { d with limiters := resetVerifyRateLimit caller d.limiters })
          else
            ({ reply := .matched false, comparisons := trial.comparisons },
              { d with limiters := recordVerifyFailure d.config env.recordedAt caller d.limiters })

def verifyUser (caller : Uid) (trustedPortal : Bool) (username : Name) (d : State) : Outcome × State :=
  if username = [] then (.quiet (.refused .invalidArgs (ascii "Username is required")), d)
  else match accounts.uidOf username with
    | none => (.quiet (.refused .invalidArgs (ascii "Unknown user: " ++ username)), d)
    | some target =>
      if caller ≠ 0 ∧ ¬ (trustedPortal ∧ caller = target) then
        (.quiet (.refused .accessDenied (ascii "Not authorized for VerifyUser (root or trusted portal only)")), d)
      else
        match checkVerifyRateLimit env.checkedAt target d.limiters with
        | (some seconds, limiters) => (.quiet (rateLimited seconds), { d with limiters })
        | (none, limiters) =>
          let d := { d with limiters }
          let own := d.enrollmentsOf target
          if !d.fpDev then (.quiet (.refused .failed (ascii "No fingerprint device")), d)
          else if own ≠ [] ∧ !env.allocates then (.quiet (.refused .failed (ascii "Out of memory")), d)
          else if d.shuttingDown then (.quiet (.refused .failed (ascii "Daemon shutting down")), d)
          else
            let trial := tryTemplates env d.tpmPolicy env.locks (fun _ => true) 0 own
            if trial.accepted.isNone ∧ trial.policyDenied then
              ({ reply := .refused .failed (ascii "TPM is required by policy; VerifyUser denied without TPM-sealed data")
                 comparisons := trial.comparisons }, d)
            else if trial.accepted.isSome then
              ({ reply := .matched true, comparisons := trial.comparisons },
                autoUnlockUserVault env target { d with limiters := resetVerifyRateLimit target d.limiters })
            else
              ({ reply := .matched false, comparisons := trial.comparisons },
                { d with limiters := recordVerifyFailure d.config env.recordedAt target d.limiters })

/-- `bio_daemon_verify_user`. Its buffer for unsealed templates is not locked. -/
def daemonVerifyUser (user : Name) (d : State) : Outcome × State :=
  match accounts.uidOf user with
  | none => (.quiet (.returned .notFound), d)
  | some uid =>
    match checkVerifyRateLimit env.checkedAt uid d.limiters with
    | (some _, limiters) => (.quiet (.returned .rateLimit), { d with limiters })
    | (none, limiters) =>
      let d := { d with limiters }
      let own := d.enrollmentsOf uid
      if own = [] then (.quiet (.returned .notFound), d)
      else if !env.allocates then (.quiet (.returned .nomem), d)
      else if !d.fpDev then (.quiet (.returned .io), d)
      else if d.shuttingDown then (.quiet (.returned .io), d)
      else
        let trial := tryTemplates env d.tpmPolicy (fun _ => true) (fun _ => true) 0 own
        if trial.policyDenied ∧ trial.accepted.isNone then
          ({ reply := .returned .permission, comparisons := trial.comparisons }, d)
        else if trial.accepted.isSome then
          ({ reply := .returned .ok, comparisons := trial.comparisons },
            { d with limiters := resetVerifyRateLimit uid d.limiters })
        else
          ({ reply := .returned .noMatch, comparisons := trial.comparisons },
            { d with limiters := recordVerifyFailure d.config env.recordedAt uid d.limiters })

/-- The caller's user name, if it fits a buffer of 256 bytes. -/
def usernameForUid (uid : Uid) : Option Name := (accounts.nameOf uid).filter fun name => name.length < 256

/-- A verified session for a caller who was recognised, and the vault opened. -/
def letIn (caller : Uid) (sender : Name) (d : State) : State :=
  let d := match createSession env env.later caller sender d with
    | (some slot, d) => d.putSession slot { d.sessions slot with verified := true, hasVerifyToken := false }
    | (none, d) => d
  autoUnlockUserVault env caller d

/-- Whatever the fingerprint is refused for, a face may do instead. -/
def authenticateWith (answer : Bool → String → Reply) (caller : Uid) (sender : Name) (d : State) : Outcome × State :=
  match usernameForUid accounts caller with
  | none => (.quiet (.refused .failed (ascii "Unable to resolve caller username")), d)
  | some username =>
    let (finger, d) := daemonVerifyUser accounts env username d
    if finger.reply = .returned .ok then ({ finger with reply := answer true "fingerprint" }, letIn env caller sender d)
    else if env.howdyAvailable ∧ env.howdyVerifies username then
      ({ finger with reply := answer true "face" }, letIn env caller sender d)
    else ({ finger with reply := answer false "none" }, d)

def authenticate : Uid → Name → State → Outcome × State := authenticateWith accounts env .authenticated

def authenticateInteractive : Uid → Name → State → Outcome × State :=
  authenticateWith accounts env fun done _ => .matched done

end

end Hiya.Daemon
