import Hiya.Daemon.Verification

/-! The three copies of the loop over a user's templates in `bio_daemon.c`, each with the
variables and the exits of its own. They record what they hand to the sensor. -/

namespace Hiya.Daemon
open Library

/-- `bio_daemon_tpm_plaintext_fallback_allowed`. The loops do not call it. -/
def tpmPlaintextFallbackAllowed (cfg : Option Config) : Bool :=
  match cfg with
  | none => false
  | some cfg => cfg.tpmFallbackToPlaintext && !cfg.tpmRequire

/-- One call of `bio_fp_verify`: the bytes it was given, whose they are, and its answer. -/
structure Contact where
  template : Enrollment
  data : Bytes
  matched : Bool
  deriving DecidableEq

section
variable (env : Env) (policy : TpmPolicy)

structure VerifyVars where
  matched : Bool
  policyDenied : Bool
  session : Session
  matchedFinger : Option UInt8
  contacts : List Contact

/-- The data of Verify: chosen from nothing, branch by branch. No data is a `continue`. -/
def verifyData (vi : Nat) (enrolled : Enrollment) : Option Bytes :=
  if enrolled.sealedBlob.bytes.length > 0 then
    if !policy.available then
      if policy.require then none
      else some enrolled.printData.bytes
    else if !env.locks vi then none
    else match env.unseals vi enrolled.sealedBlob.bytes with
      | some unsealed =>
        if unsealed.length > 0 then some unsealed
        else if policy.fallback && !policy.require then some enrolled.printData.bytes
        else none
      | none =>
        if policy.fallback && !policy.require then some enrolled.printData.bytes
        else none
  else if policy.require then none
  else some enrolled.printData.bytes

/-- After a match: the session is verified first, and unverified again if its token cannot
be made. -/
def VerifyVars.confirm (vi : Nat) (enrolled : Enrollment) (vars : VerifyVars) : VerifyVars :=
  let vars := { vars with matched := true, session := { vars.session with verified := true }, matchedFinger := some enrolled.finger }
  match issueToken env vars.session vi with
  | none => { vars with matched := false, session := { vars.session with verified := false }, matchedFinger := none }
  | some verifyToken => { vars with session := { vars.session with verifyToken, hasVerifyToken := true } }

def verifyLoop : Nat → List Enrollment → VerifyVars → VerifyVars
  | _, [], vars => vars
  | vi, enrolled :: rest, vars =>
    if vars.matched then vars
    else match verifyData env policy vi enrolled with
      | none => verifyLoop (vi + 1) rest { vars with policyDenied := true }
      | some data =>
        let answer := env.fpVerify vi data
        let vars := { vars with contacts := vars.contacts ++ [{ template := enrolled, data, matched := answer }] }
        verifyLoop (vi + 1) rest (if answer then vars.confirm env vi enrolled else vars)

structure VerifyUserVars where
  matched : Bool
  policyDenied : Bool
  contacts : List Contact

/-- The choice of VerifyUser is written as that of Verify. -/
def verifyUserData : Nat → Enrollment → Option Bytes := verifyData env policy

def verifyUserLoop : Nat → List Enrollment → VerifyUserVars → VerifyUserVars
  | _, [], vars => vars
  | vi, enrolled :: rest, vars =>
    if vars.matched then vars
    else match verifyUserData env policy vi enrolled with
      | none => verifyUserLoop (vi + 1) rest { vars with policyDenied := true }
      | some data =>
        let answer := env.fpVerify vi data
        let vars := { vars with contacts := vars.contacts ++ [{ template := enrolled, data, matched := answer }] }
        verifyUserLoop (vi + 1) rest (if answer then { vars with matched := true } else vars)

structure DaemonVars where
  rc : BioCode
  policyDenied : Bool
  contacts : List Contact

/-- The data of `bio_daemon_verify_user`: the stored template, unless the unsealed one
takes its place. Its buffer is not locked. -/
def daemonVerifyData (i : Nat) (enrolled : Enrollment) : Option Bytes := do
  let mut printData := enrolled.printData.bytes
  if enrolled.sealedBlob.bytes.length > 0 then
    if !policy.available then
      if policy.require then failure
    else
      match env.unseals i enrolled.sealedBlob.bytes with
      | some unsealed =>
        if unsealed.length > 0 then printData := unsealed
        else if !(policy.fallback && !policy.require) then failure
      | none => if !(policy.fallback && !policy.require) then failure
  else if policy.require then failure
  return printData

def daemonVerifyLoop : Nat → List Enrollment → DaemonVars → DaemonVars
  | _, [], vars => vars
  | i, enrolled :: rest, vars =>
    match daemonVerifyData env policy i enrolled with
    | none => daemonVerifyLoop (i + 1) rest { vars with policyDenied := true }
    | some data =>
      let answer := env.fpVerify i data
      let vars := { vars with contacts := vars.contacts ++ [{ template := enrolled, data, matched := answer }] }
      if answer then { vars with rc := .ok } else daemonVerifyLoop (i + 1) rest vars

def verifyRun (session : Session) (own : List Enrollment) : VerifyVars :=
  verifyLoop env policy 0 own { matched := false, policyDenied := false, session, matchedFinger := none, contacts := [] }

def verifyUserRun (own : List Enrollment) : VerifyUserVars :=
  verifyUserLoop env policy 0 own { matched := false, policyDenied := false, contacts := [] }

def daemonVerifyRun (own : List Enrollment) : DaemonVars :=
  daemonVerifyLoop env policy 0 own { rc := .noMatch, policyDenied := false, contacts := [] }

end

end Hiya.Daemon
