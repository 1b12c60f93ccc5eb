import Hiya.Daemon.RateLimiter
import Hiya.Library.Buf
import Mathlib.Data.Fintype.Basic

/-! The state of `bio_daemon.c` that authentication reads and writes, what a call can
find around it, and the table of sessions. -/

namespace Hiya.Daemon
open Library

/-- User names and names on the bus: C strings without their terminator. -/
abbrev Name := Bytes

def maxSessionSlots : Nat := 64
def maxPrintDataSize : Nat := 8192
def maxSealedBlobSize : Nat := 1024
def labelSize : Nat := 64

abbrev SessionSlot := Fin maxSessionSlots

/-- A stored template. Fingers are numbered from 1 to 10, 0 is none of them. -/
structure Enrollment where
  uid : Uid
  finger : UInt8
  printData : Blob maxPrintDataSize
  sealedBlob : Blob maxSealedBlobSize
  label : Buf labelSize
  created : Int64
  deriving DecidableEq

structure Session where
  token : Buf 32
  sessionKey : Buf 32
  uid : Uid
  created : Int
  lastUsed : Int
  active : Bool
  verified : Bool
  verifyToken : Buf 32
  hasVerifyToken : Bool
  sender : Name

def Session.zero : Session where
  token := .zero 32
  sessionKey := .zero 32
  uid := 0
  created := 0
  lastUsed := 0
  active := false
  verified := false
  verifyToken := .zero 32
  hasVerifyToken := false
  sender := []

/-- The state directory: the key of the file trailers, and the enrolment file of each
user directory that has one, in the order in which the directory lists them. -/
structure StateDir where
  hmacKey : Option (Buf 32)
  files : List (Uid × Bytes)

structure State where
  config : Config
  sessions : SessionSlot → Session
  sessionCount : Nat
  enrollments : List Enrollment
  limiters : RateLimiters
  tpmAvailable : Bool
  fpDev : Bool
  shuttingDown : Bool
  vaultUnlocked : Uid → Bool
  disk : StateDir

/-- The user database, as `getpwnam_r` and `getpwuid_r` read it. -/
structure Accounts where
  uidOf : Name → Option Uid
  nameOf : Uid → Option Name

inductive Capture
  | print (data : Blob maxPrintDataSize)
  | alreadyEnrolled
  | failed (reason : String)

/-- What a call finds around it: clocks, randomness, the sensor, the TPM, howdy, the
vault library and the file system. Things that are tried once for each template are
numbered by it. -/
structure Env where
  /-- Wall clock when the request comes in. -/
  time : Int
  /-- Wall clock once the sensor has been used. -/
  later : Int
  /-- Monotonic clock at the rate-limit check and at the bookkeeping. -/
  checkedAt : Int
  recordedAt : Int
  allocates : Bool
  locks : Nat → Bool
  unseals : Nat → Bytes → Option Bytes
  fpVerify : Nat → Bytes → Bool
  stamp : Nat → Int
  nonce : Nat → Option (Buf 16)
  hmac : Buf 32 → Bytes → Option (Buf 32)
  token : Option (Buf 32)
  sessionKey : Option (Buf 32)
  locksKey : Bool
  howdyAvailable : Bool
  howdyVerifies : Name → Bool
  vaultOpens : Uid → Bool
  capture : Capture
  clears : Bool
  recapture : Capture
  seals : Bytes → Except String (Blob maxSealedBlobSize)
  newKey : Option (Buf 32)
  makesDir : Uid → Bool
  opensFile : Uid → Bool
  writesFile : Uid → Bool
  renamesFile : Uid → Bool

namespace State

def sessionCapacity (d : State) : Nat := min (max d.config.maxSessions 1) maxSessionSlots

def sessionSlots (d : State) : List SessionSlot :=
    (List.finRange maxSessionSlots).filter fun slot => slot.val < d.sessionCapacity

def putSession (slot : SessionSlot) (session : Session) (d : State) : State :=
  { d with sessions := Function.update d.sessions slot session }

def expired (now : Int) (session : Session) (d : State) : Bool := now - session.created > d.config.sessionMaxAge

/-- Wipe the key of a session that is over, and count it out. -/
def closeSession (slot : SessionSlot) (d : State) : State :=
  { d.putSession slot { d.sessions slot with sessionKey := .zero 32, active := false } with
    sessionCount := d.sessionCount - 1 }

end State

/-- The walk of `find_session` closes the expired sessions it passes. -/
def findSessionFrom (now : Int) (token : Bytes) : List SessionSlot → State → Option SessionSlot × State
  | [], d => (none, d)
  | slot :: rest, d =>
    if !(d.sessions slot).active then findSessionFrom now token rest d
    else if d.expired now (d.sessions slot) then findSessionFrom now token rest (d.closeSession slot)
    else if (d.sessions slot).token.bytes = token then
      (some slot, d.putSession slot { d.sessions slot with lastUsed := now })
    else findSessionFrom now token rest d

def findSession (now : Int) (token : Bytes) (d : State) : Option SessionSlot × State :=
  if token.length ≠ 32 then (none, d) else findSessionFrom now token d.sessionSlots d

/-- The session created first, if it was created before now. -/
def oldestSession (d : State) (now : Int) : List SessionSlot → Option SessionSlot → Option SessionSlot
  | [], best => best
  | slot :: rest, best =>
    let time := (best.map fun best => (d.sessions best).created).getD now
    oldestSession d now rest (if (d.sessions slot).created < time then some slot else best)

/-- The slot a new session goes to: the first that is free or over, else the oldest. -/
def chooseSlot (now : Int) (d : State) : Option SessionSlot :=
  (d.sessionSlots.find? fun slot => !(d.sessions slot).active || d.expired now (d.sessions slot)) <|>
    oldestSession d now d.sessionSlots none

def createSession (env : Env) (now : Int) (uid : Uid) (sender : Name) (d : State) : Option SessionSlot × State :=
  match chooseSlot now d with
  | none => (none, d)
  | some slot =>
    let d := if (d.sessions slot).active then d.closeSession slot else d
    match env.token, env.sessionKey with
    | some token, some sessionKey =>
      if env.locksKey then
        let session := { Session.zero with
          token, sessionKey, uid, created := now, lastUsed := now, active := true, sender := sender.take 255 }
        (some slot, { d.putSession slot session with sessionCount := d.sessionCount + 1 })
      else (none, d.putSession slot .zero)
    | _, _ => (none, d.putSession slot .zero)

/-- A session that another connection made is not its sender's to use. -/
def Session.belongsTo (session : Session) (sender : Name) : Bool := session.sender = [] ∨ sender = session.sender

def revokeFrom (uid : Uid) (sender : Name) : List SessionSlot → State → State
  | [], d => d
  | slot :: rest, d =>
    let session := d.sessions slot
    if session.active && session.uid = uid && session.belongsTo sender then
      revokeFrom uid sender rest { d.putSession slot .zero with sessionCount := d.sessionCount - 1 }
    else revokeFrom uid sender rest d

def revokeSessionsForSender (uid : Uid) (sender : Name) (d : State) : State := revokeFrom uid sender d.sessionSlots d

end Hiya.Daemon
