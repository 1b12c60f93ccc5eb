import Hiya.Daemon.EnrollmentFiles
import Hiya.Daemon.Verification

/-! The operations that add and remove enrolments. Each of them saves the whole list
afterwards. -/

namespace Hiya.Daemon
open Library
open Fido2 (ascii)

def fingerNames : List (UInt8 × String) :=
  [(1, "left-thumb"), (2, "left-index-finger"), (3, "left-middle-finger"), (4, "left-ring-finger"),
    (5, "left-little-finger"), (6, "right-thumb"), (7, "right-index-finger"), (8, "right-middle-finger"),
    (9, "right-ring-finger"), (10, "right-little-finger")]

/-- The finger `bio_daemon_enroll_user` takes a name for; any other name is the right
index finger. -/
def fingerOfName (name : Name) : UInt8 :=
  ((fingerNames.find? fun entry => name = ascii entry.2).map Prod.fst).getD 7

def lower (byte : UInt8) : UInt8 := if 0x41 ≤ byte ∧ byte ≤ 0x5A then byte + 0x20 else byte

def isSpace (byte : UInt8) : Bool := byte = 0x20 ∨ (0x09 ≤ byte ∧ byte ≤ 0x0D)

def digits : Nat → Bytes → Option Nat
  | value, [] => some value
  | value, byte :: rest => if 0x30 ≤ byte ∧ byte ≤ 0x39 then digits (value * 10 + (byte.toNat - 0x30)) rest else none

/-- `strtol` in base 10 over the whole text. The callers only look at small values. -/
def wholeNumber (text : Name) : Option Int :=
  match text.dropWhile isSpace with
  | [] => none
  | [0x2B] => none
  | [0x2D] => none
  | 0x2B :: rest => (digits 0 rest).map fun value => (value : Int)
  | 0x2D :: rest => (digits 0 rest).map fun value => -(value : Int)
  | text => (digits 0 text).map fun value => (value : Int)

def fingerSpellings : List (UInt8 × List String) :=
  [(1, ["left-thumb", "left_thumb", "left thumb"]),
    (2, ["left-index-finger", "left_index_finger", "left index"]),
    (3, ["left-middle-finger", "left_middle_finger", "left middle"]),
    (4, ["left-ring-finger", "left_ring_finger", "left ring"]),
    (5, ["left-little-finger", "left_little_finger", "left little"]),
    (6, ["right-thumb", "right_thumb", "right thumb"]),
    (7, ["right-index-finger", "right_index_finger", "right index"]),
    (8, ["right-middle-finger", "right_middle_finger", "right middle"]),
    (9, ["right-ring-finger", "right_ring_finger", "right ring"]),
    (10, ["right-little-finger", "right_little_finger", "right little"])]

/-- A finger by its number or by one of its names, in any case. -/
def parseFingerIdString (text : Name) : Option UInt8 :=
  match wholeNumber text with
  | some number =>
    if 1 ≤ number ∧ number ≤ 10 then some (UInt8.ofNat number.toNat) else none
  | none => (fingerSpellings.find? fun entry => entry.2.any fun name => text.map lower = ascii name).map Prod.fst

def sameFinger (uid : Uid) (finger : UInt8) (enrolled : Enrollment) : Bool := enrolled.uid = uid ∧ enrolled.finger = finger

/-- Replace the first enrolment of the same finger. -/
def replaceFinger (new : Enrollment) : List Enrollment → List Enrollment
  | [] => []
  | old :: rest => if sameFinger new.uid new.finger old then new :: rest else old :: replaceFinger new rest

section
variable (env : Env)

/-- Replace the enrolment of the same finger, else append, if the list can grow. -/
def addEnrollment (new : Enrollment) (enrollments : List Enrollment) : Option (List Enrollment) :=
  if enrollments.any (sameFinger new.uid new.finger) then some (replaceFinger new enrollments)
  else if env.allocates then some (enrollments ++ [new])
  else none

/-- The first 63 bytes of a text in an array of zeros. -/
def labelOf (text : Name) : Buf labelSize := .ofBytes (Blob.ofSlice labelSize (text.take 63)).padded (Blob.padded_length _)

def sanitized (byte : UInt8) : UInt8 := if byte < 0x20 ∨ byte = 0x7F then 0x5F else byte

/-- The blob beside a template: none without a TPM, nor when sealing failed and the
policy does not insist. -/
def sealTemplate (d : State) (data : Blob maxPrintDataSize) : Except String (Blob maxSealedBlobSize) :=
  if !d.tpmAvailable then .ok (.empty _)
  else match env.seals data.bytes with
    | .ok sealedBlob => .ok sealedBlob
    | .error reason => if d.config.tpmRequire then .error reason else .ok (.empty _)

variable (mac : Buf 32 → Bytes → Buf 32) (accounts : Accounts)

/-- Store a new list and save it; what comes of the save is not looked at. -/
def State.keepEnrollments (enrollments : List Enrollment) (d : State) : State :=
  { d with enrollments, disk := (saveEnrollments mac env enrollments d.disk).2 }

/-- The sensor's template. A finger that is only on the chip is cleared from it and
taken again. -/
def enrollOnSensor : Except Bytes (Blob maxPrintDataSize) :=
  let failed (reason : String) := ascii "Enrollment failed: " ++ ascii reason
  let known := "Finger already enrolled on sensor (on-chip storage)"
  match env.capture with
  | .print data => .ok data
  | .failed reason => .error (failed reason)
  | .alreadyEnrolled =>
    if !env.clears then
      .error (ascii ("Finger already enrolled on sensor and chip clear failed. Clear manually: sudo dbus-send " ++
        "--system --print-reply --dest=org.hiya.Manager /org/hiya/Manager org.hiya.Manager.ClearDevice"))
    else match env.recapture with
      | .print data => .ok data
      | .failed reason => .error (failed reason)
      | .alreadyEnrolled => .error (failed known)

/-- The D-Bus method Enroll. Its second look at the limit, after the sensor, sees the
list of the first. -/
def enroll (caller : Uid) (finger : Int16) (label : Name) (d : State) : Outcome × State :=
  let refuse (kind : DBusError) (message : Bytes) : Outcome × State := (.quiet (.refused kind message), d)
  if finger < 1 ∨ finger > 10 then
    refuse .invalidArgs (ascii ("Invalid finger index " ++ toString finger.toInt ++ " (must be 1-10)"))
  else if !d.fpDev then refuse .failed (ascii "No fingerprint device available")
  else if (d.enrollmentsOf caller).length ≥ d.config.maxEnrollmentsPerUser then
    refuse .limitsExceeded (ascii "Maximum enrollments reached for this user")
  else if d.config.tpmRequire ∧ !d.tpmAvailable then refuse .failed (ascii "TPM is required by policy, but unavailable")
  else if d.shuttingDown then refuse .failed (ascii "Daemon shutting down")
  else match enrollOnSensor env with
    | .error message => refuse .failed message
    | .ok printData =>
      match sealTemplate env d printData with
      | .error reason =>
        refuse .failed (ascii "TPM is required by policy, and template sealing failed: " ++ ascii reason)
      | .ok sealedBlob =>
        let enrolled : Enrollment := {
          uid := caller
          finger := UInt8.ofNat finger.toInt.toNat
          printData
          sealedBlob
          label := labelOf (label.map sanitized)
          created := Int64.ofInt env.time }
        match addEnrollment env enrolled d.enrollments with
        | none => (.quiet (.matched false), d)
        | some enrollments => (.quiet (.matched true), d.keepEnrollments env mac enrollments)

/-- `bio_daemon_enroll_user`. It appends, also when the finger is enrolled already. -/
def daemonEnrollUser (user finger : Name) (d : State) : Outcome × State :=
  let answer (code : BioCode) : Outcome × State := (.quiet (.returned code), d)
  match accounts.uidOf user with
  | none => answer .notFound
  | some uid =>
    if !d.fpDev then answer .io
    else if (d.enrollmentsOf uid).length ≥ d.config.maxEnrollmentsPerUser then answer .alreadyExists
    else if d.config.tpmRequire ∧ !d.tpmAvailable then answer .permission
    else if d.shuttingDown then answer .io
    else match env.capture with
      | .alreadyEnrolled => answer (.sensor "Finger already enrolled on sensor (on-chip storage)")
      | .failed reason => answer (.sensor reason)
      | .print printData =>
        if !env.allocates then answer .nomem
        else match sealTemplate env d printData with
          | .error _ => answer .permission
          | .ok sealedBlob =>
            let enrolled : Enrollment := {
              uid
              finger := fingerOfName finger
              printData
              sealedBlob
              label := labelOf finger
              created := Int64.ofInt env.later }
            (.quiet (.returned .ok), d.keepEnrollments env mac (d.enrollments ++ [enrolled]))

/-- Remove the first enrolment of a finger. -/
def State.removeFinger (uid : Uid) (finger : UInt8) (d : State) : State :=
  d.keepEnrollments env mac (d.enrollments.eraseP (sameFinger uid finger))

def removeFinger (caller : Uid) (fingerId : Name) (d : State) : Outcome × State :=
  match parseFingerIdString fingerId with
  | none => (.quiet (.refused .invalidArgs (ascii "Invalid finger_id: " ++ fingerId)), d)
  | some finger =>
    if d.enrollments.any (sameFinger caller finger) then (.quiet .done, d.removeFinger env mac caller finger)
    else (.quiet (.refused .unknownObject (ascii "No enrollment found for " ++ fingerId)), d)

/-- DeleteEnrollment. A number that is no byte is no finger. -/
def deleteEnrollment (caller : Uid) (finger : Int16) (d : State) : Outcome × State :=
  if 0 ≤ finger ∧ finger ≤ 255 ∧ d.enrollments.any (sameFinger caller (UInt8.ofNat finger.toInt.toNat)) then
    (.quiet (.matched true), d.removeFinger env mac caller (UInt8.ofNat finger.toInt.toNat))
  else (.quiet (.matched false), d)

/-- `bio_daemon_delete_enrollments`: all of a user's. -/
def deleteEnrollments (user : Name) (d : State) : Outcome × State :=
  match accounts.uidOf user with
  | none => (.quiet (.returned .notFound), d)
  | some uid => (.quiet (.returned .ok), d.keepEnrollments env mac (d.enrollments.filter fun enrolled => enrolled.uid ≠ uid))

end

end Hiya.Daemon
