import Hiya.Daemon.Calls

/-! A small daemon to run concrete calls on: users who are named by one byte, a sensor
that knows the templates of a list, and no TPM unless one is given. -/

namespace Hiya.Daemon
open Library

theorem ten_enrollments : 10 ≤ 100 := Nat.le_of_ble_eq_true rfl

def plainConfig : Config where
  maxSessions := 64
  sessionMaxAge := 300
  maxEnrollmentsPerUser := 10
  rateLimitMaxAttempts := 5
  rateLimitLockoutSeconds := 30
  rateLimitWindowSeconds := 60
  tpmFallbackToPlaintext := false
  tpmRequire := false
  enrollmentsBounded := ten_enrollments

def plainState (enrollments : List Enrollment) : State where
  config := plainConfig
  sessions _ := .zero
  sessionCount := 0
  enrollments
  limiters := .empty
  tpmAvailable := false
  fpDev := true
  shuttingDown := false
  vaultUnlocked _ := false
  disk := { hmacKey := none, files := [] }

/-- The user with uid `n` has the one-byte name `n + 1`. -/
def plainAccounts : Accounts where
  uidOf name := match name with
    | [byte] => if byte = 0 then none else some (byte.toUInt32 - 1)
    | _ => none
  nameOf uid := if uid < 255 then some [uid.toUInt8 + 1] else none

/-- Surroundings in which everything works, at a time, with a finger on the sensor that
matches the given templates. -/
def calmEnv (time : Int) (known : List Bytes) : Env where
  time
  later := time
  checkedAt := time
  recordedAt := time
  allocates := true
  locks _ := true
  unseals _ _ := none
  fpVerify _ data := known.contains data
  stamp _ := time
  nonce _ := some (.zero 16)
  hmac _ _ := some (.zero 32)
  token := some (.zero 32)
  sessionKey := some (.zero 32)
  locksKey := true
  howdyAvailable := false
  howdyVerifies _ := false
  vaultOpens _ := true
  capture := .print (.ofSlice _ [1])
  clears := true
  recapture := .print (.ofSlice _ [1])
  seals _ := .error "no TPM"
  newKey := some (.zero 32)
  makesDir _ := true
  opensFile _ := true
  writesFile _ := true
  renamesFile _ := true

/-- A template of one byte that is not sealed. -/
def plainTemplate (uid : Uid) (finger byte : UInt8) : Enrollment where
  uid
  finger
  printData := .ofSlice _ [byte]
  sealedBlob := .empty _
  label := .zero _
  created := 0

def sealedTemplate (uid : Uid) (finger byte : UInt8) : Enrollment :=
  { plainTemplate uid finger byte with sealedBlob := .ofSlice _ [byte] }

def plainMac (_ : Buf 32) (_ : Bytes) : Buf 32 := .zero 32

/-- The user with uid 1, and a finger that is not theirs. -/
def strangerRequest : Request := { call := .fprintdVerify [2], env := calmEnv 1 [] }

def served (request : Request) (d : State) : State := (serve plainMac plainAccounts request d).2

/-- The user with uid 1 has been locked out by five guesses. -/
def lockedState : State :=
  served strangerRequest (served strangerRequest (served strangerRequest (served strangerRequest (served strangerRequest
    (plainState [plainTemplate 1 1 7])))))

end Hiya.Daemon
