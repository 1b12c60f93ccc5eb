import Hiya.Library.Bytes
import Mathlib.Logic.Function.Basic
import Mathlib.Data.List.Nodup
import Mathlib.Data.List.OfFn

/-! The per-user rate limiter of `bio_daemon.c`: a table with one entry for each uid
that was ever looked up, in which the entry that has been quiet longest makes room. -/

namespace Hiya.Daemon
open Library

abbrev Uid := UInt32

def maxRateLimiters : Nat := 128
def failureRing : Nat := 32

theorem failureRing_pos : 0 < failureRing := Nat.zero_lt_succ 31

/-- Times are seconds of the monotonic clock. -/
structure RateLimiter where
  uid : Uid
  failureCount : Nat
  failures : Fin failureRing → Int
  failureIdx : Nat
  lockoutUntil : Int
  consecutiveLockouts : Nat

def RateLimiter.fresh (uid : Uid) : RateLimiter where
  uid
  failureCount := 0
  failures _ := 0
  failureIdx := 0
  lockoutUntil := 0
  consecutiveLockouts := 0

/-- The entries in use, at most one for each uid. -/
structure RateLimiters where
  entries : List RateLimiter
  short : entries.length ≤ maxRateLimiters
  distinct : (entries.map RateLimiter.uid).Nodup

namespace RateLimiters

theorem short_modify (table : RateLimiters) (place : Nat) (change : RateLimiter → RateLimiter) :
    (table.entries.modify place change).length ≤ maxRateLimiters := by
  rw [List.length_modify]
  exact table.short

theorem short_set (table : RateLimiters) (place : Nat) (entry : RateLimiter) :
    (table.entries.set place entry).length ≤ maxRateLimiters := by
  rw [List.length_set]
  exact table.short

theorem short_snoc {table : RateLimiters} (room : table.entries.length < maxRateLimiters) (entry : RateLimiter) :
    (table.entries ++ [entry]).length ≤ maxRateLimiters := by
  rw [List.length_append]
  exact room

theorem uids_put (entries : List RateLimiter) (entry : RateLimiter) :
    (entries.modify (entries.findIdx fun other => other.uid = entry.uid) fun _ => entry).map RateLimiter.uid =
      entries.map RateLimiter.uid := by
  induction entries with
  | nil => rfl
  | cons first rest ih =>
    by_cases here : first.uid = entry.uid
    · simp [List.findIdx_cons, here]
    · simpa [List.findIdx_cons, here] using ih

theorem fresh_absent {table : RateLimiters} {uid : Uid}
    (unknown : ¬ (table.entries.any fun entry => entry.uid = uid) = true) :
    uid ∉ table.entries.map RateLimiter.uid := by
  intro inside
  obtain ⟨entry, there, same⟩ := List.mem_map.mp inside
  exact unknown (List.any_eq_true.mpr ⟨entry, there, decide_eq_true same⟩)

theorem distinct_snoc {table : RateLimiters} {uid : Uid}
    (unknown : ¬ (table.entries.any fun entry => entry.uid = uid) = true) :
    ((table.entries ++ [RateLimiter.fresh uid]).map RateLimiter.uid).Nodup := by
  rw [List.map_append, List.map_singleton]
  exact List.Nodup.append table.distinct (List.nodup_singleton _) (List.disjoint_singleton.mpr (fresh_absent unknown))

theorem distinct_set {table : RateLimiters} {uid : Uid}
    (unknown : ¬ (table.entries.any fun entry => entry.uid = uid) = true) (place : Nat) :
    ((table.entries.set place (.fresh uid)).map RateLimiter.uid).Nodup := by
  rw [List.map_set]
  exact table.distinct.set (fresh_absent unknown)

def empty : RateLimiters := ⟨[], Nat.zero_le _, List.nodup_nil⟩

/-- The entry of a uid. One that has none yet gets a fresh one when it is looked up. -/
def get (table : RateLimiters) (uid : Uid) : RateLimiter :=
  (table.entries.find? fun entry => entry.uid = uid).getD (.fresh uid)

def put (entry : RateLimiter) (table : RateLimiters) : RateLimiters where
  entries := table.entries.modify (table.entries.findIdx fun other => other.uid = entry.uid) fun _ => entry
  short := table.short_modify _ _
  distinct := uids_put table.entries entry ▸ table.distinct

end RateLimiters

/-- The last thing to happen to an entry: a failure, or the end of a lockout. -/
def RateLimiter.latest (entry : RateLimiter) : Int :=
  max ((List.ofFn entry.failures).foldl max 0) entry.lockoutUntil

/-- The place of the first entry among those that are latest earliest. -/
def oldestFrom (best : Nat) (time : Int) : Nat → List RateLimiter → Nat
  | _, [] => best
  | place, entry :: rest =>
    if entry.latest < time then oldestFrom place entry.latest (place + 1) rest
    else oldestFrom best time (place + 1) rest

def oldest : List RateLimiter → Nat
  | [] => 0
  | entry :: rest => oldestFrom 0 entry.latest 1 rest

def findRateLimiter (uid : Uid) (table : RateLimiters) : RateLimiters :=
  if known : table.entries.any fun entry => entry.uid = uid then table
  else if room : table.entries.length < maxRateLimiters then
    ⟨table.entries ++ [.fresh uid], RateLimiters.short_snoc room _, RateLimiters.distinct_snoc known⟩
  else ⟨table.entries.set (oldest table.entries) (.fresh uid), table.short_set _ _, RateLimiters.distinct_set known _⟩

/-- What the configuration file may set, within the bounds its parser enforces. -/
structure Config where
  maxSessions : Nat
  sessionMaxAge : Nat
  maxEnrollmentsPerUser : Nat
  rateLimitMaxAttempts : Nat
  rateLimitLockoutSeconds : Nat
  rateLimitWindowSeconds : Nat
  tpmFallbackToPlaintext : Bool
  tpmRequire : Bool
  enrollmentsBounded : maxEnrollmentsPerUser ≤ 100

/-- Refuse a uid that is locked out, with the seconds it still has to wait. An
expired lockout takes the failures before it along. -/
def RateLimiter.checked (now : Int) (entry : RateLimiter) : RateLimiter :=
  if entry.lockoutUntil > now then entry
  else if entry.lockoutUntil > 0 then { entry with lockoutUntil := 0, failureCount := 0, failureIdx := 0 }
  else entry

def checkVerifyRateLimit (now : Int) (uid : Uid) (table : RateLimiters) : Option Int × RateLimiters :=
  let table := findRateLimiter uid table
  let entry := table.get uid
  (if entry.lockoutUntil > now then some (entry.lockoutUntil - now) else none, table.put (entry.checked now))

def RateLimiter.recent (config : Config) (now : Int) (entry : RateLimiter) : Nat :=
  (List.finRange failureRing).countP fun place =>
    place.val < entry.failureCount ∧ now - entry.failures place ≤ config.rateLimitWindowSeconds

/-- Seconds of the next lockout: twice as long each time, up to an hour. -/
def RateLimiter.lockout (config : Config) (entry : RateLimiter) : Nat :=
  min (config.rateLimitLockoutSeconds * 2 ^ min entry.consecutiveLockouts 6) 3600

def RateLimiter.recorded (config : Config) (now : Int) (entry : RateLimiter) : RateLimiter :=
  let noted := { entry with
    failures := Function.update entry.failures ⟨entry.failureIdx % failureRing, Nat.mod_lt _ failureRing_pos⟩ now
    failureIdx := entry.failureIdx + 1
    failureCount := if entry.failureCount < failureRing then entry.failureCount + 1 else entry.failureCount }
  if entry.recent config now + 1 ≥ config.rateLimitMaxAttempts then
    { noted with
      lockoutUntil := now + entry.lockout config
      consecutiveLockouts := entry.consecutiveLockouts + 1 }
  else noted

def recordVerifyFailure (config : Config) (now : Int) (uid : Uid) (table : RateLimiters) : RateLimiters :=
  let table := findRateLimiter uid table
  table.put ((table.get uid).recorded config now)

def RateLimiter.reset (entry : RateLimiter) : RateLimiter :=
  { entry with failureCount := 0, failureIdx := 0, lockoutUntil := 0, consecutiveLockouts := 0, failures := fun _ => 0 }

def resetVerifyRateLimit (uid : Uid) (table : RateLimiters) : RateLimiters :=
  let table := findRateLimiter uid table
  table.put (table.get uid).reset

end Hiya.Daemon
