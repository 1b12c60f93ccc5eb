import Hiya.Library.Ring

/-! The fingerprint device of `bio_fingerprint.c`: a template is compared with the finger on the
sensor, and comparisons without a match are limited by a rate limiter inside of the device. -/

namespace Hiya.Fingerprint
open Library

def failureSlots : Nat := 32

theorem failureSlots_pos : 0 < failureSlots := Nat.zero_lt_succ 31

structure RateConfig where
  maxAttempts : Nat
  lockoutSeconds : Nat
  windowSeconds : Nat

def bioFpRateDefault : RateConfig where
  maxAttempts := 5
  lockoutSeconds := 30
  windowSeconds := 60

structure Rate where
  config : RateConfig
  failures : Fin failureSlots → Int
  failureCount : Nat
  failureIdx : Nat
  lockoutUntil : Int

def Rate.clear (config : RateConfig) : Rate where
  config
  failures _ := 0
  failureCount := 0
  failureIdx := 0
  lockoutUntil := 0

/-- `bio_fp_check_rate_limit`: the seconds left of a lockout. One that is over is cleared. -/
def bioFpCheckRateLimit (now : Int) (rate : Rate) : Option Int × Rate :=
  if rate.lockoutUntil > now then (some (rate.lockoutUntil - now), rate)
  else if rate.lockoutUntil > 0 then (none, .clear rate.config)
  else (none, rate)

def bioFpRecordFailure (now : Int) (rate : Rate) : Rate :=
  let recent := ringCount rate.failures rate.failureCount fun time => now - time ≤ rate.config.windowSeconds
  let noted := { rate with
    failures := Function.update rate.failures ⟨rate.failureIdx % failureSlots, Nat.mod_lt _ failureSlots_pos⟩ now
    failureIdx := (rate.failureIdx + 1) % failureSlots
    failureCount := if rate.failureCount < failureSlots then rate.failureCount + 1 else rate.failureCount }
  if recent + 1 ≥ rate.config.maxAttempts then { noted with lockoutUntil := now + rate.config.lockoutSeconds } else noted

def bioFpResetRateLimit (rate : Rate) : Rate := .clear rate.config

/-- What libfprint reports of a template: a template it cannot read, a timeout and an error of
the device are all failures. -/
inductive Scan
  | matched
  | noMatch
  | failed
  deriving DecidableEq

inductive FpCode
  | ok
  | noMatch
  | rateLimit
  | failed
  deriving DecidableEq

/-- `bio_fp_verify`, with the clock before the scan and after it. -/
def bioFpVerify (checkedAt notedAt : Int) (scan : Scan) (rate : Rate) : FpCode × Rate :=
  match bioFpCheckRateLimit checkedAt rate with
  | (some _, rate) => (.rateLimit, rate)
  | (none, rate) =>
    match scan with
    | .matched => (.ok, bioFpResetRateLimit rate)
    | .noMatch => (.noMatch, bioFpRecordFailure notedAt rate)
    | .failed => (.failed, rate)

end Hiya.Fingerprint
