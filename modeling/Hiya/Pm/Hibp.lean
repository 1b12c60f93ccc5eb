import Hiya.Pm.SecurityAudit

/-! The answer of the breach service, as `pm_hibp_parse_response` reads it: a line for each hash
of the range, with the rest of the hash and how often its password was seen. -/

namespace Hiya.Pm.Hibp
open Library

/-- `strncasecmp` finds no difference. -/
def sameStart (size : Nat) (first second : Bytes) : Bool :=
    sameLetters (cString (first.take size)) (cString (second.take size))

def colon : UInt8 := 58

/-- What stands behind the colon, cut off where the buffer for it is full. -/
def parseCount (count : Bytes) : Option UInt64 :=
  let parsed := strtoull (cString (count.take 31))
  if parsed.outOfRange = false ∧ parsed.rest = [] then some (UInt64.ofNat parsed.value.toNat) else none

def parseLine (targetSuffix line : Bytes) : Option UInt64 :=
  let line := if line.getLast? = some carriageReturn then line.dropLast else line
  let suffix := line.takeWhile (· ≠ colon)
  if suffix.length < line.length then
    if suffix.length = 35 ∧ sameStart 35 suffix targetSuffix then
      let count := line.drop (suffix.length + 1)
      if count ≠ [] then parseCount count else none
    else none
  else none

/-- The loop over what is left of the response, which the first argument bounds: no result if
that is too small. -/
def parseResponse (targetSuffix : Bytes) : Nat → Bytes → Option (Option UInt64)
  | 0, _ => none
  | _ + 1, [] => some none
  | rounds + 1, byte :: rest =>
    let line := (byte :: rest).takeWhile (· ≠ newline)
    match parseLine targetSuffix line with
    | some count => some (some count)
    | none => parseResponse targetSuffix rounds ((byte :: rest).drop (line.length + 1))

end Hiya.Pm.Hibp
