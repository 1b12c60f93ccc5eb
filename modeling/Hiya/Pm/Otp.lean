import Hiya.Library.Base32
import Hiya.Pm.AuditExport

/-! One-time passwords, `pm_otp.c`: shared secrets and the codes made from them, and the URIs that
carry what a code is made from. -/

namespace Hiya.Pm.Otp
open Library

def toUpper (byte : UInt8) : UInt8 := if 97 ≤ byte ∧ byte ≤ 122 then byte - 32 else byte

structure Decoding where
  buffer : UInt64
  bitsLeft : Nat
  /-- How much is allocated. -/
  decodedLen : Nat
  decoded : Bytes

section
variable (memory : Nat → Bool)

/-- The block before a byte is stored: eight bytes more where it is full. -/
def grown (state : Decoding) : Option Nat :=
  if state.decoded.length < state.decodedLen then some state.decodedLen
  else if memory (state.decodedLen + 8) then some (state.decodedLen + 8)
  else none

/-- Five more bits in the buffer, whose highest bits fall off, and a byte where there are eight. -/
def decodeValue (state : Decoding) (value : Nat) : Option Decoding := do
  let buffer := state.buffer <<< 5 ||| UInt64.ofNat value
  let bitsLeft := state.bitsLeft + 5
  if bitsLeft ≥ 8 then
    let bitsLeft := bitsLeft - 8
    let decodedLen ← grown memory state
    some { buffer, bitsLeft, decodedLen, decoded := state.decoded ++ [(buffer >>> UInt64.ofNat bitsLeft &&& 0xFF).toUInt8] }
  else some { state with buffer, bitsLeft }

def ignored (char : UInt8) : Bool := char = 61 ∨ char = 32 ∨ char = 10 ∨ char = 13

def decodeChar (state : Decoding) (char : UInt8) : Option Decoding :=
  let char := toUpper char
  if ignored char then some state
  else do decodeValue memory state (← Base32.alphabet.idxOf? char)

/-- The length is taken times five as an unsigned word. The first argument says which requests
for memory are granted. -/
def base32Decode (encoded : CStr) : Option Bytes := do
  let decodedLen := encoded.bytes.length * 5 % (sizeMax + 1) / 8
  if memory (decodedLen + 1) then
    let state ← encoded.bytes.foldlM (decodeChar memory) { buffer := 0, bitsLeft := 0, decodedLen, decoded := [] }
    some state.decoded
  else none

end

inductive Algorithm
  | hotp
  | totp
  deriving DecidableEq, Repr

inductive Digest
  | sha1
  | sha256
  | sha512
  deriving DecidableEq, Repr

/-- `hmac_len`. -/
def Digest.length : Digest → Nat
  | .sha1 => 20
  | .sha256 => 32
  | .sha512 => 64

/-- `pm_otp_params_t`. -/
structure Params where
  algorithm : Algorithm
  digest : Digest
  secret : Bytes
  digits : UInt32
  period : UInt32
  counter : UInt64
  deriving DecidableEq

/-- `mbedtls_md_hmac` of a message under a key, or its failure. -/
abbrev Hmac := (digest : Digest) → Bytes → Bytes → Option (Buf digest.length)

def hotpTruncate (hmac : Bytes) (digits : UInt32) : Except PmError UInt32 :=
  if hmac.length < 20 then .error .invalidParam
  else
    let byte (place : Nat) : UInt32 := (hmac.getD place 0).toUInt32
    let offset := (hmac.getD (hmac.length - 1) 0 &&& 0x0F).toNat
    if offset + 4 > hmac.length then .error .crypto
    else
      let code := (byte offset &&& 0x7F) <<< 24 ||| byte (offset + 1) <<< 16 ||| byte (offset + 2) <<< 8 ||| byte (offset + 3)
      let divisor := (List.range digits.toNat).foldl (fun divisor _ => divisor * 10) (1 : UInt32)
      .ok (code % divisor)

/-- The loop from the last byte of the counter to the first. -/
def counterBytes (counter : UInt64) : Bytes :=
  ((List.range 8).foldl (fun (bytes, counter) _ => ((counter &&& 0xFF).toUInt8 :: bytes, counter >>> 8))
    (([] : Bytes), counter)).1

/-- `%0*u`. -/
def padded (width value : Nat) : Bytes := List.replicate (width - (Audit.unsigned value).length) 48 ++ Audit.unsigned value

section
variable (hmac : Hmac)

def otpHmac (params : Params) (counter : UInt64) : Except PmError Bytes :=
  match hmac params.digest params.secret (counterBytes counter) with
  | none => .error .crypto
  | some code => .ok code.bytes

/-- The size is that of the buffer for the code. -/
def hotpGenerate (params : Params) (codeSize : Nat) : Except PmError Bytes :=
  if codeSize < 9 then .error .invalidParam
  else if params.algorithm ≠ .hotp then .error .invalidParam
  else if params.digits ≠ 6 ∧ params.digits ≠ 8 then .error .invalidParam
  else do
    let code ← hotpTruncate (← otpHmac hmac params params.counter) params.digits
    .ok ((padded params.digits.toNat code.toNat).take (codeSize - 1))

def totpGenerate (params : Params) (currentTime : UInt64) (codeSize : Nat) : Except PmError Bytes :=
  if codeSize < 9 then .error .invalidParam
  else if params.algorithm ≠ .totp then .error .invalidParam
  else if params.period = 0 then .error .invalidParam
  else hotpGenerate hmac { params with algorithm := .hotp, counter := currentTime / params.period.toUInt64 } codeSize

def totpRemainingSeconds (period : UInt32) (currentTime : UInt64) : UInt32 :=
  if period = 0 then 0 else (period.toUInt64 - currentTime % period.toUInt64).toUInt32

end

/-- What there is memory for: the copy of the URI, the one of the secret, and its decoding. -/
structure UriMemory where
  copy : Bool
  secret : Bool
  decode : Nat → Bool

/-- The parameters so far, and the text of the secret. -/
structure Parsing where
  params : Params
  secretB32 : Option CStr

def questionMark : UInt8 := 63
def ampersand : UInt8 := 38

/-- `(uint32_t)atoi`. -/
def atoi (text : Bytes) : UInt32 := (Int32.ofInt (strtol text).value).toUInt32

/-- A token of the query; one without an equal sign is passed over. -/
def parseToken (memory : UriMemory) (state : Parsing) (token : Bytes) : Parsing :=
  let key := token.takeWhile (· ≠ equalSign)
  let value := token.drop (key.length + 1)
  if key.length = token.length then state
  else if key = literal "secret" then { state with secretB32 := if memory.secret then dupBytesAsCstr value else none }
  else if key = literal "digits" then { state with params := { state.params with digits := atoi value } }
  else if key = literal "period" then { state with params := { state.params with period := atoi value } }
  else if key = literal "counter" then { state with params := { state.params with counter := UInt64.ofNat (strtoull value).value.toNat } }
  else if key = literal "algorithm" then
    if value = literal "SHA256" then { state with params := { state.params with digest := .sha256 } }
    else if value = literal "SHA512" then { state with params := { state.params with digest := .sha512 } }
    else state
  else state

/-- `strtok_r`: what stands between the marks, where it is not empty. -/
def strtok (mark : UInt8) (text : Bytes) : List Bytes := (text.splitOn mark).filter (· ≠ [])

def parseAlgorithm (text : Bytes) : Except PmError Algorithm :=
  if literal "totp/" <+: text then .ok .totp
  else if literal "hotp/" <+: text then .ok .hotp
  else .error .format

def parseUri (memory : UriMemory) (uri : CStr) : Except PmError Params :=
  if ¬ literal "otpauth://" <+: uri.bytes then .error .format
  else do
    let algorithm ← parseAlgorithm (uri.bytes.drop 10)
    if memory.copy = false then .error .nomem
    else if questionMark ∉ uri.bytes then .error .format
    else
      let query := uri.bytes.drop ((uri.bytes.takeWhile (· ≠ questionMark)).length + 1)
      let start : Params := { algorithm, digest := .sha1, secret := [], digits := 6, period := 30, counter := 0 }
      let parsed := (strtok ampersand query).foldl (parseToken memory) { params := start, secretB32 := none }
      match parsed.secretB32.bind (base32Decode memory.decode) with
      | none => .error .format
      | some secret =>
        if secret = [] ∨ parsed.params.digits = 0 then .error .format
        else .ok { parsed.params with secret }

/-- The code and for how many seconds it is one. -/
def getLiveStatus (hmac : Hmac) (memory : UriMemory) (totpUri : CStr) (currentTime : UInt64) (codeSize : Nat) :
    Except PmError (Bytes × UInt32) :=
  if codeSize < 9 then .error .invalidParam
  else do
    let params ← parseUri memory totpUri
    if params.algorithm ≠ .totp then .error .unsupported
    else do
      let code ← totpGenerate hmac params currentTime codeSize
      .ok (code, totpRemainingSeconds params.period currentTime)

end Hiya.Pm.Otp
