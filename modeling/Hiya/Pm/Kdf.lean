import Hiya.Library.Bytes
import Hiya.Pm.Payload

/-! The front of the Argon2id key derivation of `pm_kdf.c`: the parameter check
that normalises the request, the bounded buffer the prehash input is assembled
in, and the hash `H0` every later block of the derivation depends on. -/

namespace Hiya.Pm
open Library

namespace Argon2

def version13 : UInt32 := 0x13
def typeId : UInt32 := 2
def saltSize : Nat := 32
def keySize : Nat := 32
def prehashDigestLength : Nat := 64
def prehashCapacity : Nat := 256

def defaultTCost : UInt32 := 3
def defaultMCostKib : UInt32 := 65536
def defaultParallelism : UInt32 := 1

def minTCost : UInt32 := 1
def maxTCost : UInt32 := 10
def minMCostKib : UInt32 := 8
def maxMCostKib : UInt32 := 1024 * 1024
def minParallelism : UInt32 := 1
def maxParallelism : UInt32 := 8

structure Params where
  tCost : UInt32
  mCostKib : UInt32
  parallelism : UInt32
  version : UInt32
  deriving DecidableEq

def Params.normalize (params : Params) : Params where
  tCost := if params.tCost = 0 then defaultTCost else params.tCost
  mCostKib := if params.mCostKib = 0 then defaultMCostKib else params.mCostKib
  parallelism := if params.parallelism = 0 then defaultParallelism else params.parallelism
  version := if params.version = 0 then version13 else params.version

/-- Validate and normalise: `pm_argon2id_validate_params` rewrites its argument
before it checks it. -/
def validateParams (given : Params) : Except PmError Params :=
  let params := given.normalize
  if params.version ≠ version13 then .error .kdf
  else if params.tCost < minTCost ∨ params.tCost > maxTCost then .error .kdf
  else if params.parallelism < minParallelism ∨ params.parallelism > maxParallelism then .error .kdf
  else if params.mCostKib < minMCostKib ∨ params.mCostKib > maxMCostKib then .error .kdf
  else if params.mCostKib < 8 * params.parallelism then .error .kdf
  else .ok params

/-- `pm_buf_t`: the bytes written so far and the room they were promised. -/
structure PmBuf where
  bytes : Bytes
  cap : Nat

/-- An append that does not fit leaves the buffer as it is and reports nothing. -/
def PmBuf.appendBytes (buf : PmBuf) (source : Bytes) : PmBuf :=
  if buf.bytes.length + source.length ≤ buf.cap then { buf with bytes := buf.bytes ++ source } else buf

def PmBuf.appendU32 (buf : PmBuf) (value : Nat) : PmBuf := buf.appendBytes (leBytes 4 value)

/-- The buffer `argon2_initial_hash` fills before it hashes. -/
def assemblePrehash (password : Bytes) (salt : Buf saltSize) (params : Params) : PmBuf :=
  ((PmBuf.mk [] prehashCapacity)
    |>.appendU32 params.parallelism.toNat
    |>.appendU32 keySize
    |>.appendU32 params.mCostKib.toNat
    |>.appendU32 params.tCost.toNat
    |>.appendU32 params.version.toNat
    |>.appendU32 typeId.toNat
    |>.appendU32 password.length
    |>.appendBytes password
    |>.appendU32 saltSize
    |>.appendBytes salt.bytes
    |>.appendU32 0
    |>.appendU32 0)

/-- What the derivation is asked for: the arguments of `pm_argon2id_derive`. -/
structure Request where
  password : Bytes
  salt : Buf saltSize
  params : Params
  deriving DecidableEq

section
variable (blake2b : Bytes → Nat → Bytes)

def initialHash (password : Bytes) (salt : Buf saltSize) (params : Params) : Except PmError Bytes :=
  let buf := assemblePrehash password salt params
  if buf.bytes.length > buf.cap then .error .internal else .ok (blake2b buf.bytes prehashDigestLength)

/-- The derivation up to `H0`: from here on the password and the salt are not
read again. -/
def deriveInitialHash (request : Request) : Except PmError Bytes := do
  if request.password.length = 0 then throw .invalidParam
  let params ← validateParams request.params
  initialHash blake2b request.password request.salt params

end

end Argon2

end Hiya.Pm
