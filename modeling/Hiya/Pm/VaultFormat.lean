import Hiya.Library.Fields
import Hiya.Pm.Kdf

/-! The container of a vault, `pm_vault_format.c`: a header of 128 bytes, a block with the
parameters of the key derivation, the encrypted payload and a MAC of all of it. A file is
parsed in place; to read past its end is a fault. -/

namespace Hiya.Pm.Format
open Library

def headerSize : Nat := 128
def hmacSize : Nat := 32
def ivSize : Nat := 12
def gcmTagSize : Nat := 16
def saltSize : Nat := 32
def masterKeySize : Nat := 32

def kdfAlgArgon2id : Nat := 1
def encAlgAes256Gcm : Nat := 1
def payloadCodecCbor : Nat := 2

def headerCrcOffset : Nat := 0x18
def gcmTagOffset : Nat := 0x60
def aadLen : Nat := headerSize
def versionMajorSupported : UInt8 := 1
def kdfBlockVersionMajor : Nat := 1
def kdfBlockVersionMinor : Nat := 0

def magic : Buf 8 := .ofBytes [0x50, 0x4D, 0x56, 0x4C, 0x54, 0x00, 0x01, 0x00] rfl

def crc32Bit (crc : UInt32) : UInt32 := (crc >>> 1) ^^^ (0xEDB88320 &&& (0 - (crc &&& 1)))

def crc32Byte (crc : UInt32) (byte : UInt8) : UInt32 := Nat.repeat crc32Bit 8 (crc ^^^ byte.toUInt32)

def crc32Bytes (data : Bytes) : UInt32 := ~~~ data.foldl crc32Byte 0xFFFFFFFF

abbrev Header := Buf headerSize

theorem gcmTag_fits : gcmTagOffset + gcmTagSize ≤ headerSize := by decide

def headerPrepareAuthenticatedView (header : Header) : Header := header.store gcmTagOffset (.zero gcmTagSize) gcmTag_fits

def headerCrc32Authenticated (header : Header) : UInt32 :=
  crc32Bytes ((headerPrepareAuthenticatedView header).store headerCrcOffset (.le 4 0) (by decide)).bytes

structure CompositeMode where
  usePassword : Bool
  useBiometric : Bool
  useKeyfile : Bool
  useYubikey : Bool
  deriving DecidableEq, Repr

def compositeModeFromFlags (flags : UInt32) : CompositeMode where
  usePassword := flags &&& 1 ≠ 0
  useBiometric := flags &&& 2 ≠ 0
  useKeyfile := flags &&& 4 ≠ 0
  useYubikey := flags &&& 8 ≠ 0

/-- The combinations in the order of their numbers: password, biometric, keyfile, yubikey. -/
def compositeModes : List CompositeMode := [
  ⟨true, false, false, false⟩, ⟨false, true, false, false⟩, ⟨true, true, false, false⟩, ⟨true, false, true, false⟩,
  ⟨true, false, false, true⟩, ⟨true, true, true, false⟩, ⟨true, true, false, true⟩, ⟨true, false, true, true⟩,
  ⟨true, true, true, true⟩, ⟨false, false, true, false⟩, ⟨false, false, false, true⟩, ⟨false, true, true, false⟩,
  ⟨false, true, false, true⟩, ⟨false, false, true, true⟩, ⟨false, true, true, true⟩]

def compositeModeFromEnum (raw : UInt16) : Option CompositeMode := compositeModes[raw.toNat]?

structure Params where
  versionMajor : UInt8
  versionMinor : UInt8
  flags : UInt32
  fileSequence : UInt64
  argon2 : Argon2.Params
  compositeMode : UInt16
  deriving DecidableEq

/-- Parameters a header does not hold, before the block behind it is read. -/
def defaultArgon2 : Argon2.Params where
  tCost := 3
  mCostKib := 65536
  parallelism := 1
  version := 0x13

/-- What the format uses of the cryptographic library. -/
structure Primitives where
  gcmSeal : Buf masterKeySize → Buf ivSize → Bytes → Bytes → Option (Bytes × Buf gcmTagSize)
  gcmOpen : Buf masterKeySize → Buf ivSize → Bytes → Bytes → Buf gcmTagSize → Option Bytes
  hkdf : Buf saltSize → Buf masterKeySize → Bytes → Option (Buf 32)
  hmac : Buf 32 → Bytes → Option (Buf hmacSize)

/-- Opening undoes sealing, and a ciphertext is as long as its plaintext. -/
structure Primitives.Lawful (lib : Primitives) : Prop where
  opens : ∀ {key iv aad plain cipher tag}, lib.gcmSeal key iv aad plain = some (cipher, tag) →
    lib.gcmOpen key iv aad cipher tag = some plain
  length : ∀ {key iv aad plain cipher tag}, lib.gcmSeal key iv aad plain = some (cipher, tag) → cipher.length = plain.length

/-- What a call finds: whether the library is ready, what it has of randomness, and which
blocks of memory there are. -/
structure Env where
  cryptoReady : Bool
  randomSalt : Option (Buf saltSize)
  randomIv : Option (Buf ivSize)
  allocates : Nat → Bool

def ptrdiffMax : Nat := 2 ^ 63 - 1

/-- No block is larger than a pointer difference can tell. -/
def Env.malloc (env : Env) (size : Nat) : Bool := decide (size ≤ ptrdiffMax) && env.allocates size

def orFail {α ε : Type} (problem : ε) : Option α → Except ε α
  | some value => .ok value
  | none => .error problem

def ensure {ε : Type} (condition : Prop) [Decidable condition] (problem : ε) : Except ε Unit :=
  if condition then .ok () else .error problem

def hmacInfo : Bytes := "PMVLT-HMAC-v1".toUTF8.toList

def deriveHmacKey (lib : Primitives) (masterKey : Buf masterKeySize) (salt : Buf saltSize) : Except PmError (Buf 32) :=
  orFail .kdf (lib.hkdf salt masterKey hmacInfo)

structure WriteRequest where
  params : Params
  masterKey : Buf masterKeySize
  payload : Bytes
  salt : Option (Buf saltSize)
  iv : Option (Buf ivSize)

def tlv (type : Nat) (value : Bytes) : Bytes := leBytes 2 type ++ (leBytes 2 0 ++ (leBytes 4 value.length ++ value))

def kdfTlvs (params : Params) : List (Nat × Bytes) := [
  (0x0001, leBytes 4 params.argon2.tCost.toNat),
  (0x0002, leBytes 4 params.argon2.mCostKib.toNat),
  (0x0003, leBytes 4 params.argon2.parallelism.toNat),
  (0x0004, leBytes 4 Argon2.keySize),
  (0x0005, leBytes 4 params.argon2.version.toNat),
  (0x0010, leBytes 2 params.compositeMode.toNat)]

def kdfBlockLen : Nat := 78

def buildKdfBlock (params : Params) : Bytes :=
  leBytes 2 kdfBlockVersionMajor ++ (leBytes 2 kdfBlockVersionMinor ++ (leBytes 4 6 ++
    (kdfTlvs params).flatMap fun entry => tlv entry.1 entry.2))

def plainHeader (params : Params) (payloadLen : Nat) (salt : Buf saltSize) (iv : Buf ivSize) : Header :=
  (Buf.zero headerSize)
    |>.store 0x00 magic (by decide)
    |>.store 0x08 (.single params.versionMajor) (by decide)
    |>.store 0x09 (.single params.versionMinor) (by decide)
    |>.store 0x0A (.le 2 headerSize) (by decide)
    |>.store 0x0C (.le 4 params.flags.toNat) (by decide)
    |>.store 0x10 (.le 8 params.fileSequence.toNat) (by decide)
    |>.store 0x18 (.le 4 0) (by decide)
    |>.store 0x1C (.le 2 kdfAlgArgon2id) (by decide)
    |>.store 0x1E (.le 2 encAlgAes256Gcm) (by decide)
    |>.store 0x20 (.le 2 payloadCodecCbor) (by decide)
    |>.store 0x22 (.le 2 0) (by decide)
    |>.store 0x24 (.le 4 kdfBlockLen) (by decide)
    |>.store 0x28 (.le 8 payloadLen) (by decide)
    |>.store 0x30 salt (by decide)
    |>.store 0x50 iv (by decide)
    |>.store 0x5C (.le 4 aadLen) (by decide)

def checkedHeader (header : Header) : Header :=
  header.store headerCrcOffset (.le 4 (headerCrc32Authenticated header).toNat) (by decide)

section
variable (lib : Primitives) (env : Env)

def vaultSerialize (request : WriteRequest) : Except PmError Bytes := do
  ensure (request.payload ≠ []) .invalidParam
  ensure (env.cryptoReady = true) .crypto
  ensure (request.params.versionMajor = versionMajorSupported) .formatVersion
  let _ ← Argon2.validateParams request.params.argon2
  let enumMode ← orFail .format (compositeModeFromEnum request.params.compositeMode)
  ensure (compositeModeFromFlags request.params.flags = enumMode) .format
  ensure (env.malloc kdfBlockLen = true) .nomem
  let kdfBlock := buildKdfBlock request.params
  let salt ← orFail .crypto (request.salt.or env.randomSalt)
  let iv ← orFail .crypto (request.iv.or env.randomIv)
  let header := checkedHeader (plainHeader request.params request.payload.length salt iv)
  let aad := (headerPrepareAuthenticatedView header).bytes
  ensure (env.malloc request.payload.length = true) .nomem
  let (ciphertext, tag) ← orFail .crypto (lib.gcmSeal request.masterKey iv aad request.payload)
  let header := header.store gcmTagOffset tag gcmTag_fits
  let hmacKey ← deriveHmacKey lib request.masterKey salt
  ensure (env.malloc (headerSize + kdfBlock.length + request.payload.length + hmacSize) = true) .nomem
  let body := header.bytes ++ (kdfBlock ++ ciphertext)
  let mac ← orFail .crypto (lib.hmac hmacKey body)
  pure (body ++ mac.bytes)

end

inductive Stop
  | error (problem : PmError)
  | fault
  deriving DecidableEq, Repr

def ofPm {α : Type} : Except PmError α → Except Stop α
  | .ok value => .ok value
  | .error problem => .error (.error problem)

def fetch (blob : Bytes) (place count : Nat) : Except Stop Bytes :=
  if place + count ≤ blob.length then .ok ((blob.drop place).take count) else .error .fault

def load (blob : Bytes) (place width : Nat) : Except Stop Nat := do pure (leNat (← fetch blob place width))

/-- What the block behind the header has told so far. -/
structure KdfScan where
  argon2 : Argon2.Params
  compositeMode : UInt16
  mode : CompositeMode
  haveCompositeMode : Bool

def kdfNumber (blob : Bytes) (place vlen : Nat) (record : UInt32 → KdfScan) : Except Stop KdfScan := do
  ensure (vlen = 4) (.error .format)
  pure (record (UInt32.ofNat (← load blob place 4)))

def kdfEntry (blob : Bytes) (type place vlen : Nat) (scan : KdfScan) : Except Stop KdfScan :=
  if type = 0x0001 then kdfNumber blob place vlen fun value => { scan with argon2 := { scan.argon2 with tCost := value } }
  else if type = 0x0002 then kdfNumber blob place vlen fun value => { scan with argon2 := { scan.argon2 with mCostKib := value } }
  else if type = 0x0003 then kdfNumber blob place vlen fun value => { scan with argon2 := { scan.argon2 with parallelism := value } }
  else if type = 0x0004 then do
    ensure (vlen = 4) (.error .format)
    ensure ((← load blob place 4) = Argon2.keySize) (.error .format)
    pure scan
  else if type = 0x0005 then kdfNumber blob place vlen fun value => { scan with argon2 := { scan.argon2 with version := value } }
  else if type = 0x0010 then do
    ensure (vlen = 2) (.error .format)
    let compositeMode := UInt16.ofNat (← load blob place 2)
    let mode ← orFail (.error .format) (compositeModeFromEnum compositeMode)
    pure { scan with compositeMode, mode, haveCompositeMode := true }
  else pure scan

/-- So many entries from a place on; `finish` is the end of the block as the header tells it. -/
def kdfEntries (blob : Bytes) (finish : Nat) : Nat → Nat → KdfScan → Except Stop KdfScan
  | 0, _, scan => .ok scan
  | count + 1, place, scan => do
    ensure (8 ≤ finish - place) (.error .format)
    let type ← load blob place 2
    let vlen ← load blob (place + 4) 4
    ensure (vlen ≤ finish - (place + 8)) (.error .format)
    let scan ← kdfEntry blob type (place + 8) vlen scan
    kdfEntries blob finish count (place + 8 + vlen) scan

/-- The parameters of the key derivation and the mode, from the block behind the header. -/
def parseKdfBlockMetadata (blob : Bytes) (kdfLen : Nat) (flags : UInt32) : Except Stop KdfScan := do
  ensure (8 ≤ kdfLen) (.error .format)
  ensure ((← load blob headerSize 2) = kdfBlockVersionMajor) (.error .formatVersion)
  ensure ((← load blob (headerSize + 2) 2) = kdfBlockVersionMinor) (.error .formatVersion)
  let flagsMode := compositeModeFromFlags flags
  let count ← load blob (headerSize + 4) 4
  let scan ← kdfEntries blob (headerSize + kdfLen) count (headerSize + 8)
    { argon2 := defaultArgon2, compositeMode := 0, mode := flagsMode, haveCompositeMode := false }
  ensure (scan.haveCompositeMode = true → flagsMode = scan.mode) (.error .format)
  let argon2 ← ofPm (Argon2.validateParams scan.argon2)
  pure { scan with argon2 }

structure Metadata where
  params : Params
  mode : CompositeMode
  kdfBlockLen : Nat
  payloadLen : Nat
  salt : Buf saltSize
  iv : Buf ivSize

/-- The checks of the header on its own, in their order. -/
def checkHeader (header : Header) : Except PmError Unit := do
  ensure (header.field 0x00 8 (by decide) = magic) .formatMagic
  ensure ((header.field 0x0A 2 (by decide)).leValue = headerSize) .formatVersion
  ensure ((header.field headerCrcOffset 4 (by decide)).leValue = (headerCrc32Authenticated header).toNat) .formatIntegrity
  ensure ((header.field 0x1C 2 (by decide)).leValue = kdfAlgArgon2id) .formatVersion
  ensure ((header.field 0x1E 2 (by decide)).leValue = encAlgAes256Gcm) .formatVersion
  ensure ((header.field 0x20 2 (by decide)).leValue = payloadCodecCbor) .formatVersion
  ensure ((header.field 0x5C 4 (by decide)).leValue = aadLen) .format

/-- The front of a file that is long enough. -/
def headerOf (blob : Bytes) : Header := .ofBytes (Blob.ofSlice headerSize blob).padded (Blob.padded_length _)

def byteAt (header : Header) (offset : Nat) (fits : offset + 1 ≤ headerSize) : UInt8 :=
    UInt8.ofNat (header.field offset 1 fits).leValue

def vaultParseMetadata (blob : Bytes) : Except Stop Metadata := do
  ensure (headerSize + hmacSize ≤ blob.length) (.error .format)
  let header := headerOf blob
  ofPm (checkHeader header)
  let kdfLen := (header.field 0x24 4 (by decide)).leValue
  let payloadLen := (header.field 0x28 8 (by decide)).leValue
  ensure ((headerSize + kdfLen + payloadLen + hmacSize) % 2 ^ 64 = blob.length) (.error .format)
  let versionMajor := byteAt header 0x08 (by decide)
  ensure (versionMajor = versionMajorSupported) (.error .formatVersion)
  let flags := UInt32.ofNat (header.field 0x0C 4 (by decide)).leValue
  let scan ← parseKdfBlockMetadata blob kdfLen flags
  pure {
    params := {
      versionMajor
      versionMinor := byteAt header 0x09 (by decide)
      flags
      fileSequence := UInt64.ofNat (header.field 0x10 8 (by decide)).leValue
      argon2 := scan.argon2
      compositeMode := scan.compositeMode }
    mode := scan.mode
    kdfBlockLen := kdfLen
    payloadLen
    salt := header.field 0x30 saltSize (by decide)
    iv := header.field 0x50 ivSize (by decide) }

structure ReadResult where
  params : Params
  salt : Buf saltSize
  iv : Buf ivSize
  payload : Bytes

def vaultDeserialize (lib : Primitives) (env : Env) (blob : Bytes) (masterKey : Buf masterKeySize) :
    Except Stop ReadResult := do
  ensure (env.cryptoReady = true) (.error .crypto)
  let metadata ← vaultParseMetadata blob
  let header := headerOf blob
  let hmacKey ← ofPm (deriveHmacKey lib masterKey metadata.salt)
  let expected ← orFail (.error .crypto) (lib.hmac hmacKey (blob.take (blob.length - hmacSize)))
  let tail ← fetch blob ((headerSize + metadata.kdfBlockLen + metadata.payloadLen) % 2 ^ 64) hmacSize
  ensure (expected.bytes = tail) (.error .formatIntegrity)
  ensure (env.malloc metadata.payloadLen = true) (.error .nomem)
  let aad := (headerPrepareAuthenticatedView header).bytes
  let ciphertext ← fetch blob (headerSize + metadata.kdfBlockLen) metadata.payloadLen
  let payload ← orFail (.error .aeadTag)
    (lib.gcmOpen masterKey metadata.iv aad ciphertext (header.field gcmTagOffset gcmTagSize gcmTag_fits))
  pure { params := metadata.params, salt := metadata.salt, iv := metadata.iv, payload }

end Hiya.Pm.Format
