import Hiya.Tpm.Commands

/-! How `bio_tpm.c` reads a response: a cursor with an error flag that stays up. Reading beyond the
response and writing beyond a buffer, which C leaves without a meaning, are faults here. -/

namespace Hiya.Tpm
open Library

inductive Fault
  | read
  | write
  deriving DecidableEq, Repr

inductive Stop
  | code (code : TpmCode)
  | fault (fault : Fault)
  deriving DecidableEq, Repr

/-- `bio_tpm_unmarshal_t` over the bytes that came. -/
structure Unmarshal where
  buf : Bytes
  size : Nat
  offset : Nat
  error : Bool
  deriving DecidableEq, Repr

def unmarshalInit (buf : Bytes) (size : Nat) : Unmarshal := { buf, size, offset := 0, error := false }

namespace Unmarshal

def raise (u : Unmarshal) : Unmarshal := { u with error := true }

def advance (count : Nat) (u : Unmarshal) : Unmarshal := { u with offset := u.offset + count }

end Unmarshal

abbrev Unmarshalling := Proc Unmarshal Stop

def byteAt (index : Nat) : Unmarshalling UInt8 := do
  match (← Proc.get).buf[index]? with
  | some byte => pure byte
  | none => Proc.fail (.fault .read)

def bytesAt (start : Nat) : Nat → Unmarshalling Bytes
  | 0 => pure []
  | count + 1 => do
    let byte ← byteAt start
    let rest ← bytesAt (start + 1) count
    pure (byte :: rest)

/-- `memcpy` from the cursor into a buffer of some room. -/
def copyOut (room len : Nat) : Unmarshalling Bytes := do
  let bytes ← bytesAt (← Proc.get).offset len
  if room < len then Proc.fail (.fault .write) else pure bytes

/-- A number of some bytes; a zero where the flag is up or comes up. -/
def unmarshalBe (width : Nat) : Unmarshalling Nat := do
  let u ← Proc.get
  if u.error ∨ u.size < u.offset + width then do
    Proc.modify Unmarshal.raise
    pure 0
  else do
    let bytes ← bytesAt u.offset width
    Proc.modify (Unmarshal.advance width)
    pure (beNat bytes)

def unmarshalU8 : Unmarshalling Nat := unmarshalBe 1
def unmarshalU16 : Unmarshalling Nat := unmarshalBe 2
def unmarshalU32 : Unmarshalling Nat := unmarshalBe 4

/-- What was copied, which is nothing where the flag is up or comes up. -/
def unmarshalBytes (room len : Nat) : Unmarshalling Bytes := do
  let u ← Proc.get
  if u.error ∨ u.size < u.offset + len then do
    Proc.modify Unmarshal.raise
    pure []
  else do
    let bytes ← copyOut room len
    Proc.modify (Unmarshal.advance len)
    pure bytes

/-- A buffer behind its size, into one of some room of which the caller says how large it is. The
size returned is the length of what was copied. -/
def unmarshalTpm2b (room outCap : Nat) : Unmarshalling Bytes := do
  let size ← unmarshalU16
  let u ← Proc.get
  if u.error then pure []
  else if outCap < size ∨ u.size < u.offset + size then do
    Proc.modify Unmarshal.raise
    pure []
  else do
    let bytes ← if 0 < size then copyOut room size else pure []
    Proc.modify (Unmarshal.advance size)
    pure bytes

def unmarshalSkip (count : Nat) : Unmarshalling Unit := do
  let u ← Proc.get
  if u.error ∨ u.size < u.offset + count then Proc.modify Unmarshal.raise
  else Proc.modify (Unmarshal.advance count)

/-- The flag is looked at, with something else that must not be. -/
def checkCursor (wrong : Prop) [Decidable wrong] (code : TpmCode) : Unmarshalling Unit := do
  if (← Proc.get).error ∨ wrong then Proc.fail (.code code) else pure ()

/-- The header: tag, size and response code. -/
def rspHeader : Unmarshalling Nat := do
  let _ ← unmarshalU16
  let _ ← unmarshalU32
  let rc ← unmarshalU32
  checkCursor False .response
  pure rc

def rspHandle : Unmarshalling Handle := do
  let handle ← unmarshalU32
  checkCursor False .response
  pure (UInt32.ofNat handle)

/-- `bio_tpm_get_random`: how many bytes came, and the bytes. -/
def rspGetRandom (request room : Nat) : Unmarshalling ({ got : Nat // 0 < got } × Bytes) := do
  let got ← unmarshalU16
  let u ← Proc.get
  if wrong : u.error ∨ got = 0 ∨ request < got then Proc.fail (.code .response)
  else do
    let bytes ← unmarshalBytes room got
    checkCursor False .response
    pure (⟨got, Nat.pos_of_ne_zero fun none => wrong (.inr (.inl none))⟩, bytes)

def skipSelection : Unmarshalling Unit := do
  let _ ← unmarshalU16
  let size ← unmarshalU8
  unmarshalSkip size

/-- `bio_tpm_pcr_read`. -/
def rspPcrRead : Unmarshalling Bytes := do
  let _ ← unmarshalU32
  let count ← unmarshalU32
  Proc.repeatWith count (fun _ => skipSelection) ()
  let digests ← unmarshalU32
  if digests < 1 then Proc.fail (.code .pcr)
  else do
    let size ← unmarshalU16
    if size ≠ 32 then Proc.fail (.code .pcr)
    else do
      let digest ← unmarshalBytes 32 32
      checkCursor False .response
      pure digest

/-- `bio_tpm_create_sealed` and `bio_tpm_create_sealed_pcr`. -/
def rspCreated (privRoom pubRoom : Nat) : Unmarshalling (Bytes × Bytes) := do
  let _ ← unmarshalU32
  let priv ← unmarshalTpm2b privRoom privRoom
  checkCursor (priv = []) .response
  let pub ← unmarshalTpm2b pubRoom pubRoom
  checkCursor (pub = []) .response
  pure (priv, pub)

/-- `bio_tpm_unseal` and the end of `bio_tpm_unseal_for_user_pcr`. -/
def rspUnseal (room : Nat) : Unmarshalling Bytes := do
  let _ ← unmarshalU32
  let data ← unmarshalTpm2b room room
  checkCursor False .response
  pure data

/-- `bio_tpm_read_public`. -/
def rspReadPublic (room : Nat) : Unmarshalling Bytes := do
  let area ← unmarshalTpm2b room room
  checkCursor False .response
  pure area

/-- `tpm_start_auth_session_typed`: the nonce is copied and not looked at. -/
def rspSession : Unmarshalling Handle := do
  let handle ← rspHandle
  let _ ← unmarshalTpm2b 64 64
  pure handle

/-- `bio_tpm_policy_get_digest`. -/
def rspDigest : Unmarshalling Bytes := do
  let digest ← unmarshalTpm2b 32 32
  checkCursor (digest.length ≠ 32) .response
  pure digest

/-- The coordinates in the template of a key. -/
def rspPoint : Unmarshalling Bytes := do
  let _ ← unmarshalU16
  let _ ← unmarshalU16
  let _ ← unmarshalU32
  let policy ← unmarshalU16
  unmarshalSkip policy
  let _ ← unmarshalU16
  let _ ← unmarshalU16
  let _ ← unmarshalU16
  let _ ← unmarshalU16
  let x ← unmarshalTpm2b 32 32
  let y ← unmarshalTpm2b 32 32
  checkCursor (x.length ≠ 32 ∨ y.length ≠ 32) .response
  pure (0x04 :: x ++ y)

/-- A second cursor over some of what is left. -/
def onPart {α : Type} (len : Nat) (body : Unmarshalling α) : Unmarshalling α := fun u =>
  ((body (unmarshalInit (u.buf.drop u.offset) len)).1, u)

/-- `bio_tpm_create_ecc_key`: the two parts, and the public point. -/
def rspEccKey (privRoom pubRoom : Nat) : Unmarshalling (Bytes × Bytes × Bytes) := do
  let _ ← unmarshalU32
  let priv ← unmarshalTpm2b privRoom privRoom
  checkCursor (priv = []) .response
  let size ← unmarshalU16
  let u ← Proc.get
  if u.error ∨ size = 0 ∨ u.size < u.offset + size then Proc.fail (.code .response)
  else if pubRoom < size then Proc.fail (.code .bufferTooSmall)
  else do
    let pub ← copyOut pubRoom size
    let point ← onPart size rspPoint
    pure (priv, pub, point)

/-- `bio_tpm_sign_ecdsa`. -/
def rspSignature : Unmarshalling (Bytes × Bytes) := do
  let _ ← unmarshalU32
  let _ ← unmarshalU16
  let _ ← unmarshalU16
  let r ← unmarshalTpm2b 32 32
  let s ← unmarshalTpm2b 32 32
  checkCursor (r.length ≠ 32 ∨ s.length ≠ 32) .response
  pure (r, s)

/-- `bio_tpm_nv_read`. -/
def rspNvRead (len : Nat) : Unmarshalling Bytes := do
  let _ ← unmarshalU32
  let data ← unmarshalTpm2b len len
  checkCursor (data.length ≠ len) .response
  pure data

/-- The commands with something to read in their response, and the room there is for it. -/
inductive Rsp
  | createPrimary
  | load
  | pcrRead
  | createSealed (privRoom pubRoom : Nat)
  | unsealData (room : Nat)
  | readPublic (room : Nat)
  | startAuthSession
  | policyGetDigest
  | createEccKey (privRoom pubRoom : Nat)
  | signEcdsa
  | nvRead (len : Nat)

/-- Read a response, for what becomes of the cursor. -/
def Rsp.read : Rsp → Unmarshalling Unit
  | .createPrimary | .load => do let _ ← rspHandle
  | .pcrRead => do let _ ← rspPcrRead
  | .createSealed privRoom pubRoom => do let _ ← rspCreated privRoom pubRoom
  | .unsealData room => do let _ ← rspUnseal room
  | .readPublic room => do let _ ← rspReadPublic room
  | .startAuthSession => do let _ ← rspSession
  | .policyGetDigest => do let _ ← rspDigest
  | .createEccKey privRoom pubRoom => do let _ ← rspEccKey privRoom pubRoom
  | .signEcdsa => do let _ ← rspSignature
  | .nvRead len => do let _ ← rspNvRead len

section
variable {σ : Type} (device : Device σ)

/-- `bio_tpm_execute`, with its own reading of the header. -/
def bioTpmExecute (command : Bytes) : Proc (Ctx σ) Stop Nat := fun ctx =>
  match device.transfer command ctx.tpm with
  | (.writeError, tpm) => (.error (.code .command), { ctx with tpm })
  | (.readError, tpm) => (.error (.code .response), { ctx with tpm })
  | (.reply bytes, tpm) =>
    let bytes := bytes.take maxPacketSize
    if bytes.length < 10 then
      (.error (.code .response), { ctx with tpm, rsp := (bytes ++ ctx.rsp.drop bytes.length).take ctx.rsp.length })
    else ((rspHeader (unmarshalInit bytes bytes.length)).1, { ctx with tpm, rsp := bytes })

/-- Send a command and look at its response code. -/
def request (fields : List Field) (refusal : Nat → TpmCode) : Proc (Ctx σ) Stop Unit :=
  match marshal fields with
  | none => Proc.fail (.code .command)
  | some command => do
    let rc ← bioTpmExecute device command
    if rc ≠ 0 then Proc.fail (.code (refusal rc)) else pure ()

/-- Read behind the header of the response in the context. The length is a `size_t`. -/
def onResponse {α : Type} (body : Unmarshalling α) : Proc (Ctx σ) Stop α := fun ctx =>
  ((body (unmarshalInit (ctx.rsp.drop 10) (UInt64.ofNat ctx.rsp.length - 10).toNat)).1, ctx)

/-- A command whose response is read. What has to be flushed is flushed before that, whatever came
of the command. -/
def exchange {α : Type} (fields : List Field) (refusal : Nat → TpmCode) (flushed : List (List Field))
    (body : Unmarshalling α) :
    Proc (Ctx σ) Stop α := do
  (request device fields refusal).closing (Proc.each (fun fields => (request device fields fun _ => .handle).ignore)
    flushed : Proc _ Stop Unit)
  onResponse body

def ccGetRandom : Nat := 0x17B

/-- The loop of `bio_tpm_get_random`: what is still missing is asked for, 48 bytes at a time. -/
def getRandomFrom (count total : Nat) (held : Bytes) : Proc (Ctx σ) Stop Bytes :=
  if total < count then do
    let want := min (count - total) 48
    request device (commandHeader stNoSessions ccGetRandom ++ [u16 want]) fun _ => .command
    let (got, bytes) ← onResponse (rspGetRandom want (count - total))
    getRandomFrom count (total + got.1) (held ++ bytes)
  else pure held
termination_by count - total
decreasing_by
  have := got.2
  omega

def bioTpmGetRandom (count : UInt16) : Proc (Ctx σ) Stop Bytes :=
  if count = 0 then Proc.fail (.code .invalidParam) else getRandomFrom device count.toNat 0 []

end

end Hiya.Tpm
