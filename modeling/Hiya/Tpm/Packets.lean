import Hiya.Fido2.Storage

/-! How `bio_tpm.c` talks to `/dev/tpmrm0`: commands are marshalled into a buffer of 4096
bytes and sent whole, and the response stays in the context until the next one comes. -/

namespace Hiya.Tpm
open Library
open Fido2 (Take takeBytes)

abbrev Handle := UInt32

def maxPacketSize : Nat := 4096

def stNoSessions : Nat := 0x8001
def stSessions : Nat := 0x8002

/-- The session that stands for a password. -/
def rsPw : Handle := 0x40000009
def rhOwner : Handle := 0x40000001
def rhNull : Handle := 0x40000007

inductive TpmCode
  | invalidParam
  | command
  | response
  | hierarchy
  | sealing
  | handle
  | auth
  | pcr
  | bufferTooSmall
  | random
  deriving DecidableEq, Repr

/-- One write into the command buffer; nothing is a write that raises the error flag by
itself. -/
abbrev Field := Option Bytes

def u8 (value : Nat) : Field := some (beBytes 1 value)
def u16 (value : Nat) : Field := some (beBytes 2 value)
def u32 (value : Nat) : Field := some (beBytes 4 value)

/-- A buffer behind its length. The callers keep the length within 16 bits. -/
def tpm2b (data : Bytes) : Bytes := beBytes 2 data.length ++ data

def sized (data : Bytes) : Field := some (tpm2b data)

/-- The error flag stays up, and comes up when a write does not fit. -/
def put (held : Option Bytes) (field : Field) : Option Bytes :=
  match held, field with
  | some held, some bytes => if maxPacketSize < held.length + bytes.length then none else some (held ++ bytes)
  | _, _ => none

/-- Tag, a place for the size, and the command code. -/
def commandHeader (tag code : Nat) : List Field := [u16 tag, u32 0, u32 code]

def finalize (bytes : Bytes) : Bytes := bytes.take 2 ++ beBytes 4 bytes.length ++ bytes.drop 6

def marshal (fields : List Field) : Option Bytes := (fields.foldl put (some [])).map finalize

/-- Size of the area, session, an empty nonce, attributes and the password. -/
def passwordAuth (auth : Bytes) : List Field :=
  if 0xFFFF < auth.length then [none]
  else [u32 (4 + 2 + 1 + 2 + auth.length), u32 rsPw.toNat, u16 0, u8 0x01, sized auth]

def takeBe (width : Nat) : Take Nat := do pure (beNat (← takeBytes width).bytes)

def takeHandle : Take Handle := do pure (UInt32.ofNat (← takeBe 4))

/-- A buffer behind its length, if it fits the array it goes to. -/
def takeTpm2b (room : Nat) : Take Bytes := do
  let size ← takeBe 2
  if room < size then Proc.fail () else pure ()
  pure (← takeBytes size).bytes

/-- What comes of writing a command to the device and reading the answer. -/
inductive Transfer
  | writeError
  | readError
  | reply (bytes : Bytes)

/-- A TPM behind its device, with a state of its own. -/
structure Device (σ : Type) where
  transfer : Bytes → σ → Transfer × σ

/-- The context, with the response that was read last, and the TPM it speaks to. -/
structure Ctx (σ : Type) where
  primaryHandle : Handle
  rsp : Bytes
  tpm : σ

section
variable {σ : Type} (device : Device σ)

/-- Send a command and keep the response. One too short for its header has been read
over the front of the old one. -/
def execute (command : Bytes) : Proc (Ctx σ) TpmCode Nat := fun ctx =>
  match device.transfer command ctx.tpm with
  | (.writeError, tpm) => (.error .command, { ctx with tpm })
  | (.readError, tpm) => (.error .response, { ctx with tpm })
  | (.reply bytes, tpm) =>
    let bytes := bytes.take maxPacketSize
    if bytes.length < 10 then
      (.error .response, { ctx with tpm, rsp := (bytes ++ ctx.rsp.drop bytes.length).take ctx.rsp.length })
    else (.ok (beNat ((bytes.drop 6).take 4)), { ctx with tpm, rsp := bytes })

/-- Read the parameters of the response in the context. -/
def readResponse {α : Type} (body : Take α) : Proc (Ctx σ) TpmCode α := fun ctx =>
  match body (ctx.rsp.drop 10) with
  | (.ok value, _) => (.ok value, ctx)
  | (.error _, _) => (.error .response, ctx)

/-- Marshal, send, and turn a response code into an error of the caller's. -/
def perform (fields : List Field) (refusal : Nat → TpmCode) : Proc (Ctx σ) TpmCode Unit :=
  match marshal fields with
  | none => Proc.fail .command
  | some command => do
    let rc ← execute device command
    if rc ≠ 0 then Proc.fail (refusal rc) else pure ()

end

end Hiya.Tpm
