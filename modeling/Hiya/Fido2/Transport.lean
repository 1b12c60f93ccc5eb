import Hiya.Fido2.Process
import Hiya.Library.Transfers

/-! The Unix socket of `bio_fido2_transport.c`: framed requests, one client after another.
What the kernel answers, who connects and when is all given. -/

namespace Hiya.Fido2
open Library

def hiyaFido2MaxMsg : Nat := 4096
def maxRequestsPerClient : Nat := 8

namespace Status

/-- The byte of a status. A fault has none. -/
def code : Status → UInt8
  | invalidCommand => 0x01
  | unexpectedType => 0x11
  | invalidCbor => 0x12
  | missingParameter => 0x14
  | credentialExcluded => 0x19
  | unsupportedAlgorithm => 0x26
  | operationDenied => 0x27
  | keyStoreFull => 0x28
  | noOperationPending => 0x2A
  | invalidOption => 0x2C
  | noCredentials => 0x2E
  | notAllowed => 0x30
  | pinInvalid => 0x31
  | pinBlocked => 0x32
  | pinAuthInvalid => 0x33
  | pinNotSet => 0x35
  | pinPolicyViolation => 0x37
  | other => 0x7F
  | fault => 0x7F

end Status

def Reply.bytes : Reply → Bytes
  | registered _ _ bytes => bytes
  | asserted _ _ _ bytes => bytes
  | data bytes => bytes

abbrev Socket := Descriptor UInt8

/-- A byte, a length in two bytes, and so many bytes. -/
def frame (first : UInt8) (payload : Bytes) : Bytes := first :: (beBytes 2 payload.length ++ payload)

def readFrame (waits : Bool) (room : Nat) : Proc Socket Unit (UInt8 × Bytes) := do
  let hdr ← readExact waits 3
  let plen := beNat (hdr.drop 1)
  if plen > room then Proc.fail ()
  else do
    let payload ← readExact waits plen
    pure (hdr.headD 0, payload)

def writeFrame (waits idles : Bool) (first : UInt8) (payload : Bytes) : Proc Socket Unit Unit := do
  writeExact waits idles (first :: beBytes 2 payload.length)
  writeExact waits idles payload

structure Turn where
  running : Bool
  env : Env

/-- What is sent back. No payload goes with an error, and nothing can be said after a fault. -/
def response : Except Status Reply → Option (UInt8 × Bytes)
  | .ok reply => some (0, reply.bytes)
  | .error .fault => none
  | .error problem => some (problem.code, [])

/-- How the loop of a client ends: the commands it ran, the authenticator behind them, the
socket, and whether anything is still known. -/
structure Served where
  events : List (Event Ctx Request (Except Status Reply))
  ctx : Ctx
  socket : Socket
  alive : Bool

section
variable (crypto : Crypto)

def commandOf (env : Env) (framed : UInt8 × Bytes) : Request where
  cmd := framed.1
  body := framed.2
  capacity := hiyaFido2MaxMsg
  env

/-- The loop of `handle_client`, after so many requests. -/
def serveFrom : List Turn → Nat → Ctx → Socket → Served
  | [], _, ctx, socket => ⟨[], ctx, socket, true⟩
  | turn :: turns, requestCount, ctx, socket =>
    if ¬ turn.running ∨ requestCount + 1 > maxRequestsPerClient then ⟨[], ctx, socket, true⟩
    else
      match readFrame true hiyaFido2MaxMsg socket with
      | (.error _, socket) => ⟨[], ctx, socket, true⟩
      | (.ok framed, socket) =>
        let event := (authenticator crypto).event ctx (commandOf turn.env framed)
        match response event.outcome with
        | none => ⟨[event], event.after, socket, false⟩
        | some (status, payload) =>
          match writeFrame true false status payload socket with
          | (.error _, socket) => ⟨[event], event.after, socket, true⟩
          | (.ok _, socket) =>
            let later := serveFrom turns (requestCount + 1) event.after socket
            { later with events := event :: later.events }

def handleClient (turns : List Turn) (ctx : Ctx) (socket : Socket) : Served := serveFrom crypto turns 0 ctx socket

structure Names where
  /-- The group `hiya`. -/
  hiya : Option UInt32
  /-- The groups of a user that has an account, where they can be listed. -/
  groups : UInt32 → Option (List UInt32)

def uidInGroup (names : Names) (uid gid : UInt32) : Bool :=
  match names.groups uid with
  | none => false
  | some groups => groups.contains gid

def peerIsAuthorized (names : Names) (uid : UInt32) : Bool :=
  if uid = 0 then true
  else
    match names.hiya with
    | none => false
    | some gid => uidInGroup names uid gid

/-- A connection: whose it is, what its turns find and what its socket carries. -/
structure Client where
  uid : UInt32
  turns : List Turn
  socket : Socket

inductive Wakeup
  /-- The flag was cleared. -/
  | stopped
  | interrupted
  | selectFailed
  | timeout
  /-- There is a byte in the pipe. -/
  | shutdown
  | acceptFailed
  /-- The credentials of the peer cannot be had. -/
  | anonymous
  | connection (client : Client)

structure Visit where
  client : Client
  served : Served

/-- The clients that were served, and the authenticator after them. -/
def transportRun (names : Names) : List Wakeup → Ctx → List Visit × Ctx × Bool
  | [], ctx => ([], ctx, true)
  | .stopped :: _, ctx => ([], ctx, true)
  | .selectFailed :: _, ctx => ([], ctx, true)
  | .shutdown :: _, ctx => ([], ctx, true)
  | .interrupted :: rest, ctx => transportRun names rest ctx
  | .timeout :: rest, ctx => transportRun names rest ctx
  | .acceptFailed :: rest, ctx => transportRun names rest ctx
  | .anonymous :: rest, ctx => transportRun names rest ctx
  | .connection client :: rest, ctx =>
    if peerIsAuthorized names client.uid then
      let served := handleClient crypto client.turns ctx client.socket
      if served.alive then
        let (visits, reached) := transportRun names rest served.ctx
        (⟨client, served⟩ :: visits, reached)
      else ([⟨client, served⟩], served.ctx, false)
    else transportRun names rest ctx

end

end Hiya.Fido2
