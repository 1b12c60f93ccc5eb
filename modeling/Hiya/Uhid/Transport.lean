import Hiya.Library.Buf
import Hiya.Library.Bytes
import Hiya.Library.Runs

/-! The HID transport of `bio_fido2_uhid.c`. Messages are cut into reports of 64 bytes;
a table of eight channels puts those of the host together again and hands each whole
message to its handler. The authenticator behind it is a parameter, and so is
everything a report finds around it. -/

namespace Hiya.Uhid
open Library

def reportSize : Nat := 64
def initDataSize : Nat := 57
def contDataSize : Nat := 59
def maxMsgSize : Nat := 7609
def maxChannels : Nat := 8
def broadcastCid : UInt32 := 0xFFFFFFFF
def initPacketFlag : UInt8 := 0x80
def transactionTimeout : UInt64 := 500

abbrev Report := Buf reportSize

inductive Command
  | ping
  | msg
  | init
  | wink
  | cbor
  | cancel
  | error
  deriving DecidableEq, Repr

namespace Command

def code : Command → UInt8
  | ping => 0x01
  | msg => 0x03
  | init => 0x06
  | wink => 0x08
  | cbor => 0x10
  | cancel => 0x11
  | error => 0x3F

/-- The commands that `ctaphid_dispatch` knows. -/
def ofByte (byte : UInt8) : Option Command := [init, ping, cbor, msg, cancel, wink].find? fun command => command.code = byte

end Command

inductive HidError
  | invalidCmd
  | invalidLen
  | invalidSeq
  | msgTimeout
  | invalidChannel
  | other
  deriving DecidableEq, Repr

def HidError.code : HidError → UInt8
  | invalidCmd => 0x01
  | invalidLen => 0x03
  | invalidSeq => 0x04
  | msgTimeout => 0x05
  | invalidChannel => 0x0B
  | other => 0x7F

namespace Report

/-- A report that begins with the given bytes; the rest of it is zero. -/
def ofFront (front : Bytes) : Report := .ofBytes (Blob.ofSlice reportSize front).padded (Blob.padded_length _)

def cid (report : Report) : UInt32 := UInt32.ofNat (beNat (report.bytes.take 4))

/-- The command of a first packet with the top bit set, or a sequence number. -/
def byte4 (report : Report) : UInt8 := report.bytes.getD 4 0

def totalLen (report : Report) : UInt16 := UInt16.ofNat (beNat ((report.bytes.drop 5).take 2))

def initData (report : Report) : Bytes := report.bytes.drop 7

def contData (report : Report) : Bytes := report.bytes.drop 5

end Report

def initPacket (cid : UInt32) (cmd : UInt8) (data : Bytes) : Report :=
  .ofFront (beBytes 4 cid.toNat ++ ((cmd ||| initPacketFlag) :: (beBytes 2 data.length ++ data.take initDataSize)))

def contPacket (cid : UInt32) (seq : UInt8) (chunk : Bytes) : Report := .ofFront (beBytes 4 cid.toNat ++ (seq :: chunk))

/-- The packets after the first one. Each takes at least a byte, so there are fewer of
them than bytes. -/
def contPackets (cid : UInt32) : Nat → UInt8 → Bytes → List Report
  | 0, _, _ => []
  | fuel + 1, seq, rest =>
    if rest = [] then []
    else contPacket cid seq (rest.take contDataSize) :: contPackets cid fuel (seq + 1) (rest.drop contDataSize)

/-- What `ctaphid_send_response` hands to the kernel. -/
def packets (cid : UInt32) (cmd : UInt8) (data : Bytes) : List Report :=
  initPacket cid cmd data :: contPackets cid data.length 0 (data.drop initDataSize)

structure Channel where
  cid : UInt32
  inUse : Bool
  cmd : UInt8
  totalLen : UInt16
  received : UInt16
  nextSeq : UInt8
  msgBuf : Blob maxMsgSize
  lastActive : UInt64

namespace Channel

def zero : Channel where
  cid := 0
  inUse := false
  cmd := 0
  totalLen := 0
  received := 0
  nextSeq := 0
  msgBuf := .empty _
  lastActive := 0

def reset (channel : Channel) : Channel := { channel with totalLen := 0, received := 0 }

/-- Copy bytes to an offset of the buffer. What lies behind them is not looked at. -/
def copy (offset : Nat) (bytes : Bytes) (channel : Channel) : Channel :=
  { channel with msgBuf := .ofSlice _ (channel.msgBuf.bytes.take offset ++ bytes) }

end Channel

abbrev Slot := Fin maxChannels

/-- What a report finds around it: the clock, the identifiers that a new channel may get
(random, or from a counter when there is no randomness), and whether the kernel takes
the reports of an answer. -/
structure Env where
  now : UInt64
  allocatedAt : UInt64
  candidates : Nat → UInt32
  accepts : Nat → Bool

/-- The transport with the authenticator's state. -/
structure State (κ : Type) where
  channels : Slot → Channel
  ctx : κ

structure Message where
  cid : UInt32
  cmd : UInt8
  data : Bytes
  deriving DecidableEq, Repr

/-- A copy into the buffer of a channel, and the length of the message it is for. -/
structure Copy where
  offset : Nat
  count : Nat
  total : Nat
  deriving DecidableEq, Repr

structure Outcome where
  dispatched : List Message
  sent : List Report
  copies : List Copy
  evicted : Bool

namespace Outcome

def quiet (sent : List Report) : Outcome where
  dispatched := []
  sent
  copies := []
  evicted := false

def evicting (evicted : Bool) (outcome : Outcome) : Outcome := { outcome with evicted := evicted || outcome.evicted }

def dispatching (message : Message) (outcome : Outcome) : Outcome :=
    { outcome with dispatched := message :: outcome.dispatched }

def copying (copy : Copy) (outcome : Outcome) : Outcome := { outcome with copies := copy :: outcome.copies }

end Outcome

section
variable {κ : Type}

namespace State

def put (slot : Slot) (channel : Channel) (uhid : State κ) : State κ :=
    { uhid with channels := Function.update uhid.channels slot channel }

def findChannel (cid : UInt32) (uhid : State κ) : Option Slot :=
  (List.finRange maxChannels).find? fun slot => (uhid.channels slot).inUse ∧ (uhid.channels slot).cid = cid

def freeSlot (uhid : State κ) : Option Slot := (List.finRange maxChannels).find? fun slot => !(uhid.channels slot).inUse

def firstSlot : Slot := ⟨0, Nat.succ_pos 7⟩

/-- The channel that was active longest ago, the first of them if there are several. -/
def oldest (uhid : State κ) : Slot :=
  (List.finRange maxChannels).foldl
    (fun oldest slot => if (uhid.channels slot).lastActive < (uhid.channels oldest).lastActive then slot else oldest)
      firstSlot

def fresh (ctx : κ) : State κ where
  channels _ := .zero
  ctx

end State

def reservedCid (cid : UInt32) : Bool := cid = 0 ∨ cid = broadcastCid

/-- The first of 64 candidates that is neither reserved nor in use. -/
def pickCid (env : Env) (uhid : State κ) : Option UInt32 :=
  ((List.range 64).map env.candidates).find? fun cid => !reservedCid cid && (uhid.findChannel cid).isNone

/-- Clear a slot and name its channel, if a name is found. -/
def claimSlot (env : Env) (slot : Slot) (uhid : State κ) : Option Slot × State κ :=
  let uhid := uhid.put slot .zero
  match pickCid env uhid with
  | none => (none, uhid)
  | some cid => (some slot, uhid.put slot { Channel.zero with cid, inUse := true, lastActive := env.allocatedAt })

/-- A new channel, and whether another one had to go for it. -/
def allocChannel (env : Env) (uhid : State κ) : Bool × Option Slot × State κ :=
  match uhid.freeSlot with
  | some slot => (false, claimSlot env slot uhid)
  | none => (true, claimSlot env uhid.oldest uhid)

/-- Reports go out until the kernel refuses one. -/
def ctaphidSendResponse (env : Env) (cid : UInt32) (cmd : Command) (data : Bytes) : List Report :=
  ((packets cid cmd.code data).zipIdx.takeWhile fun packet => env.accepts packet.2).map Prod.fst

def ctaphidSendError (env : Env) (cid : UInt32) (error : HidError) : List Report :=
  ctaphidSendResponse env cid .error [error.code]

/-- What the authenticator makes of a command. -/
structure Answer where
  status : UInt8
  response : Bytes

abbrev Engine (κ : Type) := UInt8 → Bytes → κ → Answer × κ

/-- The answer to a command in one piece, with a length of 16 bits. -/
def Answer.bytes (answer : Answer) : Bytes :=
  (answer.status :: answer.response).take ((if answer.status = 0 then answer.response.length + 1 else 1) % 2 ^ 16)

variable (engine : Engine κ) (env : Env)

def handleInit (message : Message) (uhid : State κ) : Outcome × State κ :=
  if message.data.length < 8 then (.quiet (ctaphidSendError env message.cid .invalidLen), uhid)
  else match allocChannel env uhid with
    | (evicted, none, uhid) => (.evicting evicted (.quiet (ctaphidSendError env message.cid .other)), uhid)
    | (evicted, some slot, uhid) =>
      let response := message.data.take 8 ++ beBytes 4 (uhid.channels slot).cid.toNat ++ [2, 1, 0, 0, 0x05]
      (.evicting evicted (.quiet (ctaphidSendResponse env message.cid .init response)), uhid)

def handleCbor (message : Message) (uhid : State κ) : Outcome × State κ :=
  match message.data with
  | [] => (.quiet (ctaphidSendError env message.cid .invalidLen), uhid)
  | cmd :: request =>
    let (answer, ctx) := engine cmd request uhid.ctx
    (.quiet (ctaphidSendResponse env message.cid .cbor answer.bytes), { uhid with ctx })

def ctaphidDispatch (message : Message) (uhid : State κ) : Outcome × State κ :=
  match Command.ofByte message.cmd with
  | some .init => handleInit env message uhid
  | some .ping => (.quiet (ctaphidSendResponse env message.cid .ping message.data), uhid)
  | some .cbor => handleCbor engine env message uhid
  | some .msg => (.quiet (ctaphidSendError env message.cid .invalidCmd), uhid)
  | some .cancel => (.quiet (ctaphidSendResponse env message.cid .cbor [0x2D]), uhid)
  | some .wink => (.quiet (ctaphidSendResponse env message.cid .wink []), uhid)
  | _ => (.quiet (ctaphidSendError env message.cid .invalidCmd), uhid)

def refuse (cid : UInt32) (error : HidError) (uhid : State κ) : Outcome × State κ :=
    (.quiet (ctaphidSendError env cid error), uhid)

def deliver (message : Message) (uhid : State κ) : Outcome × State κ :=
  let (outcome, uhid) := ctaphidDispatch engine env message uhid
  (outcome.dispatching message, uhid)

/-- Dispatch the message of a channel if it is complete, and forget it. -/
def finish (slot : Slot) (uhid : State κ) : Outcome × State κ :=
  let channel := uhid.channels slot
  if channel.received ≥ channel.totalLen then
    let message : Message := { cid := channel.cid, cmd := channel.cmd, data := channel.msgBuf.bytes.take channel.totalLen.toNat }
    let (outcome, uhid) := deliver engine env message uhid
    (outcome, uhid.put slot (uhid.channels slot).reset)
  else (.quiet [], uhid)

/-- How much of a message is in its first packet. -/
def firstChunk (report : Report) : Nat := min report.totalLen.toNat initDataSize

/-- A channel with the first packet of a message. -/
def Channel.begun (cmd : UInt8) (report : Report) (channel : Channel) : Channel :=
  { channel.copy 0 (report.initData.take (firstChunk report)) with
    cmd
    totalLen := report.totalLen
    nextSeq := 0
    lastActive := env.now
    received := UInt16.ofNat (firstChunk report) }

def beginMessage (slot : Slot) (cmd : UInt8) (report : Report) (uhid : State κ) : Outcome × State κ :=
  let (outcome, uhid) := finish engine env slot (uhid.put slot ((uhid.channels slot).begun env cmd report))
  (outcome.copying { offset := 0, count := firstChunk report, total := report.totalLen.toNat }, uhid)

def initReport (report : Report) (uhid : State κ) : Outcome × State κ :=
  let cid := report.cid
  let cmd := report.byte4 &&& 0x7F
  let total := report.totalLen
  if cmd = Command.init.code ∧ total.toNat ≤ initDataSize then
    deliver engine env { cid, cmd, data := report.initData.take total.toNat } uhid
  else if total.toNat > maxMsgSize then refuse env cid .invalidLen uhid
  else if cid = broadcastCid then
    if cmd ≠ Command.init.code then refuse env cid .invalidChannel uhid
    else match allocChannel env uhid with
      | (evicted, none, uhid) => (.evicting evicted (.quiet (ctaphidSendError env cid .invalidChannel)), uhid)
      | (evicted, some slot, uhid) =>
        let (outcome, uhid) := beginMessage engine env slot cmd report uhid
        (outcome.evicting evicted, uhid)
  else match uhid.findChannel cid with
    | none => refuse env cid .invalidChannel uhid
    | some slot => beginMessage engine env slot cmd report uhid

/-- How much of a message a further packet brings. -/
def Channel.nextChunk (channel : Channel) : Nat := min (channel.totalLen - channel.received).toNat contDataSize

/-- A channel that has heard of its message. -/
def Channel.active (channel : Channel) : Channel := { channel with nextSeq := channel.nextSeq + 1, lastActive := env.now }

/-- A channel with a further packet of its message. -/
def Channel.continued (report : Report) (channel : Channel) : Channel :=
  { (channel.active env).copy channel.received.toNat (report.contData.take channel.nextChunk) with
    received := channel.received + UInt16.ofNat channel.nextChunk }

def continueMessage (slot : Slot) (report : Report) (uhid : State κ) : Outcome × State κ :=
  let channel := uhid.channels slot
  if channel.received.toNat + channel.nextChunk > maxMsgSize then
    refuse env report.cid .invalidLen (uhid.put slot (channel.active env).reset)
  else
    let (outcome, uhid) := finish engine env slot (uhid.put slot (channel.continued env report))
    (outcome.copying { offset := channel.received.toNat, count := channel.nextChunk, total := channel.totalLen.toNat }, uhid)

def contReport (report : Report) (uhid : State κ) : Outcome × State κ :=
  match uhid.findChannel report.cid with
  | none => refuse env report.cid .invalidChannel uhid
  | some slot =>
    let channel := uhid.channels slot
    if channel.totalLen = 0 then refuse env report.cid .invalidChannel uhid
    else if report.byte4 ≠ channel.nextSeq then refuse env report.cid .invalidSeq (uhid.put slot channel.reset)
    else continueMessage engine env slot report uhid

def processHidReport (report : Report) (uhid : State κ) : Outcome × State κ :=
  if report.byte4 &&& initPacketFlag ≠ 0 then initReport engine env report uhid else contReport engine env report uhid

/-- The report of an output event. A leading report number, which is zero, is left out. -/
def outputReport (data : Bytes) : Option Report :=
  if exact : data.length = reportSize then some (.ofBytes data exact)
  else match data with
    | 0 :: rest => if exact : rest.length = reportSize then some (.ofBytes rest exact) else none
    | _ => none

/-- A transaction that nothing was heard of for too long. -/
def Channel.stale (channel : Channel) : Bool :=
  channel.inUse && channel.totalLen > 0 && channel.received <
    channel.totalLen && env.now - channel.lastActive > transactionTimeout

def sweep (uhid : State κ) : Outcome × State κ :=
  let stale := (List.finRange maxChannels).filter fun slot => (uhid.channels slot).stale env
  (.quiet (stale.flatMap fun slot => ctaphidSendError env (uhid.channels slot).cid .msgTimeout),
    { uhid with channels := fun slot => if (uhid.channels slot).stale env then (uhid.channels slot).reset else uhid.channels slot })

inductive Input
  | output (data : Bytes) (env : Env)
  | sweep (env : Env)

def step (input : Input) (uhid : State κ) : Outcome × State κ :=
  match input with
  | .output data env =>
    match outputReport data with
    | none => (.quiet [], uhid)
    | some report => processHidReport engine env report uhid
  | .sweep env => sweep env uhid

def transport : Machine (State κ) Input Outcome where
  step := step engine
  halts _ := false

end

end Hiya.Uhid
