import Hiya.Fido2.Transport
import Hiya.Ssh.SecurityKey

/-! The two clients of the authenticator's socket, with the server at the other end: the
exchange of `bio_ssh_sk.c` and that of `bio_portal.c`. -/

namespace Hiya.Ssh
open Library Fido2

/-- One connection: whether there is one, how the kernel answers the calls at both ends, and
what the loop of the server finds. -/
structure Connection where
  connects : Bool
  writes : List Answer
  reads : List Answer
  server : List Answer
  first : Turn
  more : List Turn

/-- A connection that carries a request and any response to it. -/
structure Connection.Willing (idles : Bool) (rspMax : Nat) (req : Bytes) (connection : Connection) : Prop where
  connects : connection.connects = true
  running : connection.first.running = true
  writes : Carries false idles (req.length + 3) connection.writes
  server : Carries true false (hiyaFido2MaxMsg + 3 + (req.length + 3)) connection.server
  reads : Carries false false (rspMax + 3) connection.reads

section
variable (crypto : Crypto)

/-- Write a frame and read one. The server sees what was written and then the end of the
stream; the client reads what the server wrote. -/
def exchange (idles : Bool) (rspMax : Nat) (connection : Connection) (cmd : UInt8) (req : Bytes) (ctx : Ctx) :
    Option (UInt8 × Bytes) × Ctx :=
  if connection.connects then
    let (sent, client) := writeFrame false idles cmd req { answers := connection.writes, incoming := [], outgoing := [] }
    let served := handleClient crypto (connection.first :: connection.more) ctx
      { answers := connection.server, incoming := client.outgoing, outgoing := [] }
    match sent with
    | .error _ => (none, served.ctx)
    | .ok _ =>
      match readFrame false rspMax { answers := connection.reads, incoming := served.socket.outgoing, outgoing := [] } with
      | (.error _, _) => (none, served.ctx)
      | (.ok answer, _) => (some answer, served.ctx)
  else (none, ctx)

/-- `fido2_send_recv`, and the look at the status after it. -/
def sendRecv (connection : Connection) (cmd : UInt8) (req : Bytes) : Proc Ctx Unit Bytes := fun ctx =>
  match exchange crypto true maxMsg connection cmd req ctx with
  | (none, after) => (.error (), after)
  | (some (status, rsp), after) => if status = 0 then (.ok rsp, after) else (.error (), after)

/-- `BIO_CTAP2_MAX_MSG`. -/
def portalMaxMsg : Nat := 4096

def portalCtap2Call (connection : Connection) (cmd : UInt8) (req : Bytes) (ctx : Ctx) : Option (UInt8 × Bytes) × Ctx :=
  if req.length > 0xFFFF ∨ req.length > portalMaxMsg then (none, ctx)
  else exchange crypto false portalMaxMsg connection cmd req ctx

end

end Hiya.Ssh
