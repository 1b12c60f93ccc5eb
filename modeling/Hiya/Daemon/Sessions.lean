import Hiya.Daemon.Calls

/-! What else `bio_daemon.c` does with the table of sessions: IsAuthenticated,
ExtendSession and the sweep that a timer starts. The clock of each step is its own, so it
may stand still or go backwards. -/

namespace Hiya.Daemon
open Library

section
variable (now : Int) (uid : Uid) (sender : Name)

/-- The walk of `find_verified_session_for_sender`. -/
def findVerifiedFrom : List SessionSlot → State → Option SessionSlot × State
  | [], d => (none, d)
  | slot :: rest, d =>
    let session := d.sessions slot
    if !session.active then findVerifiedFrom rest d
    else if d.expired now session then findVerifiedFrom rest (d.closeSession slot)
    else if session.uid ≠ uid then findVerifiedFrom rest d
    else if !session.verified then findVerifiedFrom rest d
    else if !session.belongsTo sender then findVerifiedFrom rest d
    else (some slot, d.putSession slot { session with lastUsed := now })

def findVerifiedSessionForSender (d : State) : Option SessionSlot × State := findVerifiedFrom now uid sender d.sessionSlots d

/-- What a session has left, as the unsigned number that is reported. -/
def secondsRemaining (session : Session) (d : State) : UInt32 :=
  let age := now - session.created
  if age < d.config.sessionMaxAge then UInt32.ofInt (d.config.sessionMaxAge - age) else 0

/-- A session that starts later, so that it has `seconds` more left but never more than a
new one. The sum is one of unsigned numbers and may wrap around. -/
def extended (seconds : UInt32) (session : Session) (d : State) : Session :=
  let maxAge := UInt32.ofNat d.config.sessionMaxAge
  let remaining := UInt32.ofInt (d.config.sessionMaxAge - (now - session.created))
  let target := remaining + seconds
  let target := if target > maxAge then maxAge else target
  { session with created := now - (maxAge - target).toNat, lastUsed := now }

/-- The loop of ExtendSession, and how many sessions it has extended. -/
def extendFrom (seconds : UInt32) : List SessionSlot → State → Nat × State
  | [], d => (0, d)
  | slot :: rest, d =>
    let session := d.sessions slot
    if !session.active || !session.verified then extendFrom seconds rest d
    else if session.uid ≠ uid then extendFrom seconds rest d
    else if !session.belongsTo sender then extendFrom seconds rest d
    else if d.expired now session then extendFrom seconds rest (d.closeSession slot)
    else
      let (count, d) := extendFrom seconds rest (d.putSession slot (extended now seconds session d))
      (count + 1, d)

def extendSession (seconds : UInt32) (d : State) : Nat × State := extendFrom now uid sender seconds d.sessionSlots d

def sweepFrom : List SessionSlot → State → State
  | [], d => d
  | slot :: rest, d =>
    if !(d.sessions slot).active then sweepFrom rest d
    else if d.expired now (d.sessions slot) then sweepFrom rest (d.closeSession slot)
    else sweepFrom rest d

def sweepExpiredSessions (d : State) : State := sweepFrom now d.sessionSlots d

end

/-- A step of the daemon: one of its calls, or one that only handles sessions. -/
inductive SessionCall
  | call (request : Request)
  | findSession (now : Int) (token : Bytes)
  | isAuthenticated (now : Int) (caller : Uid) (sender : Name)
  | extendSession (now : Int) (caller : Uid) (sender : Name) (seconds : UInt32)
  | sweep (now : Int)

inductive SessionReply
  | call (outcome : Outcome)
  | found (slot : Option SessionSlot)
  | authenticated (slot : Option SessionSlot) (seconds : UInt32)
  /-- No session extended is refused as "No authenticated session to extend". -/
  | extended (count : Nat)
  | swept

section
variable (mac : Buf 32 → Bytes → Buf 32) (accounts : Accounts)

def handle : SessionCall → State → SessionReply × State
  | .call request, d =>
    let (outcome, d) := serve mac accounts request d
    (.call outcome, d)
  | .findSession now token, d =>
    let (slot, d) := findSession now token d
    (.found slot, d)
  | .isAuthenticated now caller sender, d =>
    let (slot, d) := findVerifiedSessionForSender now caller sender d
    (.authenticated slot ((slot.map fun slot => secondsRemaining now (d.sessions slot) d).getD 0), d)
  | .extendSession now caller sender seconds, d =>
    let (count, d) := extendSession now caller sender seconds d
    (.extended count, d)
  | .sweep now, d => (.swept, sweepExpiredSessions now d)

def sessionKeeper : Machine State SessionCall SessionReply where
  step := handle mac accounts
  halts _ := false

end

end Hiya.Daemon
