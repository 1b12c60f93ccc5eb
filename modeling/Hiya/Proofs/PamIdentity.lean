import Hiya.Pam.Authenticate
import Hiya.Proofs.Lockout

/-! Whose finger lets a user in through PAM. The module asks for a session of its target,
and Verify tries the templates of the session's user; the two are the same user unless
the application is an unprivileged one that authenticates somebody else. -/

namespace Hiya.Daemon
open Library

def Owned (token : Buf 32) (uid : Uid) (d : State) : Prop :=
  ∀ slot, (d.sessions slot).active = true → (d.sessions slot).token = token → (d.sessions slot).uid = uid

namespace Owned
variable {token : Buf 32} {uid : Uid} {d : State}

theorem of_same {after : State} (owned : Owned token uid d) (sessions : after.sessions = d.sessions) :
    Owned token uid after := by
  intro slot
  rw [sessions]
  exact owned slot

/-- Put a session that is closed, the user's, or has another token. -/
theorem put {after : State} {slot : SessionSlot} {session : Session} (owned : Owned token uid d)
    (fine : session.active = true → session.token = token → session.uid = uid)
    (sessions : after.sessions = Function.update d.sessions slot session) : Owned token uid after := by
  intro other
  rw [sessions]
  by_cases here : other = slot
  · subst here
    rw [Function.update_self]
    exact fine
  · rw [Function.update_of_ne here]
    exact owned other

theorem close (owned : Owned token uid d) (slot : SessionSlot) : Owned token uid (d.closeSession slot) := by
  refine owned.put ?_ rfl
  intro active
  cases active

theorem wipe {after : State} {slot : SessionSlot} (owned : Owned token uid d)
    (sessions : after.sessions = Function.update d.sessions slot .zero) : Owned token uid after := by
  refine owned.put ?_ sessions
  intro active
  cases active

theorem unlock {env : Env} (owned : Owned token uid d) (other : Uid) : Owned token uid (autoUnlockUserVault env other d) := by
  unfold autoUnlockUserVault
  split
  · exact owned.of_same rfl
  · exact owned

end Owned

section
variable {token : Buf 32} {uid : Uid}

theorem owned_findSessionFrom (now : Int) (wanted : Bytes) (slots : List SessionSlot) : ∀ d : State,
    Owned token uid d → Owned token uid (findSessionFrom now wanted slots d).2 := by
  induction slots with
  | nil => exact fun d owned => owned
  | cons slot rest ih =>
    intro d owned
    unfold findSessionFrom
    split
    · exact ih d owned
    · split
      · exact ih _ (owned.close slot)
      · split
        · refine owned.put ?_ rfl
          exact owned slot
        · exact ih d owned

theorem owned_findSession {now : Int} {wanted : Bytes} {d reached : State} {slot : Option SessionSlot}
    (found : findSession now wanted d = (slot, reached)) (owned : Owned token uid d) : Owned token uid reached := by
  have same : reached = (findSession now wanted d).2 := by rw [found]
  rw [same]
  unfold findSession
  split
  · exact owned
  · exact owned_findSessionFrom now wanted _ d owned

/-- The session that is found is open and has the token. -/
theorem findSessionFrom_found (now : Int) (wanted : Bytes) (slots : List SessionSlot) : ∀ (d : State) {slot : SessionSlot}
    {reached : State}, findSessionFrom now wanted slots d = (some slot, reached) →
      (reached.sessions slot).active = true ∧ (reached.sessions slot).token.bytes = wanted := by
  induction slots with
  | nil =>
    intro d slot reached found
    cases found
  | cons first rest ih =>
    intro d slot reached found
    unfold findSessionFrom at found
    split at found
    · exact ih d found
    next open? =>
      split at found
      · exact ih _ found
      · split at found
        next same =>
          cases found
          simp only [State.putSession, Function.update_self]
          exact ⟨by simpa using open?, same⟩
        · exact ih d found

theorem findSession_found {now : Int} {wanted : Bytes} {d reached : State} {slot : SessionSlot}
    (found : findSession now wanted d = (some slot, reached)) :
    (reached.sessions slot).active = true ∧ (reached.sessions slot).token.bytes = wanted := by
  unfold findSession at found
  split at found
  · cases found
  · exact findSessionFrom_found now wanted _ d found

theorem owned_createSession {env : Env} {now : Int} {owner : Uid} {sender : Name} {d : State}
    (drawn : env.token = some token → owner = uid) (owned : Owned token uid d) :
    Owned token uid (createSession env now owner sender d).2 := by
  unfold createSession
  split
  · exact owned
  next slot _ =>
    have closed : Owned token uid (if (d.sessions slot).active then d.closeSession slot else d) := by
      split
      · exact owned.close slot
      · exact owned
    dsimp only
    split
    next given _ known _ =>
      split
      · refine closed.put ?_ rfl
        intro _ same
        exact drawn (known.trans (congrArg some same))
      · exact closed.wipe rfl
    · exact closed.wipe rfl

theorem owned_revokeFrom (owner : Uid) (sender : Name) (slots : List SessionSlot) : ∀ d : State,
    Owned token uid d → Owned token uid (revokeFrom owner sender slots d) := by
  induction slots with
  | nil => exact fun d owned => owned
  | cons slot rest ih =>
    intro d owned
    unfold revokeFrom
    dsimp only
    split
    · have wiped : Owned token uid { d.putSession slot .zero with sessionCount := d.sessionCount - 1 } := owned.wipe rfl
      exact ih _ wiped
    · exact ih d owned

theorem owned_prune {d : State} (owned : Owned token uid d) : Owned token uid (pruneSessions d) := by
  unfold pruneSessions
  generalize ((List.finRange maxSessionSlots).filter fun slot => d.sessionCapacity ≤ slot.val) = slots
  induction slots generalizing d with
  | nil => exact owned
  | cons slot rest ih =>
    rw [List.foldl_cons]
    apply ih
    split
    · exact owned.close slot
    · exact owned

end

section
variable {token : Buf 32} {uid : Uid} {mac : Buf 32 → Bytes → Buf 32} {accounts : Accounts} {env : Env} {d : State}

theorem owned_letIn {caller : Uid} {sender : Name} (drawn : env.token ≠ some token) (owned : Owned token uid d) :
    Owned token uid (letIn env caller sender d) := by
  have created : Owned token uid (createSession env env.later caller sender d).2 :=
    owned_createSession (fun same => absurd same drawn) owned
  unfold letIn
  dsimp only
  apply Owned.unlock
  split
  next slot reached made =>
    rw [made] at created
    refine created.put ?_ rfl
    exact created slot
  next reached made =>
    rw [made] at created
    exact created

theorem owned_authenticateWith {answer : Bool → String → Reply} {caller : Uid} {sender : Name}
    (drawn : env.token ≠ some token)
    (owned : Owned token uid d) : Owned token uid (authenticateWith accounts env answer caller sender d).2 := by
  unfold authenticateWith
  split
  · exact owned
  next username _ =>
    obtain ⟨limiters, same⟩ : ∃ limiters, (daemonVerifyUser accounts env username d).2 = { d with limiters } :=
      daemonVerifyUser_only username
    have tried : Owned token uid (daemonVerifyUser accounts env username d).2 := by
      rw [same]
      exact owned.of_same rfl
    dsimp only
    split
    · exact owned_letIn drawn tried
    · split
      · exact owned_letIn drawn tried
      · exact tried

theorem Owned.judge {slot : SessionSlot} (owned : Owned token uid d) (trial : Trial) :
    Owned token uid (d.putSession slot ((d.sessions slot).judged env trial)) := by
  refine owned.put ?_ rfl
  obtain ⟨_, _, _, same⟩ := judged_only (d.sessions slot) trial
  rw [same]
  exact owned slot

theorem owned_verify {caller : Uid} {sender : Name} {wanted : Bytes} (owned : Owned token uid d) :
    Owned token uid (verify env caller sender wanted d).2 := by
  unfold verify
  split
  next found => exact owned_findSession found owned
  next slot reached found =>
    have kept : Owned token uid reached := owned_findSession found owned
    dsimp only
    split
    · exact kept
    split
    · exact kept
    split
    · exact kept.of_same rfl
    next limiters _ =>
      have asked : Owned token uid { reached with limiters } := kept.of_same rfl
      split
      · exact asked
      split
      · exact asked
      split
      · exact asked
      split
      · exact asked.judge _
      split
      · apply Owned.unlock
        exact (asked.judge _).of_same rfl
      · exact (asked.judge _).of_same rfl

theorem owned_verifyUser {caller : Uid} {trustedPortal : Bool} {username : Name} (owned : Owned token uid d) :
    Owned token uid (verifyUser accounts env caller trustedPortal username d).2 := by
  unfold verifyUser
  split
  · exact owned
  split
  · exact owned
  split
  · exact owned
  split
  · exact owned.of_same rfl
  next limiters _ =>
    have asked : Owned token uid { d with limiters } := owned.of_same rfl
    dsimp only
    split
    · exact asked
    split
    · exact asked
    split
    · exact asked
    split
    · exact asked
    split
    · apply Owned.unlock
      exact asked.of_same rfl
    · exact asked.of_same rfl

theorem Tried.hits {attempt : Attempt} {comparisons : List Comparison} {success : Bool} {limiters : RateLimiters}
    (tried : Tried env d attempt comparisons success limiters) (yes : success = true) :
    (∃ made ∈ comparisons, made.matched = true) ∧ ∀ made ∈ comparisons, made.template ∈ d.enrollmentsOf attempt.who := by
  cases tried with
  | refused => cases yes
  | stopped => cases yes
  | denied asked guess => cases yes
  | failed asked => cases yes
  | matched asked hit free => exact ⟨hit, asked.own⟩

/-- Verify answers the owner of a session whose finger is recognised. -/
theorem verify_accepts {caller : Uid} {sender : Name} {wanted : Bytes} {slot : SessionSlot} {reached : State}
    (found : findSession env.time wanted d = (some slot, reached)) (own : (reached.sessions slot).uid = caller)
    (bound : (reached.sessions slot).belongsTo sender = true)
    (free : (checkVerifyRateLimit env.checkedAt caller reached.limiters).1 = none)
    (device : reached.fpDev = true) (memory : env.allocates = true) (up : reached.shuttingDown = false)
    (accepted : (tryTemplates env reached.tpmPolicy env.locks
    (fun number => (issueToken env (reached.sessions slot) number).isSome) 0
      (reached.enrollmentsOf caller)).accepted.isSome = true) :
    (verify env caller sender wanted d).1.reply = .matched true := by
  unfold verify
  rw [found]
  dsimp only
  subst own
  split
  next different => exact absurd rfl different.2
  split
  next unbound => simp [bound] at unbound
  rcases checked : checkVerifyRateLimit env.checkedAt (reached.sessions slot).uid reached.limiters with ⟨seconds, limiters⟩
  rw [checked] at free
  cases free
  dsimp only
  split
  next missing => simp [device] at missing
  split
  next full => simp [memory] at full
  split
  next down => simp [up] at down
  split
  next denied =>
    have nothing := Option.isNone_iff_eq_none.mp denied.1
    change (tryTemplates env reached.tpmPolicy _ _ 0 (reached.enrollmentsOf _)).accepted = none at nothing
    rw [nothing] at accepted
    cases accepted
  split
  · rfl
  next rejected => exact absurd accepted rejected

/-- No call hands the token to somebody else, unless it happens to draw it anew. -/
theorem owned_serve {request : Request} (drawn : request.env.token ≠ some token) (owned : Owned token uid d) :
    Owned token uid (serve mac accounts request d).2 := by
  by_cases edits : request.call.edits = true
  · obtain ⟨enrollments, disk, same⟩ := @serve_edits mac accounts request d edits
    rw [same]
    exact owned.of_same rfl
  unfold serve
  cases call : request.call with
  | authenticate caller sender => exact owned_authenticateWith drawn owned
  | authenticateInteractive caller sender => exact owned_authenticateWith drawn owned
  | revokeSession caller sender => exact owned_revokeFrom caller sender _ d owned
  | createSession caller sender requested =>
    have created : Owned token uid (createSession request.env request.env.time (sessionUid caller requested) sender d).2 :=
      owned_createSession (fun same => absurd same drawn) owned
    change Owned token uid (createSessionCall request.env caller sender requested d).2
    unfold createSessionCall
    split
    next made =>
      rw [made] at created
      exact created
    next made =>
      rw [made] at created
      exact created
  | verify caller sender wanted => exact owned_verify owned
  | verifyUser caller trustedPortal username => exact owned_verifyUser owned
  | fprintdVerify username =>
    obtain ⟨limiters, same⟩ : ∃ limiters, (daemonVerifyUser accounts request.env username d).2 = { d with limiters } :=
      daemonVerifyUser_only username
    change Owned token uid (daemonVerifyUser accounts request.env username d).2
    rw [same]
    exact owned.of_same rfl
  | reload config =>
    have reloaded : Owned token uid { d with config } := owned.of_same rfl
    exact owned_prune reloaded
  | restart =>
    intro slot active
    cases active
  | _ =>
    rw [call] at edits
    exact absurd rfl edits

end

end Hiya.Daemon

namespace Hiya.Pam
open Library Daemon

section
variable {mac : Buf 32 → Bytes → Buf 32} {accounts : Accounts}

theorem owned_serveAll {token : Buf 32} {uid : Uid} (requests : List Request) : ∀ d : State,
    (∀ request ∈ requests, request.env.token ≠ some token) → Owned token uid d →
      Owned token uid (serveAll mac accounts requests d) := by
  induction requests with
  | nil => exact fun d _ owned => owned
  | cons request rest ih =>
    intro d undrawn owned
    have first := undrawn request List.mem_cons_self
    exact ih _ (fun later inside => undrawn later (List.mem_cons_of_mem _ inside)) (owned_serve first owned)

/-- The random token of the new session is nobody else's: no open session has it, and no
call draws it again before the module comes back with it. -/
structure DrawsFresh (mac : Buf 32 → Bytes → Buf 32) (accounts : Accounts) (world : World) (d : State) : Prop where
  unused : ∀ slot, ((serveAll mac accounts world.beforeCreate d).sessions slot).active = true →
    world.createEnv.token ≠ some ((serveAll mac accounts world.beforeCreate d).sessions slot).token
  undrawn : ∀ request ∈ world.beforeVerify, ∀ token, world.createEnv.token = some token → request.env.token ≠ some token

/-- The session the module is given is the only one with its token, and belongs to the
user CreateSession chose. -/
theorem createSession_owned {world : World} {caller uid : Uid} {sender : Name} {token : Buf 32} {d reached : State}
    (unused : ∀ slot, (d.sessions slot).active = true → world.createEnv.token ≠ some (d.sessions slot).token)
    (made : createSession mac accounts world caller sender uid d = (some token, reached)) :
    world.createEnv.token = some token ∧ Owned token (sessionUid caller (some uid)) reached := by
  have calls : serve mac accounts { call := .createSession caller sender (some uid), env := world.createEnv } d =
      createSessionCall world.createEnv caller sender (some uid) d := rfl
  unfold createSession at made
  rw [calls] at made
  unfold createSessionCall at made
  rcases created : Daemon.createSession world.createEnv world.createEnv.time (sessionUid caller (some uid)) sender d with
    ⟨_ | slot, after⟩
  · rw [created] at made
    cases made
  · rw [created] at made
    dsimp only [Outcome.quiet] at made
    split at made
    next given same _ =>
      cases same
      cases made
      have drawn := (createSession_made created).token
      refine ⟨drawn, ?_⟩
      have before : Owned (reached.sessions slot).token (sessionUid caller (some uid)) d := by
        intro other active same
        exact absurd (drawn.trans (congrArg some same.symm)) (unused other active)
      have owned : Owned (reached.sessions slot).token (sessionUid caller (some uid))
          (Daemon.createSession world.createEnv world.createEnv.time (sessionUid caller (some uid)) sender d).2 :=
        owned_createSession (fun _ => rfl) before
      rwa [created] at owned
    next => cases made

/-- What a positive answer of Verify rests on: a match among the templates of the user
who owns the session. -/
theorem callVerify_matched {world : World} {caller owner : Uid} {sender : Name} {token : Buf 32} {d after : State}
    {outcome : Outcome}
    (owned : Owned token owner d)
    (verified : callVerify mac accounts world caller sender token d = (some true, outcome, after)) :
    (∃ made ∈ outcome.comparisons, made.matched = true) ∧ ∀ made ∈ outcome.comparisons,
    made.template ∈ d.enrollmentsOf owner := by
  have answered : outcome = (verify world.verifyEnv caller sender token.bytes d).1 ∧ outcome.reply = .matched true := by
    unfold callVerify at verified
    dsimp only at verified
    split at verified
    next same _ =>
      cases verified
      exact ⟨rfl, same⟩
    next => cases verified
  obtain ⟨rfl, positive⟩ := answered
  rcases found : findSession world.verifyEnv.time token.bytes d with ⟨_ | slot, reached⟩
  · unfold verify at positive
    rw [found] at positive
    cases positive
  · obtain ⟨active, bytes⟩ := findSession_found found
    have same : (reached.sessions slot).uid = owner :=
      owned_findSession found owned slot active (Buf.ext bytes)
    have tried : Tried world.verifyEnv d { key := caller, who := (reached.sessions slot).uid, locks := world.verifyEnv.locks }
        (verify world.verifyEnv caller sender token.bytes d).1.comparisons
        (verify world.verifyEnv caller sender token.bytes d).1.reply.succeeds _ := verify_tried found
    obtain ⟨hit, own⟩ := tried.hits (by rw [positive]; rfl)
    rw [← same]
    exact ⟨hit, own⟩

structure LetsIn (verdict : Verdict) (owner : Uid) : Prop where
  hit : ∃ made ∈ verdict.comparisons, made.matched = true
  own : ∀ made ∈ verdict.comparisons, made.template ∈ verdict.stored ∧ made.template.uid = owner

theorem giveUp_fails {config : PamConfig} {other : PamResult} {d : State} (different : other ≠ .success) :
    (Verdict.early (if config.fallback then .ignore else other) d).result ≠ .success := by
  unfold Verdict.early
  dsimp only
  split
  · exact nofun
  · exact different

/-- Whoever is let in, the sensor matched a stored template of the session's user. -/
theorem success_letsIn {config : PamConfig} {world : World} {caller uid : Uid} {sender username : Name} {d : State}
    {verdict : Verdict} (known : accounts.uidOf username = some uid) (fresh : DrawsFresh mac accounts world d)
    (returned : pamSmAuthenticate mac accounts config world caller sender (some username) d = verdict)
    (success : verdict.result = .success) : LetsIn verdict (sessionUid caller (some uid)) := by
  unfold pamSmAuthenticate at returned
  dsimp only at returned
  split at returned
  next absent => cases absent
  next =>
    subst returned
    exact absurd success (giveUp_fails nofun)
  next same =>
    cases same
    rw [known] at returned
    dsimp only at returned
    split at returned
    · subst returned
      exact absurd success (giveUp_fails nofun)
    split at returned
    · subst returned
      exact absurd success (giveUp_fails nofun)
    split at returned
    · subst returned
      unfold Verdict.early at success
      dsimp only at success
      split at success
      · cases success
      · cases success
    split at returned
    next =>
      subst returned
      exact absurd success (giveUp_fails nofun)
    next token created made =>
      obtain ⟨drawn, owned⟩ := createSession_owned fresh.unused made
      have kept : Owned token (sessionUid caller (some uid)) (serveAll mac accounts world.beforeVerify created) :=
        owned_serveAll _ created (fun request inside => fresh.undrawn request inside token drawn) owned
      split at returned
      · subst returned
        dsimp only at success
        split at success
        · cases success
        · cases success
      next outcome after verified =>
        subst returned
        obtain ⟨hit, own⟩ := callVerify_matched kept verified
        refine ⟨hit, fun made inside => ?_⟩
        obtain ⟨stored, same⟩ := List.mem_filter.mp (own made inside)
        exact ⟨stored, of_decide_eq_true same⟩
      · subst returned
        dsimp only at success
        split at success
        · cases success
        · cases success

end

/-- What PAM relies on: an application with one uid lets a user in only if the sensor
matched a stored template of that user, and of nobody else. -/
def VerifiesTarget (mac : Buf 32 → Bytes → Buf 32) (caller uid : Uid) : Prop :=
  ∀ (accounts : Accounts) (config : PamConfig) (world : World) (sender username : Name) (d : State),
    accounts.uidOf username = some uid → DrawsFresh mac accounts world d →
    (pamSmAuthenticate mac accounts config world caller sender (some username) d).result = .success →
    LetsIn (pamSmAuthenticate mac accounts config world caller sender (some username) d) uid

/-- A world that answers everything, with a finger on the sensor that matches one
template. -/
def calmWorld : World where
  connects := true
  hasDevice := true
  answersCount := true
  beforeCreate := []
  createEnv := calmEnv 1 [[7]]
  answersCreate := true
  beforeVerify := []
  verifyEnv := calmEnv 2 [[7]]
  answersVerify := true

def soleAccount (uid : Uid) : Accounts where
  uidOf _ := some uid
  nameOf _ := none

theorem calmWorld_fresh (mac : Buf 32 → Bytes → Buf 32) (accounts : Accounts) (enrollments : List Enrollment) :
    DrawsFresh mac accounts calmWorld (plainState enrollments) := by
  constructor
  · intro slot active
    cases active
  · intro request inside
    cases inside

theorem firstSlot_fits : 0 < maxSessionSlots := Nat.zero_lt_succ 63

def firstSlot : SessionSlot := ⟨0, firstSlot_fits⟩

def impostorSession (caller : Uid) : Session :=
  { Session.zero with uid := caller, created := 1, lastUsed := 2, active := true, sender := [1] }

def impostorState (caller : Uid) : State :=
  { plainState [plainTemplate caller 1 7] with
    sessions := Function.update (fun _ => .zero) firstSlot { impostorSession caller with lastUsed := 1 }
    sessionCount := 1 }

theorem impostor_created (mac : Buf 32 → Bytes → Buf 32) (accounts : Accounts) {caller uid : Uid}
    (unprivileged : caller ≠ 0) :
    createSession mac accounts calmWorld caller [1] uid (plainState [plainTemplate caller 1 7]) =
      (some (.zero 32), impostorState caller) := by
  have own : sessionUid caller (some uid) = caller := if_neg unprivileged
  have made : Daemon.createSession calmWorld.createEnv calmWorld.createEnv.time caller [1]
    (plainState [plainTemplate caller 1 7]) =
      (some firstSlot, impostorState caller) := rfl
  have called : createSessionCall calmWorld.createEnv caller [1] (some uid) (plainState [plainTemplate caller 1 7]) =
      (.quiet (.token (.zero 32)), impostorState caller) := by
    unfold createSessionCall
    rw [own, made]
    rfl
  have served : serve mac accounts { call := .createSession caller [1] (some uid), env := calmWorld.createEnv }
      (plainState [plainTemplate caller 1 7]) = (.quiet (.token (.zero 32)), impostorState caller) := called
  unfold createSession
  rw [served]
  rfl

theorem impostor_found (caller : Uid) : findSession 2 (Buf.zero 32).bytes (impostorState caller) =
    (some firstSlot, (impostorState caller).putSession firstSlot (impostorSession caller)) := rfl

theorem impostor_free (caller : Uid) : (checkVerifyRateLimit 2 caller .empty).1 = none := by
  have room : RateLimiters.empty.HasRoom caller := .inr (Nat.zero_lt_succ 127)
  unfold checkVerifyRateLimit
  dsimp only
  rw [get_find room]
  rfl

theorem impostor_verified (caller : Uid) :
    (verify calmWorld.verifyEnv caller [1] (Buf.zero 32).bytes (impostorState caller)).1.reply = .matched true := by
  refine verify_accepts (impostor_found caller) rfl rfl (impostor_free caller) rfl rfl rfl ?_
  have own : ((impostorState caller).putSession firstSlot (impostorSession caller)).enrollmentsOf caller =
    [plainTemplate caller 1 7] :=
    List.filter_cons_of_pos (decide_eq_true rfl)
  rw [own]
  rfl

/-- An unprivileged application that authenticates somebody else takes its own finger
for theirs. -/
theorem impostor_succeeds (mac : Buf 32 → Bytes → Buf 32) {caller uid : Uid} (unprivileged : caller ≠ 0)
    (other : caller ≠ uid) :
    (pamSmAuthenticate mac (soleAccount uid) (parseConfig []) calmWorld caller [1] (some [1])
      (plainState [plainTemplate caller 1 7])).result = .success := by
  have known : (soleAccount uid).uidOf [1] = some uid := rfl
  have hidden : getEnrolledCount calmWorld caller uid (plainState [plainTemplate caller 1 7]) = none := by
    have denied : getEnrolledFingers caller uid (plainState [plainTemplate caller 1 7]) = none := if_pos ⟨unprivileged, other⟩
    unfold getEnrolledCount
    rw [denied]
    rfl
  have created : createSession mac (soleAccount uid) calmWorld caller [1] uid
      (serveAll mac (soleAccount uid) calmWorld.beforeCreate (plainState [plainTemplate caller 1 7])) =
        (some (.zero 32), impostorState caller) := impostor_created mac (soleAccount uid) unprivileged
  have served : (serve mac (soleAccount uid) { call := .verify caller [1] (Buf.zero 32).bytes, env := calmWorld.verifyEnv }
      (serveAll mac (soleAccount uid) calmWorld.beforeVerify (impostorState caller))).1.reply =
        .matched true := impostor_verified caller
  have verified : ∃ outcome after, callVerify mac (soleAccount uid) calmWorld caller [1] (.zero 32)
      (serveAll mac (soleAccount uid) calmWorld.beforeVerify (impostorState caller)) = (some true, outcome, after) := by
    unfold callVerify
    generalize serve mac (soleAccount uid)
      _ (serveAll mac (soleAccount uid) calmWorld.beforeVerify (impostorState caller)) = answer
      at served ⊢
    obtain ⟨outcome, after⟩ := answer
    dsimp only at served ⊢
    rw [served]
    exact ⟨outcome, after, rfl⟩
  obtain ⟨outcome, after, verified⟩ := verified
  unfold pamSmAuthenticate
  dsimp only
  rw [known]
  dsimp only
  have reachable : ¬ (!calmWorld.connects) = true := Bool.false_ne_true
  have equipped : ¬ (!calmWorld.hasDevice) = true := Bool.false_ne_true
  rw [if_neg reachable, if_neg equipped, hidden, if_neg nofun, created]
  dsimp only
  rw [verified]

theorem impostor_refutes (mac : Buf 32 → Bytes → Buf 32) {caller uid : Uid} (unprivileged : caller ≠ 0)
    (other : caller ≠ uid) :
    ¬ VerifiesTarget mac caller uid := by
  intro claimed
  have fresh : DrawsFresh mac (soleAccount uid) calmWorld (plainState [plainTemplate caller 1 7]) := calmWorld_fresh _ _ _
  have success := impostor_succeeds mac unprivileged other
  obtain ⟨⟨made, inside, -⟩, own⟩ := claimed (soleAccount uid) (parseConfig []) calmWorld [1] [1] _ rfl fresh success
  have really := (success_letsIn rfl fresh rfl success).own made inside
  rw [(own made inside).2, sessionUid, if_neg unprivileged] at really
  exact other really.2.symm

/-- The one who is let in is the one whose finger it is exactly when the application runs
as root or as that user. -/
theorem pam_verifies_target (mac : Buf 32 → Bytes → Buf 32) (caller uid : Uid) :
    VerifiesTarget mac caller uid ↔ caller = 0 ∨ caller = uid := by
  constructor
  · intro claimed
    by_contra neither
    obtain ⟨unprivileged, other⟩ := not_or.mp neither
    exact impostor_refutes mac unprivileged other claimed
  · intro either accounts config world sender username d known fresh success
    have same : sessionUid caller (some uid) = uid := by
      unfold sessionUid
      rcases either with root | own
      · rw [if_pos root]
        rfl
      · rw [own, Option.getD_some, ite_self]
    have letsIn := success_letsIn known fresh rfl success
    rwa [same] at letsIn

/-- The user with uid 2 passes for the one with uid 1. -/
theorem neighbour_passes_for_target : ¬ ∀ caller uid : Uid, VerifiesTarget plainMac caller uid := by
  intro claimed
  have unprivileged : (2 : Uid) ≠ 0 := by decide
  have other : (2 : Uid) ≠ 1 := by decide
  exact impostor_refutes plainMac unprivileged other (claimed 2 1)

end Hiya.Pam
