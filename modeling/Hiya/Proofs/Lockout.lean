import Hiya.Proofs.Attempts
import Hiya.Proofs.LimiterWindows

/-! A user who is locked out stays out, whatever the threads have under way: nothing reports
success for them, verifies a session of theirs or opens their vault, unless a face or root's
Verify goes around the limiter, or a verification has passed it before the lockout began. -/

namespace Hiya.Daemon
open Library

/-- The limiter of the user holds a lockout that is not over. -/
def LockedOut (d : State) (now : Int) (uid : Uid) : Prop := (d.limiters.get uid).lockoutUntil > now

def LastChance (d : State) (now : Int) (uid : Uid) : Prop :=
  (d.limiters.get uid).recent d.config now + 1 ≥ d.config.rateLimitMaxAttempts

section
variable {table : RateLimiters} {key other : Uid}

theorem find_mem_iff {entry : RateLimiter} :
    table.entries.find? (fun entry => entry.uid = key) = some entry ↔ entry ∈ table.entries ∧ entry.uid = key := by
  constructor
  · intro found
    exact ⟨List.mem_of_find?_eq_some found, by simpa using List.find?_some found⟩
  · rintro ⟨inside, same⟩
    cases found : table.entries.find? fun entry => entry.uid = key with
    | none => exact absurd same (by simpa using List.find?_eq_none.mp found entry inside)
    | some first =>
      have named : first.uid = key := by simpa using List.find?_some found
      rw [List.inj_on_of_nodup_map table.distinct (List.mem_of_find?_eq_some found) inside (named.trans same.symm)]

/-- Looking a uid up leaves the entry of another, or takes its place. -/
theorem lookup_other (different : other ≠ key) :
    (findRateLimiter key table).get other = table.get other ∨ (findRateLimiter key table).get other = .fresh other := by
  unfold RateLimiters.get
  cases found : (findRateLimiter key table).entries.find? fun entry => entry.uid = other with
  | none => exact .inr rfl
  | some entry =>
    obtain ⟨inside, same⟩ := find_mem_iff.mp found
    have old : entry ∈ table.entries := by
      unfold findRateLimiter at inside
      split at inside
      · exact inside
      · split at inside
        · rcases List.mem_append.mp inside with old | new
          · exact old
          · exact absurd (same.symm.trans (congrArg RateLimiter.uid (List.mem_singleton.mp new))) different
        · rcases List.mem_or_eq_of_mem_set inside with old | new
          · exact old
          · exact absurd (same.symm.trans (congrArg RateLimiter.uid new)) different
    rw [find_mem_iff.mpr ⟨old, same⟩]
    exact .inl rfl

theorem changed_other (change : RateLimiter → RateLimiter) (same : ∀ entry, (change entry).uid = entry.uid)
    (different : other ≠ key) :
    ((findRateLimiter key table).put (change ((findRateLimiter key table).get key))).get other = table.get other ∨
      ((findRateLimiter key table).put (change ((findRateLimiter key table).get key))).get other = .fresh other := by
  have named : (change ((findRateLimiter key table).get key)).uid = key := (same _).trans (get_uid _ key)
  rw [get_put_other _ (by rwa [named])]
  exact lookup_other different

/-- A change of one entry puts a lockout nowhere else. -/
theorem changed_lockout (change : RateLimiter → RateLimiter) (same : ∀ entry, (change entry).uid = entry.uid)
    {now : Int} (late : 0 ≤ now) {uid : Uid}
    (locked : (((findRateLimiter key table).put (change ((findRateLimiter key table).get key))).get uid).lockoutUntil > now) :
    (table.get uid).lockoutUntil > now ∨ uid = key ∧ (change (table.get key)).lockoutUntil > now := by
  by_cases here : uid = key
  · subst here
    rw [own_changed change same] at locked
    exact .inr ⟨rfl, locked⟩
  · rcases changed_other change same here with kept | gone
    · exact .inl (kept ▸ locked)
    · rw [gone] at locked
      exact absurd locked (by simpa [RateLimiter.fresh] using late)

end

section
variable {d : State} {uid key : Uid} {now clock : Int}

theorem LockedOut.earlier (locked : LockedOut d now uid) (sooner : clock ≤ now) : LockedOut d clock uid :=
    Int.lt_of_le_of_lt sooner locked

/-- The limiter refuses exactly who is locked out. -/
theorem checked_free : (checkVerifyRateLimit now uid d.limiters).1 = none ↔ ¬ LockedOut d now uid := by
  rw [own_answer]
  unfold LockedOut
  split
  next locked => simp [locked]
  next free => simp [free]

theorem check_calm (late : 0 ≤ clock) (locked :
    LockedOut { d with limiters := (checkVerifyRateLimit now key d.limiters).2 } clock uid) :
    LockedOut d clock uid := by
  rcases changed_lockout _ (checked_uid now) late locked with before | ⟨rfl, here⟩
  · exact before
  · unfold RateLimiter.checked at here
    split at here
    · exact here
    · split at here
      · exact absurd here (by simpa using late)
      · exact here

theorem reset_calm (late : 0 ≤ clock) (locked : LockedOut { d with limiters := resetVerifyRateLimit key d.limiters }
    clock uid) :
    LockedOut d clock uid := by
  rcases changed_lockout RateLimiter.reset (fun _ => rfl) late locked with before | ⟨rfl, here⟩
  · exact before
  · exact absurd here (by simpa [RateLimiter.reset] using late)

/-- A failure that is recorded locks out its own user only, and only at the last chance. -/
theorem record_calm (late : 0 ≤ clock) (locked :
    LockedOut { d with limiters := recordVerifyFailure d.config now key d.limiters } clock uid) :
    LockedOut d clock uid ∨ uid = key ∧ LastChance d now key := by
  rcases changed_lockout _ (recorded_uid d.config now) late locked with before | ⟨rfl, here⟩
  · exact .inl before
  · unfold RateLimiter.recorded at here
    dsimp only at here
    split at here
    next last => exact .inr ⟨rfl, last⟩
    next => exact .inl here

end

def IsVerified (uid : Uid) (session : Session) : Prop := session.active = true ∧ session.verified = true ∧ session.uid = uid

structure Guarded (uid : Uid) (before after : State) : Prop where
  sessions : ∀ slot, IsVerified uid (after.sessions slot) → IsVerified uid (before.sessions slot)
  vault : after.vaultUnlocked uid = true → before.vaultUnlocked uid = true

namespace Guarded
variable {uid : Uid}

theorem refl (d : State) : Guarded uid d d := ⟨fun _ held => held, fun open? => open?⟩

theorem trans {first second third : State} (front : Guarded uid first second) (back : Guarded uid second third) :
    Guarded uid first third :=
  ⟨fun slot held => front.sessions slot (back.sessions slot held), fun open? => front.vault (back.vault open?)⟩

theorem of_same {before after : State} (sessions : after.sessions = before.sessions)
    (vault : after.vaultUnlocked = before.vaultUnlocked) : Guarded uid before after := by
  constructor
  · intro slot held
    rwa [sessions] at held
  · intro open?
    rwa [vault] at open?

/-- Put a session that shows no more for the user than the one it replaces. -/
theorem put {d after : State} {slot : SessionSlot} {session : Session}
    (less : IsVerified uid session → IsVerified uid (d.sessions slot))
    (sessions : after.sessions = Function.update d.sessions slot session) (vault : after.vaultUnlocked = d.vaultUnlocked) :
    Guarded uid d after := by
  constructor
  · intro other held
    rw [sessions] at held
    by_cases here : other = slot
    · subst here
      rw [Function.update_self] at held
      exact less held
    · rwa [Function.update_of_ne here] at held
  · intro open?
    rwa [vault] at open?

theorem putSession {d : State} {slot : SessionSlot} {session : Session}
    (less : IsVerified uid session → IsVerified uid (d.sessions slot)) : Guarded uid d (d.putSession slot session) :=
  .put less rfl rfl

theorem close (slot : SessionSlot) (d : State) : Guarded uid d (d.closeSession slot) := by
  refine put ?_ rfl rfl
  rintro ⟨active, -⟩
  cases active

theorem unlock {env : Env} {other : Uid} (different : uid ≠ other) (d : State) :
    Guarded uid d (autoUnlockUserVault env other d) := by
  unfold autoUnlockUserVault
  split
  · refine ⟨fun _ held => held, fun open? => ?_⟩
    change Function.update d.vaultUnlocked other true uid = true at open?
    rwa [Function.update_of_ne different] at open?
  · exact .refl d

end Guarded

section
variable {uid : Uid}

theorem guarded_findSessionFrom (now : Int) (token : Bytes) (slots : List SessionSlot) : ∀ d : State,
    Guarded uid d (findSessionFrom now token slots d).2 := by
  induction slots with
  | nil => exact fun d => .refl d
  | cons slot rest ih =>
    intro d
    unfold findSessionFrom
    split
    · exact ih d
    · split
      · exact (Guarded.close slot d).trans (ih _)
      · split
        · refine .put ?_ rfl rfl
          exact fun held => held
        · exact ih d

theorem guarded_findSession {now : Int} {token : Bytes} {d reached : State} {slot : Option SessionSlot}
    (found : findSession now token d = (slot, reached)) : Guarded uid d reached := by
  have same : reached = (findSession now token d).2 := by rw [found]
  rw [same]
  unfold findSession
  split
  · exact .refl d
  · exact guarded_findSessionFrom now token _ d

theorem guarded_createSession (env : Env) (now : Int) (owner : Uid) (sender : Name) (d : State) :
    Guarded uid d (createSession env now owner sender d).2 := by
  unfold createSession
  split
  · exact .refl d
  next slot _ =>
    have closed : Guarded uid d (if (d.sessions slot).active then d.closeSession slot else d) := by
      split
      · exact .close slot d
      · exact .refl d
    dsimp only
    split
    · split
      · refine closed.trans (.put ?_ rfl rfl)
        rintro ⟨-, verified, -⟩
        cases verified
      · refine closed.trans (.put ?_ rfl rfl)
        rintro ⟨active, -⟩
        cases active
    · refine closed.trans (.put ?_ rfl rfl)
      rintro ⟨active, -⟩
      cases active

theorem guarded_revokeFrom (owner : Uid) (sender : Name) (slots : List SessionSlot) : ∀ d : State,
    Guarded uid d (revokeFrom owner sender slots d) := by
  induction slots with
  | nil => exact fun d => .refl d
  | cons slot rest ih =>
    intro d
    unfold revokeFrom
    dsimp only
    split
    · have wiped : Guarded uid d { d.putSession slot .zero with sessionCount := d.sessionCount - 1 } := by
        refine .put ?_ rfl rfl
        rintro ⟨active, -⟩
        cases active
      exact wiped.trans (ih _)
    · exact ih d

theorem guarded_prune (d : State) : Guarded uid d (pruneSessions d) := by
  unfold pruneSessions
  generalize ((List.finRange maxSessionSlots).filter fun slot => d.sessionCapacity ≤ slot.val) = slots
  induction slots generalizing d with
  | nil => exact .refl d
  | cons slot rest ih =>
    rw [List.foldl_cons]
    refine Guarded.trans ?_ (ih _)
    split
    · exact .close slot d
    · exact .refl d

end

section
variable {accounts : Accounts} {env : Env} {d : State} {uid : Uid}

theorem daemonVerifyUser_only (user : Name) : ∃ limiters, (daemonVerifyUser accounts env user d).2 = { d with limiters } := by
  unfold daemonVerifyUser
  split
  · exact ⟨d.limiters, rfl⟩
  · split
    · exact ⟨_, rfl⟩
    · dsimp only
      repeat' split
      all_goals exact ⟨_, rfl⟩

/-- Admitting one user gains nothing for another. -/
theorem guarded_letIn {caller : Uid} (different : uid ≠ caller) (sender : Name) (d : State) :
    Guarded uid d (letIn env caller sender d) := by
  have created : Guarded uid d (createSession env env.later caller sender d).2 := guarded_createSession _ _ _ _ _
  unfold letIn
  dsimp only
  split
  next slot reached made =>
    rw [made] at created
    have marked : Guarded uid reached
        (reached.putSession slot { reached.sessions slot with verified := true, hasVerifyToken := false }) := by
      apply Guarded.putSession
      rintro ⟨-, -, named⟩
      exact absurd (named.symm.trans (createSession_made made).uid) different
    exact (created.trans marked).trans (.unlock different _)
  next reached made =>
    rw [made] at created
    exact created.trans (.unlock different _)

theorem usernameForUid_some {caller : Uid} {username : Name} (named : usernameForUid accounts caller = some username) :
    accounts.nameOf caller = some username := by
  unfold usernameForUid at named
  exact (Option.filter_eq_some_iff.mp named).1

/-- The verdict touches what a session has verified and nothing else of it. -/
theorem judged_only (session : Session) (trial : Trial) :
    ∃ verified verifyToken hasVerifyToken,
    session.judged env trial = { session with verified, verifyToken, hasVerifyToken } := by
  unfold Session.judged
  split
  · exact ⟨_, _, _, rfl⟩
  · split
    · exact ⟨_, _, _, rfl⟩
    · exact ⟨_, _, _, rfl⟩

theorem judged_uid (session : Session) (trial : Trial) : (session.judged env trial).uid = session.uid := by
  obtain ⟨_, _, _, same⟩ := judged_only session trial
  rw [same]

theorem judged_active (session : Session) (trial : Trial) : (session.judged env trial).active = session.active := by
  obtain ⟨_, _, _, same⟩ := judged_only session trial
  rw [same]

theorem revokeFrom_limiters (owner : Uid) (sender : Name) (slots : List SessionSlot) : ∀ d : State,
    (revokeFrom owner sender slots d).limiters = d.limiters := by
  induction slots with
  | nil => exact fun _ => rfl
  | cons slot rest ih =>
    intro d
    unfold revokeFrom
    dsimp only
    split
    · exact ih _
    · exact ih d

theorem pruneSessions_limiters (d : State) : (pruneSessions d).limiters = d.limiters := by
  unfold pruneSessions
  generalize ((List.finRange maxSessionSlots).filter fun slot => d.sessionCapacity ≤ slot.val) = slots
  induction slots generalizing d with
  | nil => rfl
  | cons slot rest ih =>
    rw [List.foldl_cons, ih]
    split
    · rfl
    · rfl

/-- A call that verifies nobody gains nothing for anybody, and asks no limiter. -/
theorem serve_aside {mac : Buf 32 → Bytes → Buf 32} {request : Request} (aside : request.call.verifies = false)
    (stays : request.call ≠ .restart) :
    Guarded uid d (serve mac accounts request d).2 ∧ (serve mac accounts request d).2.limiters = d.limiters := by
  by_cases edits : request.call.edits = true
  · obtain ⟨enrollments, disk, same⟩ := @serve_edits mac accounts request d edits
    rw [same]
    exact ⟨.of_same rfl rfl, rfl⟩
  unfold serve
  cases call : request.call with
  | revokeSession caller sender => exact ⟨guarded_revokeFrom caller sender _ d, revokeFrom_limiters caller sender _ d⟩
  | createSession caller sender requested =>
    have created : Guarded uid d (createSession request.env request.env.time (sessionUid caller requested) sender d).2 :=
      guarded_createSession _ _ _ _ _
    obtain ⟨sessions, sessionCount, only⟩ :=
      createSession_only request.env request.env.time (sessionUid caller requested) sender d
    change Guarded uid d (createSessionCall request.env caller sender requested d).2 ∧
      (createSessionCall request.env caller sender requested d).2.limiters = d.limiters
    unfold createSessionCall
    split
    next made =>
      rw [made] at created only
      exact ⟨created, by rw [only]⟩
    next made =>
      rw [made] at created only
      exact ⟨created, by rw [only]⟩
  | reload config =>
    have reloaded : Guarded uid d { d with config } := .of_same rfl rfl
    exact ⟨reloaded.trans (guarded_prune _), pruneSessions_limiters _⟩
  | restart => exact absurd call stays
  | _ =>
    rw [call] at edits aside
    first
      | exact absurd rfl edits
      | cases aside

end

def Purpose.subjects (d : State) : Purpose → List Uid
  | .authenticate _ caller _ _ => [caller]
  | .verify caller slot => [caller, (d.sessions slot).uid]
  | .verifyUser target => [target]
  | .fprintd uid => [uid]

def Stage.hopeful : Stage → Bool
  | .waiting _ _ => true
  | .scanned _ trial => trial.accepted.isSome
  | .decided verdict => verdict.reply.succeeds

def Verification.Free (verification : Verification) (d : State) (now : Int) : Prop :=
  verification.stage.hopeful = true → ∀ uid ∈ verification.purpose.subjects d, ¬ LockedOut d now uid

/-- What the first step of a call leaves: nobody has gained anything, no lockout has begun, and
what is under way has passed the limiter. -/
structure Started (call : Call) (now : Int) (d : State) (opening : Opening) (after : State) : Prop where
  guarded : ∀ uid, Guarded uid d after
  calm : ∀ uid (later : Int), 0 ≤ later → LockedOut after later uid → LockedOut d later uid
  answered : ∀ outcome, opening = .answered outcome → outcome.reply.succeeds = true → call.verifies = false
  begun : ∀ verification, opening = .begun verification → verification.Free after now

namespace Started
variable {call : Call} {d after : State} {now : Int} {opening : Opening}

theorem refused {outcome : Outcome} (negative : outcome.reply.succeeds = false) :
    Started call now d (.answered outcome) d where
  guarded _ := .refl d
  calm _ _ _ locked := locked
  answered _ same yes := by
    cases same
    rw [negative] at yes
    cases yes
  begun _ same := nomatch same

theorem begins {verification : Verification} (free : verification.Free d now) :
    Started call now d (.begun verification) d where
  guarded _ := .refl d
  calm _ _ _ locked := locked
  answered _ same := nomatch same
  begun _ same := by
    cases same
    exact free

theorem asked {key : Uid} {asked : Int}
    (opened : Started call now { d with limiters := (checkVerifyRateLimit asked key d.limiters).2 } opening after) :
    Started call now d opening after where
  guarded uid := by
    have charged : Guarded uid d { d with limiters := (checkVerifyRateLimit asked key d.limiters).2 } := .of_same rfl rfl
    exact charged.trans (opened.guarded uid)
  calm uid later late locked := check_calm late (opened.calm uid later late locked)
  answered := opened.answered
  begun := opened.begun

theorem found {time : Int} {token : Bytes} {slot : Option SessionSlot} {reached : State}
    (found : findSession time token d = (slot, reached)) (opened : Started call now reached opening after) :
    Started call now d opening after where
  guarded uid := (guarded_findSession found).trans (opened.guarded uid)
  calm uid later late locked := by
    have before := opened.calm uid later late locked
    obtain ⟨sessions, sessionCount, rfl⟩ := findSession_only found
    exact before
  answered := opened.answered
  begun := opened.begun

end Started

section
variable {accounts : Accounts} {env : Env} {d : State} {call : Call}

/-- Whoever has passed the limiter is not locked out. -/
theorem passed_free {uid : Uid} (late : 0 ≤ env.checkedAt)
    (free : (checkVerifyRateLimit env.checkedAt uid d.limiters).1 = none) :
    ¬ LockedOut { d with limiters := (checkVerifyRateLimit env.checkedAt uid d.limiters).2 } env.checkedAt uid :=
  fun locked => checked_free.mp free (check_calm late locked)

theorem verifyOpens_opened {caller : Uid} {sender : Name} {token : Bytes} (late : 0 ≤ env.checkedAt)
    (straight : ∀ slot reached, findSession env.time token d = (some slot, reached) →
      ¬ (caller = 0 ∧ (reached.sessions slot).uid ≠ 0 ∧ LockedOut d env.checkedAt (reached.sessions slot).uid)) :
    Started call env.checkedAt d (verifyOpens env caller sender token d).1 (verifyOpens env caller sender token d).2 := by
  unfold verifyOpens
  rcases found : findSession env.time token d with ⟨_ | slot, reached⟩
  · exact (Started.refused rfl).found found
  have unlocked : LockedOut reached env.checkedAt (reached.sessions slot).uid →
    ¬ (caller = 0 ∧ (reached.sessions slot).uid ≠ 0) := by
    intro locked root
    refine straight slot reached found ⟨root.1, root.2, ?_⟩
    obtain ⟨sessions, sessionCount, rfl⟩ := findSession_only found
    exact locked
  refine Started.found found ?_
  dsimp only
  split
  · exact .refused rfl
  next own =>
  split
  · exact .refused rfl
  rcases checked : checkVerifyRateLimit env.checkedAt caller reached.limiters with ⟨_ | seconds, limiters⟩
  · obtain rfl := limiters_checked checked
    have free := passed_free late (congrArg Prod.fst checked)
    dsimp only
    split
    · exact .asked (.refused rfl)
    split
    · exact .asked (.refused rfl)
    refine .asked (.begins fun _ uid subject => ?_)
    rcases List.mem_cons.mp subject with rfl | subject
    · exact free
    · obtain rfl := List.mem_singleton.mp subject
      by_cases root : caller = 0
      · by_cases other : (reached.sessions slot).uid = 0
        · exact (other.trans root.symm) ▸ free
        · exact fun locked => unlocked (check_calm late locked) ⟨root, other⟩
      · have same : (reached.sessions slot).uid = caller := by
          by_contra different
          exact own ⟨root, different⟩
        exact same ▸ free
  · obtain rfl := limiters_checked checked
    exact .asked (.refused rfl)

theorem verifyUserOpens_opened {caller : Uid} {trustedPortal : Bool} {username : Name} (late : 0 ≤ env.checkedAt) :
    Started call env.checkedAt d (verifyUserOpens accounts env caller trustedPortal username d).1
      (verifyUserOpens accounts env caller trustedPortal username d).2 := by
  unfold verifyUserOpens
  split
  · exact .refused rfl
  split
  · exact .refused rfl
  next target _ =>
  split
  · exact .refused rfl
  rcases checked : checkVerifyRateLimit env.checkedAt target d.limiters with ⟨_ | seconds, limiters⟩
  · obtain rfl := limiters_checked checked
    have free := passed_free late (congrArg Prod.fst checked)
    dsimp only
    split
    · exact .asked (.refused rfl)
    split
    · exact .asked (.refused rfl)
    · refine .asked (.begins fun _ uid subject => ?_)
      obtain rfl := List.mem_singleton.mp subject
      exact free
  · obtain rfl := limiters_checked checked
    exact .asked (.refused rfl)

/-- The internal entry point, for a call that is made for its user only. -/
theorem daemonVerifyUserOpens_opened {user : Name} {uid : Uid} {purpose : Purpose} (late : 0 ≤ env.checkedAt)
    (known : accounts.uidOf user = some uid) (own : ∀ d, purpose.subjects d = [uid]) :
    Started call env.checkedAt d (.begun { purpose, stage := (daemonVerifyUserOpens accounts env user d).1 })
      (daemonVerifyUserOpens accounts env user d).2 := by
  have fails (d : State) (code : BioCode) (failed : code ≠ .ok) :
      Started call env.checkedAt d (.begun { purpose, stage := .decided (.quiet (.returned code)) }) d := by
    refine .begins fun yes => ?_
    exact absurd (of_decide_eq_true yes) failed
  unfold daemonVerifyUserOpens
  rw [known]
  dsimp only
  rcases checked : checkVerifyRateLimit env.checkedAt uid d.limiters with ⟨_ | seconds, limiters⟩
  · obtain rfl := limiters_checked checked
    have free := passed_free late (congrArg Prod.fst checked)
    dsimp only
    split
    · exact .asked (fails _ .notFound nofun)
    split
    · exact .asked (fails _ .nomem nofun)
    split
    · exact .asked (fails _ .io nofun)
    · refine .asked (.begins fun _ other subject => ?_)
      obtain rfl := List.mem_singleton.mp (own _ ▸ subject)
      exact free
  · obtain rfl := limiters_checked checked
    exact .asked (fails _ .rateLimit nofun)

/-- Whoever is asked for by uid is found again under the name. -/
def Accounts.Agree (accounts : Accounts) : Prop := ∀ uid name, accounts.nameOf uid = some name →
    accounts.uidOf name = some uid

theorem authenticateOpens_opened {interactive : Bool} {caller : Uid} {sender : Name} (agree : accounts.Agree)
    (late : 0 ≤ env.checkedAt) :
    Started call env.checkedAt d (authenticateOpens accounts env interactive caller sender d).1
      (authenticateOpens accounts env interactive caller sender d).2 := by
  unfold authenticateOpens
  split
  · exact .refused rfl
  next username named =>
    exact daemonVerifyUserOpens_opened late (agree caller username (usernameForUid_some named)) fun _ => rfl

theorem fprintdOpens_opened {username : Name} (late : 0 ≤ env.checkedAt) :
    Started call env.checkedAt d (fprintdOpens accounts env username d).1 (fprintdOpens accounts env username d).2 := by
  unfold fprintdOpens
  split
  · exact .refused rfl
  next uid known => exact daemonVerifyUserOpens_opened late known fun _ => rfl

def OverOwner (env : Env) (call : Call) (d : State) : Prop :=
  ∃ sender token slot reached, call = .verify 0 sender token ∧ findSession env.time token d = (some slot, reached) ∧
    (reached.sessions slot).uid ≠ 0 ∧ LockedOut d env.checkedAt (reached.sessions slot).uid

theorem opens_opened (mac : Buf 32 → Bytes → Buf 32) (agree : accounts.Agree) (late : 0 ≤ env.checkedAt)
    (straight : ¬ OverOwner env call d) (stays : call ≠ .restart) :
    Started call env.checkedAt d (opens mac accounts env call d).1 (opens mac accounts env call d).2 := by
  have aside (quiet : call.verifies = false) : Started call env.checkedAt d
      (.answered (serve mac accounts { call, env } d).1) (serve mac accounts { call, env } d).2 := by
    have served (uid : Uid) := @serve_aside accounts d uid mac { call, env } quiet stays
    refine ⟨fun uid => (served uid).1, fun uid later _ locked => ?_, fun _ _ _ => quiet, nofun⟩
    unfold LockedOut at locked ⊢
    rwa [(served uid).2] at locked
  unfold opens
  cases call with
  | authenticate caller sender => exact authenticateOpens_opened agree late
  | authenticateInteractive caller sender => exact authenticateOpens_opened agree late
  | verify caller sender token =>
    refine verifyOpens_opened late fun slot reached found ⟨root, other, locked⟩ => ?_
    subst root
    exact straight ⟨sender, token, slot, reached, rfl, found, other, locked⟩
  | verifyUser caller trustedPortal username => exact verifyUserOpens_opened late
  | fprintdVerify username => exact fprintdOpens_opened late
  | _ => exact aside rfl

end

def Threads.now (move : Move) (threads : Threads) : Nat := threads.clock + move.waited

/-- The ways around the limiter. A face stands in for the finger of a caller who is locked out;
root verifies the session of a user who is; or the failure that locks a user out is recorded while
a verification that has passed the limiter for the same user may still come to a success. -/
inductive Bypasses (move : Move) (threads : Threads) : Prop
  | face {interactive : Bool} {caller : Uid} {sender username : Name} {verdict : Outcome} (concludes : move.act = .conclude)
      (held : threads.underway move.thread =
      some { purpose := .authenticate interactive caller sender username, stage := .decided verdict })
      (locked : LockedOut threads.daemon (threads.now move) caller)
      (known : move.env.howdyAvailable = true ∧ move.env.howdyVerifies username = true)
  | owner {call : Call} (starts : move.act = .start call)
      (owned : OverOwner (move.env.at (threads.now move)) call threads.daemon)
  | overlap {verification late : Verification} {key : Uid} {trial : Trial} {thread : Thread} (settles : move.act = .settle)
      (held : threads.underway move.thread = some verification) (failed : verification.stage = .scanned key trial)
      (unmatched : trial.accepted = none) (last : LastChance threads.daemon (threads.now move) key)
      (other : thread ≠ move.thread) (beside : threads.underway thread = some late) (hopes : late.stage.hopeful = true)
      (same : key ∈ late.purpose.subjects threads.daemon)

/-- Workers verify for the fprintd device, and whoever a verification may still let in is not
locked out. -/
structure Sound (threads : Threads) : Prop where
  workers : ∀ number verification, threads.underway (.worker number) = some verification →
    ∃ uid, verification.purpose = .fprintd uid
  free : ∀ thread verification, threads.underway thread = some verification →
    verification.Free threads.daemon threads.clock

namespace Sound
variable {threads : Threads}

theorem idle (d : State) (clock : Nat) : Sound (.idle d clock) := ⟨nofun, nofun⟩

theorem wait (sound : Sound threads) (waited : Nat) : Sound { threads with clock := threads.clock + waited } where
  workers := sound.workers
  free thread verification held hopes uid subject locked :=
    sound.free thread verification held hopes uid subject (locked.earlier (Int.ofNat_le.mpr (Nat.le_add_right _ _)))

/-- A step of one thread keeps what the others rest on. -/
theorem put {thread : Thread} {verification : Option Verification} {d : State} (sound : Sound threads)
    (owners : thread = .main ∨ ∀ slot, (d.sessions slot).uid = (threads.daemon.sessions slot).uid)
    (calm : ∀ other late, other ≠ thread → threads.underway other = some late → late.stage.hopeful = true →
      ∀ uid ∈ late.purpose.subjects threads.daemon, LockedOut d threads.clock uid →
      LockedOut threads.daemon threads.clock uid)
    (worker : ∀ new, verification = some new → thread = .main ∨ ∃ uid, new.purpose = .fprintd uid)
    (free : ∀ new, verification = some new → new.Free d threads.clock) : Sound (threads.put thread verification d) where
  workers number held there := by
    by_cases here : Thread.worker number = thread
    · subst here
      have new : verification = some held := by simpa [Threads.put] using there
      exact (worker held new).resolve_left (by simp)
    · exact sound.workers number held (by simpa [Threads.put, here] using there)
  free other held there := by
    by_cases here : other = thread
    · subst here
      exact free held (by simpa [Threads.put] using there)
    · have old : threads.underway other = some held := by simpa [Threads.put, here] using there
      have subjects : held.purpose.subjects d = held.purpose.subjects threads.daemon := by
        cases other with
        | worker number =>
          obtain ⟨uid, same⟩ := sound.workers number held old
          rw [same]
          rfl
        | main =>
          have kept := owners.resolve_left (Ne.symm here)
          cases held.purpose with
          | verify caller slot => exact congrArg (fun uid => [caller, uid]) (kept slot)
          | _ => rfl
      intro hopes uid subject locked
      have before : uid ∈ held.purpose.subjects threads.daemon := subjects ▸ subject
      exact sound.free other held old hopes uid before (calm other held here old hopes uid before locked)

end Sound

def Call.subjects (accounts : Accounts) (env : Env) (d : State) : Call → List Uid
  | .authenticate caller _ => [caller]
  | .authenticateInteractive caller _ => [caller]
  | .verify caller _ token =>
    match findSession env.time token d with
    | (some slot, reached) => [caller, (reached.sessions slot).uid]
    | (none, _) => [caller]
  | .verifyUser _ _ username => (accounts.uidOf username).toList
  | .fprintdVerify username => (accounts.uidOf username).toList
  | _ => []

def Move.subjects (accounts : Accounts) (threads : Threads) (move : Move) : List Uid :=
  match threads.underway move.thread with
  | some verification => verification.purpose.subjects threads.daemon
  | none => match move.act with
    | .start call => call.subjects accounts move.env threads.daemon
    | _ => []

/-- A step in which a user who is locked out gains nothing. -/
structure Honoured (accounts : Accounts) (event : Event Threads Move (Option Outcome)) (uid : Uid) : Prop where
  unreported : uid ∈ event.input.subjects accounts event.before → ∀ outcome, event.outcome = some outcome →
    outcome.reply.succeeds = false
  guarded : Guarded uid event.before.daemon event.after.daemon

section
variable {mac : Buf 32 → Bytes → Buf 32} {accounts : Accounts} {env : Env} {threads : Threads} {thread : Thread}

/-- What runs on a worker is a verification for the fprintd device, or none, and touches no
session. -/
theorem opens_worker {call : Call} {d : State} (runs : call.runsOn thread = true) (worker : thread ≠ .main) :
    (opens mac accounts env call d).2.sessions = d.sessions ∧
      ∀ verification, (opens mac accounts env call d).1 = .begun verification →
      ∃ uid, verification.purpose = .fprintd uid := by
  cases call with
  | fprintdVerify username =>
    change (fprintdOpens accounts env username d).2.sessions = d.sessions ∧
      ∀ verification, (fprintdOpens accounts env username d).1 = .begun verification →
        ∃ uid, verification.purpose = .fprintd uid
    have same : (daemonVerifyUserOpens accounts env username d).2.sessions = d.sessions := by
      unfold daemonVerifyUserOpens
      dsimp only
      repeat' split
      all_goals rfl
    unfold fprintdOpens
    split
    · exact ⟨rfl, nofun⟩
    next uid _ =>
      refine ⟨same, fun verification begun => ⟨uid, ?_⟩⟩
      cases begun
      rfl
  | fprintdEnroll username finger =>
    obtain ⟨enrollments, disk, same⟩ := @serve_edits mac accounts { call := .fprintdEnroll username finger, env } d rfl
    refine ⟨?_, nofun⟩
    change (serve mac accounts { call := .fprintdEnroll username finger, env } d).2.sessions = d.sessions
    rw [same]
  | restart => cases runs
  | _ => exact absurd (of_decide_eq_true runs) worker

variable (mac) in
theorem start_sound {call : Call} (agree : accounts.Agree) (sound : Sound threads) (runs : call.runsOn thread = true)
    (straight : ¬ OverOwner env call threads.daemon) (time : env.checkedAt = threads.clock) :
    Sound (threads.start mac accounts thread call env).2 ∧
      (∀ uid, Guarded uid threads.daemon (threads.start mac accounts thread call env).2.daemon) ∧
      ∀ outcome, (threads.start mac accounts thread call env).1 = some outcome → outcome.reply.succeeds = true →
      call.verifies = false := by
  have late : 0 ≤ env.checkedAt := time ▸ Int.natCast_nonneg _
  have stays : call ≠ .restart := by
    rintro rfl
    cases runs
  have opened := opens_opened mac agree late straight stays
  have owners : thread = .main ∨
      ∀ slot, ((opens mac accounts env call threads.daemon).2.sessions slot).uid = (threads.daemon.sessions slot).uid := by
    by_cases main : thread = .main
    · exact .inl main
    · exact .inr fun slot => congrArg (fun sessions => (sessions slot).uid) (opens_worker runs main).1
  have worker : ∀ new, (opens mac accounts env call threads.daemon).1 = .begun new → thread = .main ∨
    ∃ uid, new.purpose = .fprintd uid := by
    intro new begun
    by_cases main : thread = .main
    · exact .inl main
    · exact .inr ((opens_worker runs main).2 new begun)
  have calm := fun uid (locked : LockedOut (opens mac accounts env call threads.daemon).2 threads.clock uid) =>
    opened.calm uid threads.clock (Int.natCast_nonneg _) locked
  unfold Threads.start
  rcases shape : opens mac accounts env call threads.daemon with ⟨outcome | verification, d⟩
  · rw [shape] at opened owners calm
    refine ⟨sound.put owners (fun _ _ _ _ _ uid _ => calm uid) nofun nofun, opened.guarded, ?_⟩
    intro answer same
    cases same
    exact opened.answered _ rfl
  · rw [shape] at opened owners calm worker
    refine ⟨sound.put owners (fun _ _ _ _ _ uid _ => calm uid) ?_ ?_, opened.guarded, nofun⟩
    · intro new same
      cases same
      exact worker _ rfl
    · intro new same
      cases same
      exact time ▸ opened.begun _ rfl

theorem marks_limiters (purpose : Purpose) (trial : Trial) (d : State) : (purpose.marks env trial d).limiters =
    d.limiters := by
  cases purpose <;> rfl

theorem marks_owner (purpose : Purpose) (trial : Trial) (d : State) (slot : SessionSlot) :
    ((purpose.marks env trial d).sessions slot).uid = (d.sessions slot).uid := by
  cases purpose with
  | verify caller marked =>
    by_cases here : slot = marked
    · subst here
      simp [Purpose.marks, State.putSession, judged_uid]
    · simp [Purpose.marks, State.putSession, here]
  | _ => rfl

theorem marks_guarded {purpose : Purpose} {trial : Trial} {d : State} {uid : Uid} (other : uid ∉ purpose.subjects d) :
    Guarded uid d (purpose.marks env trial d) := by
  cases purpose with
  | verify caller slot =>
    refine .putSession ?_
    rintro ⟨-, -, named⟩
    rw [judged_uid] at named
    exact absurd (List.mem_cons_of_mem _ (List.mem_singleton.mpr named.symm)) other
  | _ => exact .refl d

structure Scanned (purpose : Purpose) (d after : State) : Prop where
  limiters : after.limiters = d.limiters
  owners : ∀ slot, (after.sessions slot).uid = (d.sessions slot).uid
  guarded : ∀ uid, uid ∉ purpose.subjects d → Guarded uid d after

variable (env) in
theorem scan_scanned (purpose : Purpose) (key : Uid) (copies : Copies) (d : State) :
    Scanned purpose d (purpose.scan env key copies d).2 := by
  have marked (trial : Trial) : Scanned purpose d (purpose.marks env trial d) :=
    ⟨marks_limiters purpose trial d, marks_owner purpose trial d, fun _ => marks_guarded⟩
  unfold Purpose.scan
  split
  · exact ⟨rfl, fun _ => rfl, fun _ _ => .refl d⟩
  · dsimp only
    split
    · exact marked _
    · exact marked _

theorem subjects_owners (purpose : Purpose) {d after : State}
    (owners : ∀ slot, (after.sessions slot).uid = (d.sessions slot).uid) :
    purpose.subjects after = purpose.subjects d := by
  cases purpose with
  | verify caller slot => exact congrArg (fun uid => [caller, uid]) (owners slot)
  | _ => rfl

section
variable {purpose : Purpose}

theorem Sound.runs {stage : Stage} (sound : Sound threads) (held : threads.underway thread = some { purpose, stage }) :
    thread = .main ∨ ∃ uid, purpose = .fprintd uid := by
  cases thread with
  | main => exact .inl rfl
  | worker number => exact .inr (sound.workers number _ held)

variable (env) in
theorem scan_sound {key : Uid} {copies : Copies} (sound : Sound threads)
    (held : threads.underway thread = some { purpose, stage := .waiting key copies }) :
    Sound (threads.put thread (some { purpose, stage := (purpose.scan env key copies threads.daemon).1 })
        (purpose.scan env key copies threads.daemon).2) ∧
      ∀ uid, LockedOut threads.daemon threads.clock uid →
        Guarded uid threads.daemon (purpose.scan env key copies threads.daemon).2 := by
  have free := sound.free thread _ held rfl
  have scanned := scan_scanned env purpose key copies threads.daemon
  have calm (uid : Uid) (locked : LockedOut (purpose.scan env key copies threads.daemon).2 threads.clock uid) :
      LockedOut threads.daemon threads.clock uid := by
    unfold LockedOut at locked ⊢
    rwa [scanned.limiters] at locked
  refine ⟨sound.put (.inr scanned.owners) (fun _ _ _ _ _ uid _ => calm uid) ?_ ?_, ?_⟩
  · intro new same
    cases same
    exact sound.runs held
  · intro new same
    cases same
    intro _ uid subject locked
    exact free uid (subjects_owners purpose scanned.owners ▸ subject) (calm uid locked)
  · exact fun uid locked => scanned.guarded uid fun subject => free uid subject locked

/-- A verdict leaves whoever is locked out without a success. -/
theorem settle_sound {key : Uid} {trial : Trial} (sound : Sound threads)
    (held : threads.underway thread = some { purpose, stage := .scanned key trial }) (time : env.recordedAt = threads.clock)
    (alone : trial.accepted = none → LastChance threads.daemon threads.clock key → ∀ other late, other ≠ thread →
      threads.underway other = some late → late.stage.hopeful = true → key ∉ late.purpose.subjects threads.daemon) :
    Sound (threads.put thread (some { purpose, stage := .decided (purpose.settle env key trial threads.daemon).1 })
        (purpose.settle env key trial threads.daemon).2) ∧
      ∀ uid, Guarded uid threads.daemon (purpose.settle env key trial threads.daemon).2 ∧
        (LockedOut threads.daemon threads.clock uid → uid ∈ purpose.subjects threads.daemon →
          (purpose.settle env key trial threads.daemon).1.reply.succeeds = false) := by
  have own (stage : Stage) : ∀ new, some ({ purpose, stage } : Verification) = some new →
      thread = .main ∨ ∃ uid, new.purpose = .fprintd uid := by
    intro new same
    cases same
    exact sound.runs held
  have free := sound.free thread _ held
  have late : (0 : Int) ≤ threads.clock := Int.natCast_nonneg _
  unfold Purpose.settle
  cases accepted : trial.accepted with
  | some found =>
    have free := free (by simp [Stage.hopeful, accepted])
    refine ⟨sound.put (.inr fun _ => rfl) (fun _ _ _ _ _ uid _ => reset_calm late) (own _) ?_,
      fun uid => ⟨.of_same rfl rfl, ?_⟩⟩
    · intro new same
      cases same
      intro _ uid subject locked
      exact free uid (subjects_owners purpose (fun _ => rfl) ▸ subject) (reset_calm late locked)
    · exact fun locked subject => absurd locked (free uid subject)
  | none =>
    have fails : (purpose.judged false).succeeds = false := by
      cases purpose <;> rfl
    refine ⟨sound.put (.inr fun _ => rfl) ?_ (own _) ?_, fun uid => ⟨.of_same rfl rfl, fun _ _ => fails⟩⟩
    · intro other beside different there hopes uid subject locked
      rcases record_calm late locked with before | ⟨rfl, last⟩
      · exact before
      · exact absurd subject (alone accepted (time ▸ last) other beside different there hopes)
    · intro new same
      cases same
      intro hopes
      exact absurd (hopes.symm.trans fails) nofun

variable (env) in
/-- The end of a call gains a user who is locked out nothing, unless a face steps in. -/
theorem concludes_guarded {purpose : Purpose} {verdict : Outcome} {d : State} {now : Int} {uid : Uid}
    (locked : LockedOut d now uid)
    (free : Verification.Free { purpose, stage := .decided verdict } d now)
    (faceless : ∀ interactive caller sender username, purpose = .authenticate interactive caller sender username →
      LockedOut d now caller →
      ¬ (env.howdyAvailable = true ∧ env.howdyVerifies username = true)) :
    Guarded uid d (purpose.concludes env verdict d).2 ∧
      (uid ∈ purpose.subjects d → (purpose.concludes env verdict d).1.reply.succeeds = false) := by
  have stranger (yes : verdict.reply.succeeds = true) : uid ∉ purpose.subjects d := fun subject => free yes uid subject locked
  have fails (subject : uid ∈ purpose.subjects d) : verdict.reply.succeeds = false :=
    Bool.eq_false_iff.mpr fun yes => stranger yes subject
  cases purpose with
  | authenticate interactive caller sender username =>
    change Guarded uid d (authenticateConcludes env interactive caller sender username verdict d).2 ∧
      (uid ∈ [caller] → (authenticateConcludes env interactive caller sender username verdict d).1.reply.succeeds = false)
    unfold authenticateConcludes
    split
    next ok =>
      have different : uid ∉ [caller] := stranger (by rw [ok]; rfl)
      exact ⟨guarded_letIn (fun same => different (List.mem_singleton.mpr same)) sender d,
        fun subject => absurd subject different⟩
    split
    next face =>
      have different : uid ≠ caller := by
        rintro rfl
        exact faceless _ _ _ _ rfl locked face
      exact ⟨guarded_letIn different sender d, fun subject => absurd (List.mem_singleton.mp subject) different⟩
    · refine ⟨.refl d, fun _ => ?_⟩
      cases interactive <;> rfl
  | verify caller slot =>
    refine ⟨?_, fails⟩
    change Guarded uid d (if verdict.reply = .matched true then autoUnlockUserVault env caller d else d)
    split
    next matched =>
      have different := stranger (by rw [matched]; rfl)
      exact .unlock (fun same : uid = caller => different (List.mem_cons.mpr (.inl same))) d
    · exact .refl d
  | verifyUser target =>
    refine ⟨?_, fails⟩
    change Guarded uid d (if verdict.reply = .matched true then autoUnlockUserVault env target d else d)
    split
    next matched =>
      have different := stranger (by rw [matched]; rfl)
      exact .unlock (fun same : uid = target => different (List.mem_singleton.mpr same)) d
    · exact .refl d
  | fprintd other => exact ⟨.refl d, fails⟩

theorem concludes_limiters (purpose : Purpose) (verdict : Outcome) (d : State) :
    (purpose.concludes env verdict d).2.limiters = d.limiters := by
  cases purpose with
  | authenticate interactive caller sender username =>
    change (authenticateConcludes env interactive caller sender username verdict d).2.limiters = d.limiters
    unfold authenticateConcludes
    split
    · exact admit_limiters caller sender d
    · split
      · exact admit_limiters caller sender d
      · rfl
  | verify caller slot =>
    change (if verdict.reply = .matched true then autoUnlockUserVault env caller d else d).limiters = d.limiters
    split
    · exact autoUnlock_limiters caller d
    · rfl
  | verifyUser target =>
    change (if verdict.reply = .matched true then autoUnlockUserVault env target d else d).limiters = d.limiters
    split
    · exact autoUnlock_limiters target d
    · rfl
  | fprintd uid => rfl

theorem conclude_sound {purpose : Purpose} {verdict : Outcome} (sound : Sound threads)
    (held : threads.underway thread = some { purpose, stage := .decided verdict }) :
    Sound (threads.put thread none (purpose.concludes env verdict threads.daemon).2) := by
  refine sound.put ?_ (fun _ _ _ _ _ uid _ locked => ?_) nofun nofun
  · cases thread with
    | main => exact .inl rfl
    | worker number =>
      obtain ⟨uid, same⟩ := sound.workers number _ held
      cases same
      exact .inr fun _ => rfl
  · unfold LockedOut at locked ⊢
    rwa [concludes_limiters] at locked

/-- A restart forgets every session and every open vault. -/
theorem started_guarded (d : State) (uid : Uid) : Guarded uid d (d.started mac env) := by
  constructor
  · rintro slot ⟨active, -⟩
    cases active
  · intro open?
    cases open?

variable (env) in
theorem go_sound {verification : Verification} (act : Act) (sound : Sound threads)
    (held : threads.underway thread = some verification)
    (time : env.recordedAt = threads.clock)
    (alone : act = .settle → ∀ key trial, verification.stage = .scanned key trial → trial.accepted = none →
      LastChance threads.daemon threads.clock key → ∀ other late, other ≠ thread → threads.underway other = some late →
        late.stage.hopeful = true → key ∉ late.purpose.subjects threads.daemon)
    (faceless : act = .conclude → ∀ interactive caller sender username verdict,
      verification = { purpose := .authenticate interactive caller sender username, stage := .decided verdict } →
        LockedOut threads.daemon threads.clock caller → ¬ (env.howdyAvailable = true ∧ env.howdyVerifies username = true)) :
    Sound (threads.go thread verification env act).2 ∧
      ∀ uid, LockedOut threads.daemon threads.clock uid →
        Guarded uid threads.daemon (threads.go thread verification env act).2.daemon ∧
        (uid ∈ verification.purpose.subjects threads.daemon →
          ∀ outcome, (threads.go thread verification env act).1 = some outcome → outcome.reply.succeeds = false) := by
  obtain ⟨purpose, stage⟩ := verification
  unfold Threads.go
  split
  next same =>
    cases same
    obtain ⟨kept, gains⟩ := scan_sound env sound held
    exact ⟨kept, fun uid locked => ⟨gains uid locked, fun _ => nofun⟩⟩
  next same =>
    cases same
    obtain ⟨kept, gains⟩ := settle_sound sound held time (alone rfl _ _ rfl)
    refine ⟨kept, fun uid locked => ⟨(gains uid).1, fun subject outcome same => ?_⟩⟩
    cases same
    exact (gains uid).2 locked subject
  next verdict same =>
    cases same
    refine ⟨conclude_sound sound held, fun uid locked => ?_⟩
    obtain ⟨gains, reported⟩ := concludes_guarded env locked (sound.free thread _ held)
      fun interactive caller sender username same => faceless rfl interactive caller sender username verdict (by rw [same])
    refine ⟨gains, fun subject outcome same => ?_⟩
    cases same
    exact reported subject
  · exact ⟨sound, fun uid _ => ⟨.refl _, fun _ => nofun⟩⟩

end

theorem subjects_aside {call : Call} (aside : call.verifies = false) (d : State) : call.subjects accounts env d = [] := by
  cases call <;> first | rfl | cases aside

variable (mac) in
theorem step_sound {move : Move} (agree : accounts.Agree) (sound : Sound threads) (straight : ¬ Bypasses move threads) :
    Sound (threads.step mac accounts move).2 ∧
      ∀ uid, LockedOut threads.daemon (threads.now move) uid →
        Guarded uid threads.daemon (threads.step mac accounts move).2.daemon ∧
        (uid ∈ move.subjects accounts threads → ∀ outcome, (threads.step mac accounts move).1 = some outcome →
        outcome.reply.succeeds = false) := by
  have later := sound.wait move.waited
  unfold Threads.step
  dsimp only
  split
  · exact ⟨.idle _ _, fun uid _ => ⟨started_guarded _ uid, fun _ => nofun⟩⟩
  next act stays =>
  split
  next verification held =>
    obtain ⟨kept, gains⟩ := go_sound (move.env.at (threads.now move)) move.act later held rfl
      (fun settles key trial failed unmatched last other late different there hopes same =>
        straight (.overlap settles held failed unmatched last different there hopes same))
      (fun concludes interactive caller sender username verdict same locked known =>
        straight (.face concludes (held.trans (congrArg some same)) locked known))
    refine ⟨kept, fun uid locked => ⟨(gains uid locked).1, fun subject => (gains uid locked).2 ?_⟩⟩
    unfold Move.subjects at subject
    rw [held] at subject
    exact subject
  next free =>
    split
    next call starts =>
      split
      next runs =>
        have straight : ¬ OverOwner (move.env.at (threads.now move)) call threads.daemon :=
          fun owned => straight (.owner starts owned)
        obtain ⟨kept, gains, quiet⟩ := start_sound mac agree later runs straight rfl
        refine ⟨kept, fun uid _ => ⟨gains uid, fun subject outcome same => ?_⟩⟩
        apply Bool.eq_false_iff.mpr
        intro yes
        unfold Move.subjects at subject
        rw [free, starts] at subject
        dsimp only at subject
        rw [subjects_aside (quiet outcome same yes)] at subject
        cases subject
      · exact ⟨later, fun uid _ => ⟨.refl _, fun _ => nofun⟩⟩
    · exact ⟨later, fun uid _ => ⟨.refl _, fun _ => nofun⟩⟩

end

/-- In every run of the threads in which nothing goes around the limiter, a user gains nothing
while they are locked out. -/
theorem lockout_is_honoured (mac : Buf 32 → Bytes → Buf 32) (accounts : Accounts) (agree : accounts.Agree) (start : State)
    (clock : Nat) (moves : List Move)
    (straight : Throughout ((threads mac accounts).run (.idle start clock) moves)
    fun _ event => ¬ Bypasses event.input event.before) :
    Throughout ((threads mac accounts).run (.idle start clock) moves) fun _ event =>
      ∀ uid, LockedOut event.before.daemon (event.before.now event.input) uid → Honoured accounts event uid := by
  refine Machine.run_throughout (fun _ threads => Sound threads) ?_ ?_ (.idle start clock) straight
  · intro past threads move sound fine
    exact (step_sound mac agree sound fine).1
  · intro past threads move sound fine uid locked
    obtain ⟨gains, reported⟩ := (step_sound mac agree sound fine).2 uid locked
    exact ⟨reported, gains⟩

theorem plainAccounts_agree : plainAccounts.Agree := by
  intro uid name named
  unfold plainAccounts at named ⊢
  dsimp only at named ⊢
  split at named
  next small =>
    cases named
    have bound : uid.toNat < 255 := small
    have byte : (uid.toUInt8 + 1).toNat = uid.toNat + 1 := by
      rw [UInt8.toNat_add, UInt32.toNat_toUInt8]
      simp only [UInt8.toNat_one]
      omega
    have some? : uid.toUInt8 + 1 ≠ 0 := by
      intro zero
      rw [zero] at byte
      simp at byte
    dsimp only
    rw [if_neg some?]
    congr 1
    apply UInt32.toNat_inj.mp
    rw [UInt32.toNat_sub, UInt8.toNat_toUInt32, byte]
    simp only [UInt32.toNat_one]
    omega
  next => cases named

theorem lockedState_locked : LockedOut lockedState 1 1 := by
  have late : (lockedState.limiters.get 1).lockoutUntil > 1 := by decide +kernel
  exact late

/-- The right finger, too late. -/
def lateMoves : List Move := [next (.worker 0) (calmEnv 1 [[7]]) (.start (.fprintdVerify [2])),
    next (.worker 0) (calmEnv 1 [[7]]) .conclude]

theorem lockout_is_honoured_late :
    LockedOut lockedState 1 1 ∧
      Throughout ((threads plainMac plainAccounts).run (.idle lockedState 1) lateMoves) fun _ event =>
        ∀ uid, LockedOut event.before.daemon (event.before.now event.input) uid → Honoured plainAccounts event uid := by
  refine ⟨lockedState_locked, lockout_is_honoured plainMac plainAccounts plainAccounts_agree lockedState 1 lateMoves ?_⟩
  have straight (act : Act) (before : Threads) (settles : act ≠ .settle)
    (verifies : ∀ sender token, act ≠ .start (.verify 0 sender token)) :
      ¬ Bypasses (next (.worker 0) (calmEnv 1 [[7]]) act) before := by
    intro bypass
    cases bypass with
    | face _ _ _ known => cases known.1
    | owner starts owned =>
      obtain ⟨sender, token, -, -, rfl, -⟩ := owned
      exact verifies sender token starts
    | overlap settled => exact settles settled
  exact .cons (straight _ _ nofun nofun) (.cons (straight _ _ nofun nofun) (.nil _ _))

def asking : Event Threads Move (Option Outcome) :=
  (threads plainMac plainAccounts).event (.idle lockedState 1) (next .main (calmEnv 1 []) (.start (.authenticate 1 [1])))

def facing : Event Threads Move (Option Outcome) :=
  (threads plainMac plainAccounts).event asking.after
    (next .main { calmEnv 1 [] with howdyAvailable := true, howdyVerifies := fun _ => true } .conclude)

theorem face_ends_lockout :
    ¬ ∀ (mac : Buf 32 → Bytes → Buf 32) (accounts : Accounts), accounts.Agree →
    ∀ (start : State) (clock : Nat) (moves : List Move),
      Throughout ((threads mac accounts).run (.idle start clock) moves) fun _ event =>
        ∀ uid, LockedOut event.before.daemon (event.before.now event.input) uid → Honoured accounts event uid := by
  intro claimed
  have all := claimed plainMac plainAccounts plainAccounts_agree lockedState 1 [asking.input, facing.input]
  have locked : (facing.before.daemon.limiters.get 1).lockoutUntil > facing.before.now facing.input := by decide +kernel
  have refused := (all [asking] facing [] rfl 1 locked).unreported (by decide +kernel)
  have admitted : facing.outcome.any (·.reply.succeeds) = true := by decide +kernel
  obtain ⟨outcome, told, yes⟩ := Option.any_eq_true _ _ |>.mp admitted
  rw [refused outcome told] at yes
  cases yes

/-- Four wrong fingers of the user with uid 1 have been counted, and the clock is at 1. -/
def lastChance : State :=
  served strangerRequest (served strangerRequest
    (served strangerRequest (served strangerRequest (plainState [plainTemplate 1 1 7]))))

/-- VerifyUser waits for the right finger while a worker records the fifth wrong one. -/
def overlapping : List Move :=
  let wrong := calmEnv 1 []
  let right := calmEnv 1 [[7]]
  [next .main right (.start (.verifyUser 0 false [2])),
    next (.worker 0) wrong (.start (.fprintdVerify [2])), next (.worker 0) wrong .scan, next (.worker 0) wrong .settle,
    next .main right .scan, next .main right .settle]

/-- The waiting call does not ask the limiter again. -/
example : ((threads plainMac plainAccounts).run (.idle lastChance 1) overlapping).getLast?.map (fun event =>
    (decide ((event.before.daemon.limiters.get 1).lockoutUntil > 1), event.outcome.any (·.reply.succeeds))) =
    some (true, true) := by
  decide +kernel

end Hiya.Daemon
