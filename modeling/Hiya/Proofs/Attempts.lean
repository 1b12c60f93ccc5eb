import Hiya.Daemon.Threads
import Hiya.Proofs.DaemonSpecimens
import Hiya.Proofs.RateLimits

/-! A verification attempt, taken apart: whose limiter it asks, whose templates it puts
to the sensor, and what it leaves in the limiters. The three copies of the loop differ
only there. -/

namespace Hiya.Daemon
open Library

section
variable {env : Env} {policy : TpmPolicy} {locks counts : Nat → Bool}

theorem tryTemplates_compared (own : List Enrollment) : ∀ number,
    ∀ made ∈ (tryTemplates env policy locks counts number own).comparisons,
    ∃ place data, own[place]? = some made.template ∧
      chooseTemplate env policy (locks (number + place)) (number + place) made.template = some data ∧
      made.matched = env.fpVerify (number + place) data := by
  induction own with
  | nil =>
    intro number made inside
    cases inside
  | cons template rest ih =>
    intro number made inside
    have later (inside : made ∈ (tryTemplates env policy locks counts (number + 1) rest).comparisons) :
        ∃ place data, (template :: rest)[place]? = some made.template ∧
          chooseTemplate env policy (locks (number + place)) (number + place) made.template = some data ∧
          made.matched = env.fpVerify (number + place) data := by
      obtain ⟨place, data, found, chosen, answer⟩ := ih (number + 1) made inside
      rw [Nat.add_right_comm number 1 place, Nat.add_assoc] at chosen answer
      exact ⟨place + 1, data, found, chosen, answer⟩
    unfold tryTemplates at inside
    cases chosen : chooseTemplate env policy (locks number) number template with
    | none =>
      rw [chosen] at inside
      exact later inside
    | some data =>
      simp only [chosen] at inside
      split at inside
      · rw [List.mem_singleton] at inside
        subst inside
        exact ⟨0, data, rfl, chosen, rfl⟩
      · rcases List.mem_cons.mp inside with rfl | inside
        · exact ⟨0, data, rfl, chosen, rfl⟩
        · exact later inside

theorem tryTemplates_denied (own : List Enrollment) : ∀ number,
    (tryTemplates env policy locks counts number own).policyDenied = true →
    ∃ place template, own[place]? = some template ∧
      chooseTemplate env policy (locks (number + place)) (number + place) template = none := by
  induction own with
  | nil =>
    intro number denied
    cases denied
  | cons template rest ih =>
    intro number denied
    have later (denied : (tryTemplates env policy locks counts (number + 1) rest).policyDenied = true) :
        ∃ place found, (template :: rest)[place]? = some found ∧
          chooseTemplate env policy (locks (number + place)) (number + place) found = none := by
      obtain ⟨place, found, here, chosen⟩ := ih (number + 1) denied
      rw [Nat.add_right_comm number 1 place, Nat.add_assoc] at chosen
      exact ⟨place + 1, found, here, chosen⟩
    unfold tryTemplates at denied
    cases chosen : chooseTemplate env policy (locks number) number template with
    | none => exact ⟨0, template, rfl, chosen⟩
    | some data =>
      simp only [chosen] at denied
      split at denied
      · cases denied
      · exact later denied

/-- A loop that accepts nothing has put every template to the sensor that it could. -/
theorem tryTemplates_exhausted (own : List Enrollment) : ∀ number,
    (tryTemplates env policy locks counts number own).accepted = none →
    ∀ place template data, own[place]? = some template →
      chooseTemplate env policy (locks (number + place)) (number + place) template = some data →
      { template, matched := env.fpVerify (number + place) data } ∈ (tryTemplates env policy locks counts number own).comparisons := by
  induction own with
  | nil =>
    intro number _ place template data found
    cases found
  | cons first rest ih =>
    intro number nothing place template data found chosen
    have later (nothing : (tryTemplates env policy locks counts (number + 1) rest).accepted = none) (place : Nat)
        (found : rest[place]? = some template)
        (chosen : chooseTemplate env policy (locks (number + (place + 1))) (number + (place + 1)) template = some data) :
        { template, matched := env.fpVerify (number + (place + 1)) data } ∈
          (tryTemplates env policy locks counts (number + 1) rest).comparisons := by
      rw [← Nat.add_assoc, Nat.add_right_comm] at chosen ⊢
      exact ih (number + 1) nothing place template data found chosen
    unfold tryTemplates at nothing ⊢
    cases taken : chooseTemplate env policy (locks number) number first with
    | none =>
      simp only [taken] at nothing ⊢
      cases place with
      | zero =>
        cases found
        rw [Nat.add_zero, taken] at chosen
        cases chosen
      | succ place => exact later nothing place found chosen
    | some used =>
      simp only [taken] at nothing ⊢
      split at nothing
      · cases nothing
      next stays =>
        rw [if_neg stays]
        cases place with
        | zero =>
          cases found
          rw [Nat.add_zero, taken] at chosen
          cases chosen
          exact List.mem_cons_self
        | succ place => exact List.mem_cons_of_mem _ (later nothing place found chosen)

theorem tryTemplates_accepted (own : List Enrollment) : ∀ number place template,
    (tryTemplates env policy locks counts number own).accepted = some (place, template) →
    { template, matched := true } ∈ (tryTemplates env policy locks counts number own).comparisons ∧ counts place = true := by
  induction own with
  | nil =>
    intro number place template accepted
    cases accepted
  | cons first rest ih =>
    intro number place template accepted
    unfold tryTemplates at accepted ⊢
    cases chosen : chooseTemplate env policy (locks number) number first with
    | none =>
      simp only [chosen] at accepted ⊢
      exact ih (number + 1) place template accepted
    | some data =>
      simp only [chosen] at accepted ⊢
      split at accepted
      next hit =>
        obtain ⟨matched, counted⟩ := Bool.and_eq_true_iff.mp hit
        cases accepted
        rw [if_pos hit, matched]
        exact ⟨List.mem_singleton_self _, counted⟩
      next missed =>
        rw [if_neg missed]
        obtain ⟨inside, counted⟩ := ih (number + 1) place template accepted
        exact ⟨List.mem_cons_of_mem _ inside, counted⟩

end

/-- Whose limiter is asked, whose templates are tried, and whether the memory for an
unsealed one can be locked. -/
structure Attempt where
  key : Uid
  who : Uid
  locks : Nat → Bool

namespace Attempt
variable (env : Env) (d : State) (attempt : Attempt)

def Shown (number : Nat) (data : Bytes) : Prop :=
  ∃ template, (d.enrollmentsOf attempt.who)[number]? = some template ∧
    chooseTemplate env d.tpmPolicy (attempt.locks number) number template = some data

def Withheld (number : Nat) : Prop :=
  ∃ template, (d.enrollmentsOf attempt.who)[number]? = some template ∧
    chooseTemplate env d.tpmPolicy (attempt.locks number) number template = none

def Reaches : Prop := ∃ number data, attempt.Shown env d number data

/-- The policy withholds some of the user's templates, and the sensor knows none of the
others. -/
def DeniedGuess : Prop :=
  (∃ number, attempt.Withheld env d number) ∧ attempt.Reaches env d ∧
    ∀ number data, attempt.Shown env d number data → env.fpVerify number data = false

end Attempt

structure Asked (env : Env) (d : State) (attempt : Attempt) (comparisons : List Comparison) : Prop where
  own : ∀ made ∈ comparisons, made.template ∈ d.enrollmentsOf attempt.who
  reaches : comparisons ≠ [] → attempt.Reaches env d

/-- What an attempt can leave in the limiters, and whether it succeeds. -/
inductive Tried (env : Env) (d : State) (attempt : Attempt) : List Comparison → Bool → RateLimiters → Prop
  | refused : Tried env d attempt [] false d.limiters
  | stopped : Tried env d attempt [] false (checkVerifyRateLimit env.checkedAt attempt.key d.limiters).2
  | denied {comparisons} (asked : Asked env d attempt comparisons)
      (guess : comparisons ≠ [] → (∀ made ∈ comparisons, made.matched = false) → attempt.DeniedGuess env d) :
      Tried env d attempt comparisons false (checkVerifyRateLimit env.checkedAt attempt.key d.limiters).2
  | failed {comparisons} (asked : Asked env d attempt comparisons) :
      Tried env d attempt comparisons false
        (recordVerifyFailure d.config env.recordedAt attempt.key
        (checkVerifyRateLimit env.checkedAt attempt.key d.limiters).2)
  | matched {comparisons} (asked : Asked env d attempt comparisons) (hit : ∃ made ∈ comparisons, made.matched = true)
      (free : (checkVerifyRateLimit env.checkedAt attempt.key d.limiters).1 = none) :
      Tried env d attempt comparisons true
        (resetVerifyRateLimit attempt.key (checkVerifyRateLimit env.checkedAt attempt.key d.limiters).2)

section
variable {env : Env} {d : State} {attempt : Attempt} {counts : Nat → Bool}

def Attempt.trial (attempt : Attempt) (env : Env) (d : State) (counts : Nat → Bool) : Trial :=
  tryTemplates env d.tpmPolicy attempt.locks counts 0 (d.enrollmentsOf attempt.who)

theorem trial_shown {made : Comparison} (inside : made ∈ (attempt.trial env d counts).comparisons) :
    ∃ number data, attempt.Shown env d number data ∧ made.matched = env.fpVerify number data := by
  obtain ⟨number, data, found, chosen, answer⟩ := tryTemplates_compared _ 0 made inside
  rw [Nat.zero_add] at chosen answer
  exact ⟨number, data, ⟨made.template, found, chosen⟩, answer⟩

theorem trial_asked : Asked env d attempt (attempt.trial env d counts).comparisons := by
  constructor
  · intro made inside
    obtain ⟨number, data, found, -⟩ := tryTemplates_compared _ 0 made inside
    exact List.mem_of_getElem? found
  · intro some?
    obtain ⟨made, inside⟩ := List.exists_mem_of_ne_nil _ some?
    obtain ⟨number, data, shown, -⟩ := trial_shown inside
    exact ⟨number, data, shown⟩

theorem trial_denied (nothing : (attempt.trial env d counts).accepted.isNone = true)
    (denied : (attempt.trial env d counts).policyDenied = true) :
    Tried env d attempt (attempt.trial env d counts).comparisons false
      (checkVerifyRateLimit env.checkedAt attempt.key d.limiters).2 := by
  refine .denied trial_asked fun some? unmatched => ⟨?_, trial_asked.reaches some?, ?_⟩
  · obtain ⟨number, template, found, chosen⟩ := tryTemplates_denied _ 0 denied
    rw [Nat.zero_add] at chosen
    exact ⟨number, template, found, chosen⟩
  · rintro number data ⟨template, found, chosen⟩
    have put := tryTemplates_exhausted _ 0 (Option.isNone_iff_eq_none.mp nothing) number template data found
      (by rwa [Nat.zero_add])
    rw [Nat.zero_add] at put
    exact unmatched _ put

theorem trial_matched (accepted : (attempt.trial env d counts).accepted.isSome = true)
    (free : (checkVerifyRateLimit env.checkedAt attempt.key d.limiters).1 = none) :
    Tried env d attempt (attempt.trial env d counts).comparisons true
      (resetVerifyRateLimit attempt.key (checkVerifyRateLimit env.checkedAt attempt.key d.limiters).2) := by
  obtain ⟨⟨number, template⟩, known⟩ := Option.isSome_iff_exists.mp accepted
  obtain ⟨inside, -⟩ := tryTemplates_accepted _ 0 number template known
  exact .matched trial_asked ⟨_, inside, rfl⟩ free

end

/-- The walk for a session touches sessions only. -/
theorem findSessionFrom_only (now : Int) (token : Bytes) (slots : List SessionSlot) : ∀ d : State,
    ∃ sessions sessionCount, (findSessionFrom now token slots d).2 = { d with sessions, sessionCount } := by
  induction slots with
  | nil => exact fun d => ⟨d.sessions, d.sessionCount, rfl⟩
  | cons slot rest ih =>
    intro d
    unfold findSessionFrom
    split
    · exact ih d
    · split
      · exact ih (d.closeSession slot)
      · split
        · exact ⟨_, _, rfl⟩
        · exact ih d

theorem findSession_only {now : Int} {token : Bytes} {d reached : State} {slot : Option SessionSlot}
    (found : findSession now token d = (slot, reached)) :
    ∃ sessions sessionCount, reached = { d with sessions, sessionCount } := by
  have same : reached = (findSession now token d).2 := by rw [found]
  rw [same]
  unfold findSession
  split
  · exact ⟨d.sessions, d.sessionCount, rfl⟩
  · exact findSessionFrom_only now token _ d

def Reply.succeeds : Reply → Bool
  | .authenticated yes _ => yes
  | .matched yes => yes
  | .returned code => code = .ok
  | _ => false

section
variable {env : Env} {d : State}

theorem autoUnlock_limiters (uid : Uid) (d : State) : (autoUnlockUserVault env uid d).limiters = d.limiters := by
  unfold autoUnlockUserVault
  split
  · rfl
  · rfl

theorem limiters_checked {now : Int} {key : Uid} {before limiters : RateLimiters} {wait : Option Int}
    (checked : checkVerifyRateLimit now key before = (wait, limiters)) :
    limiters = (checkVerifyRateLimit now key before).2 := by
  rw [checked]

theorem verify_tried {caller : Uid} {sender : Name} {token : Bytes} {slot : SessionSlot} {reached : State}
    (found : findSession env.time token d = (some slot, reached)) :
    Tried env d { key := caller, who := (reached.sessions slot).uid, locks := env.locks }
      (verify env caller sender token d).1.comparisons (verify env caller sender token d).1.reply.succeeds
      (verify env caller sender token d).2.limiters := by
  obtain ⟨sessions, sessionCount, rfl⟩ := findSession_only found
  unfold verify
  rw [found]
  dsimp only
  split
  · exact .refused
  split
  · exact .refused
  rcases checked : checkVerifyRateLimit env.checkedAt caller d.limiters with ⟨_ | seconds, limiters⟩
  · obtain rfl := limiters_checked checked
    dsimp only
    split
    · exact .stopped
    split
    · exact .stopped
    split
    · exact .stopped
    split
    next denied => exact trial_denied denied.1 denied.2
    split
    next accepted =>
      rw [autoUnlock_limiters]
      exact trial_matched accepted (by rw [checked])
    · exact .failed trial_asked
  · obtain rfl := limiters_checked checked
    exact .stopped

variable {accounts : Accounts}

theorem verifyUser_tried {caller uid : Uid} {trustedPortal : Bool} {username : Name}
    (known : accounts.uidOf username = some uid) :
    Tried env d { key := uid, who := uid, locks := env.locks }
      (verifyUser accounts env caller trustedPortal username d).1.comparisons
      (verifyUser accounts env caller trustedPortal username d).1.reply.succeeds
      (verifyUser accounts env caller trustedPortal username d).2.limiters := by
  unfold verifyUser
  split
  · exact .refused
  rw [known]
  dsimp only
  split
  · exact .refused
  rcases checked : checkVerifyRateLimit env.checkedAt uid d.limiters with ⟨_ | seconds, limiters⟩
  · obtain rfl := limiters_checked checked
    dsimp only
    split
    · exact .stopped
    split
    · exact .stopped
    split
    · exact .stopped
    split
    next denied => exact trial_denied denied.1 denied.2
    split
    next accepted =>
      rw [autoUnlock_limiters]
      exact trial_matched accepted (by rw [checked])
    · exact .failed trial_asked
  · obtain rfl := limiters_checked checked
    exact .stopped

theorem daemonVerifyUser_tried {uid : Uid} {user : Name} (known : accounts.uidOf user = some uid) :
    Tried env d { key := uid, who := uid, locks := fun _ => true }
      (daemonVerifyUser accounts env user d).1.comparisons (daemonVerifyUser accounts env user d).1.reply.succeeds
      (daemonVerifyUser accounts env user d).2.limiters := by
  unfold daemonVerifyUser
  rw [known]
  dsimp only
  rcases checked : checkVerifyRateLimit env.checkedAt uid d.limiters with ⟨_ | seconds, limiters⟩
  · obtain rfl := limiters_checked checked
    dsimp only
    split
    · exact .stopped
    split
    · exact .stopped
    split
    · exact .stopped
    split
    · exact .stopped
    split
    next denied => exact trial_denied denied.2 denied.1
    split
    next accepted => exact trial_matched accepted (by rw [checked])
    · exact .failed trial_asked
  · obtain rfl := limiters_checked checked
    exact .stopped

theorem createSession_only (env : Env) (now : Int) (uid : Uid) (sender : Name) (d : State) :
    ∃ sessions sessionCount, (createSession env now uid sender d).2 = { d with sessions, sessionCount } := by
  unfold createSession
  split
  · exact ⟨d.sessions, d.sessionCount, rfl⟩
  next slot _ =>
    have closed : ∃ sessions sessionCount, (if (d.sessions slot).active then d.closeSession slot else d) =
        { d with sessions, sessionCount } := by
      split
      · exact ⟨_, _, rfl⟩
      · exact ⟨d.sessions, d.sessionCount, rfl⟩
    obtain ⟨sessions, sessionCount, same⟩ := closed
    rw [same]
    dsimp only
    split
    · split
      · exact ⟨_, _, rfl⟩
      · exact ⟨_, _, rfl⟩
    · exact ⟨_, _, rfl⟩

structure Made (env : Env) (uid : Uid) (sender : Name) (session : Session) : Prop where
  token : env.token = some session.token
  uid : session.uid = uid
  active : session.active = true
  sender : session.sender = sender.take 255

theorem createSession_made {now : Int} {uid : Uid} {sender : Name} {slot : SessionSlot} {reached : State}
    (made : createSession env now uid sender d = (some slot, reached)) : Made env uid sender (reached.sessions slot) := by
  unfold createSession at made
  split at made
  · cases made
  · dsimp only at made
    split at made
    next token sessionKey drawn _ =>
      split at made
      · cases made
        simp only [State.putSession, Function.update_self]
        exact ⟨drawn, rfl, rfl, rfl⟩
      · cases made
    · cases made

/-- Admitting a user touches sessions and the vault only. -/
theorem admit_limiters (caller : Uid) (sender : Name) (d : State) : (letIn env caller sender d).limiters = d.limiters := by
  unfold letIn
  obtain ⟨sessions, sessionCount, same⟩ := createSession_only env env.later caller sender d
  dsimp only
  rw [autoUnlock_limiters]
  split
  next created =>
    rw [created] at same
    cases same
    rfl
  next created =>
    rw [created] at same
    cases same
    rfl

theorem authenticateWith_tried {answer : Bool → String → Reply} {caller uid : Uid} {sender username : Name}
    (named : usernameForUid accounts caller = some username) (known : accounts.uidOf username = some uid) :
    ∃ success, Tried env d { key := uid, who := uid, locks := fun _ => true }
      (authenticateWith accounts env answer caller sender d).1.comparisons success
      (authenticateWith accounts env answer caller sender d).2.limiters := by
  have tried : Tried env d { key := uid, who := uid, locks := fun _ => true } _ _ _ := daemonVerifyUser_tried known
  refine ⟨(daemonVerifyUser accounts env username d).1.reply.succeeds, ?_⟩
  unfold authenticateWith
  rw [named]
  dsimp only
  split
  · rw [admit_limiters]
    exact tried
  · split
    · rw [admit_limiters]
      exact tried
    · exact tried

end

/-- The calls that verify a user. -/
def Call.verifies : Call → Bool
  | .authenticate .. => true
  | .authenticateInteractive .. => true
  | .verify .. => true
  | .verifyUser .. => true
  | .fprintdVerify .. => true
  | _ => false

def attemptOf (accounts : Accounts) (request : Request) (d : State) : Option Attempt :=
  let named (username : Name) (locks : Nat → Bool) : Option Attempt :=
    (accounts.uidOf username).map fun uid => { key := uid, who := uid, locks }
  match request.call with
  | .authenticate caller _ => (usernameForUid accounts caller).bind fun username => named username fun _ => true
  | .authenticateInteractive caller _ => (usernameForUid accounts caller).bind fun username => named username fun _ => true
  | .verify caller _ token =>
    match findSession request.env.time token d with
    | (none, _) => none
    | (some slot, reached) => some { key := caller, who := (reached.sessions slot).uid, locks := request.env.locks }
  | .verifyUser _ _ username => named username request.env.locks
  | .fprintdVerify username => named username fun _ => true
  | _ => none

section
variable {mac : Buf 32 → Bytes → Buf 32} {accounts : Accounts} {request : Request} {d : State}

theorem authenticate_served {answer : Bool → String → Reply} {caller : Uid} {sender : Name}
    (known : attemptOf accounts request d =
      (usernameForUid accounts caller).bind fun username =>
        (accounts.uidOf username).map fun uid => { key := uid, who := uid, locks := fun _ => true }) :
    (∃ attempt success, attemptOf accounts request d = some attempt ∧
      Tried request.env d attempt (authenticateWith accounts request.env answer caller sender d).1.comparisons success
        (authenticateWith accounts request.env answer caller sender d).2.limiters) ∨
    ((authenticateWith accounts request.env answer caller sender d).1.comparisons = [] ∧
      (authenticateWith accounts request.env answer caller sender d).2.limiters = d.limiters) := by
  cases named : usernameForUid accounts caller with
  | none =>
    right
    unfold authenticateWith
    rw [named]
    exact ⟨rfl, rfl⟩
  | some username =>
    rw [named, Option.bind_some] at known
    cases found : accounts.uidOf username with
    | some uid =>
      obtain ⟨success, tried⟩ := authenticateWith_tried named found
      rw [found] at known
      exact .inl ⟨_, success, known, tried⟩
    | none =>
      right
      have missing : daemonVerifyUser accounts request.env username d = (.quiet (.returned .notFound), d) := by
        unfold daemonVerifyUser
        rw [found]
      unfold authenticateWith
      rw [named]
      dsimp only
      rw [missing]
      dsimp only
      split
      · exact ⟨rfl, admit_limiters _ _ _⟩
      · split
        · exact ⟨rfl, admit_limiters _ _ _⟩
        · exact ⟨rfl, rfl⟩

/-- Every call that verifies makes its attempt, or asks nobody anything. -/
theorem serve_tried (mac : Buf 32 → Bytes → Buf 32) (accounts : Accounts) (d : State)
    (verifies : request.call.verifies = true) :
    (∃ attempt success, attemptOf accounts request d = some attempt ∧
      Tried request.env d attempt (serve mac accounts request d).1.comparisons success
        (serve mac accounts request d).2.limiters) ∨
    ((serve mac accounts request d).1.comparisons = [] ∧ (serve mac accounts request d).2.limiters = d.limiters) := by
  unfold serve
  cases call : request.call with
  | authenticate caller sender =>
    apply authenticate_served
    unfold attemptOf
    rw [call]
  | authenticateInteractive caller sender =>
    apply authenticate_served
    unfold attemptOf
    rw [call]
  | verify caller sender token =>
    unfold attemptOf
    rw [call]
    dsimp only
    rcases found : findSession request.env.time token d with ⟨_ | slot, reached⟩
    · right
      obtain ⟨sessions, sessionCount, rfl⟩ := findSession_only found
      unfold verify
      rw [found]
      exact ⟨rfl, rfl⟩
    · exact .inl ⟨_, _, rfl, verify_tried found⟩
  | verifyUser caller trustedPortal username =>
    unfold attemptOf
    rw [call]
    dsimp only
    cases found : accounts.uidOf username with
    | some uid => exact .inl ⟨_, _, rfl, verifyUser_tried found⟩
    | none =>
      right
      unfold verifyUser
      rw [found]
      split
      · exact ⟨rfl, rfl⟩
      · exact ⟨rfl, rfl⟩
  | fprintdVerify username =>
    unfold attemptOf
    rw [call]
    dsimp only
    cases found : accounts.uidOf username with
    | some uid => exact .inl ⟨_, _, rfl, daemonVerifyUser_tried found⟩
    | none =>
      right
      unfold daemonVerifyUser
      rw [found]
      exact ⟨rfl, rfl⟩
  | _ => simp [Call.verifies, call] at verifies

end

def Call.edits : Call → Bool
  | .enroll .. => true
  | .fprintdEnroll .. => true
  | .removeFinger .. => true
  | .deleteEnrollment .. => true
  | .deleteEnrollments .. => true
  | _ => false

/-- Such a call touches the list of enrolments and the state directory, and nothing else. -/
theorem serve_edits {mac : Buf 32 → Bytes → Buf 32} {accounts : Accounts} {request : Request} {d : State}
    (edits : request.call.edits = true) : ∃ enrollments disk,
    (serve mac accounts request d).2 = { d with enrollments, disk } := by
  have unchanged : ∃ enrollments disk, d = { d with enrollments, disk } := ⟨d.enrollments, d.disk, rfl⟩
  unfold serve
  cases call : request.call with
  | enroll caller finger label =>
    change ∃ enrollments disk, (enroll request.env mac caller finger label d).2 = _
    unfold enroll
    dsimp only
    repeat' split
    all_goals first | exact unchanged | exact ⟨_, _, rfl⟩
  | fprintdEnroll username finger =>
    change ∃ enrollments disk, (daemonEnrollUser request.env mac accounts username finger d).2 = _
    unfold daemonEnrollUser
    dsimp only
    repeat' split
    all_goals first | exact unchanged | exact ⟨_, _, rfl⟩
  | removeFinger caller fingerId =>
    change ∃ enrollments disk, (removeFinger request.env mac caller fingerId d).2 = _
    unfold removeFinger
    repeat' split
    all_goals first | exact unchanged | exact ⟨_, _, rfl⟩
  | deleteEnrollment caller finger =>
    change ∃ enrollments disk, (deleteEnrollment request.env mac caller finger d).2 = _
    unfold deleteEnrollment
    split
    · exact ⟨_, _, rfl⟩
    · exact unchanged
  | deleteEnrollments username =>
    change ∃ enrollments disk, (deleteEnrollments request.env mac accounts username d).2 = _
    unfold deleteEnrollments
    split
    · exact unchanged
    · exact ⟨_, _, rfl⟩
  | _ =>
    rw [call] at edits
    cases edits

section
variable {accounts : Accounts} {env : Env}

def Purpose.follow (env : Env) (key : Uid) (trial : Trial) (d : State) (purpose : Purpose) : Outcome × State :=
  if trial.accepted.isNone ∧ trial.policyDenied then
    purpose.concludes env { reply := purpose.denied, comparisons := trial.comparisons } d
  else purpose.concludes env (purpose.settle env key trial d).1 (purpose.settle env key trial d).2

def Purpose.finish (env : Env) (key : Uid) (copies : Copies) (d : State) (purpose : Purpose) : Outcome × State :=
  if d.shuttingDown then purpose.concludes env (.quiet purpose.stopped) d
  else
    let trial := tryTemplates env copies.policy (purpose.locks env) (purpose.counts env d) 0 copies.own
    purpose.follow env key trial (purpose.marks env trial d)

def alone (env : Env) : Opening × State → Outcome × State
  | (.answered outcome, d) => (outcome, d)
  | (.begun verification, d) => match verification.stage with
    | .waiting key copies => verification.purpose.finish env key copies d
    | .scanned key trial => verification.purpose.concludes env (verification.purpose.settle env key trial d).1
        (verification.purpose.settle env key trial d).2
    | .decided verdict => verification.purpose.concludes env verdict d

theorem follow_answered (purpose : Purpose) (uid key : Uid) (trial : Trial) (d : State)
    (ends : ∀ verdict d, purpose.concludes env verdict d =
    (verdict, if verdict.reply = .matched true then autoUnlockUserVault env uid d else d))
    (judged : ∀ matched, purpose.judged matched = .matched matched) (denied : purpose.denied ≠ .matched true) :
    purpose.follow env key trial d =
      if trial.accepted.isNone ∧ trial.policyDenied then ({ reply := purpose.denied, comparisons := trial.comparisons }, d)
      else if trial.accepted.isSome then
        ({ reply := .matched true, comparisons := trial.comparisons },
          autoUnlockUserVault env uid { d with limiters := resetVerifyRateLimit key d.limiters })
      else
        ({ reply := .matched false, comparisons := trial.comparisons },
          { d with limiters := recordVerifyFailure d.config env.recordedAt key d.limiters }) := by
  unfold Purpose.follow Purpose.settle
  by_cases nothing : trial.accepted.isNone = true ∧ trial.policyDenied = true
  · rw [if_pos nothing, if_pos nothing, ends, if_neg denied]
  · rw [if_neg nothing, if_neg nothing, ends, judged]
    cases trial.accepted <;> rfl

theorem verify_alone (caller : Uid) (sender : Name) (token : Bytes) (d : State) :
    verify env caller sender token d = alone env (verifyOpens env caller sender token d) := by
  unfold verify verifyOpens
  rcases findSession env.time token d with ⟨_ | slot, reached⟩
  · rfl
  dsimp only
  by_cases other : caller ≠ 0 ∧ (reached.sessions slot).uid ≠ caller
  · rw [if_pos other, if_pos other]
    rfl
  rw [if_neg other, if_neg other]
  by_cases foreign : (!(reached.sessions slot).belongsTo sender) = true
  · rw [if_pos foreign, if_pos foreign]
    rfl
  rw [if_neg foreign, if_neg foreign]
  rcases checkVerifyRateLimit env.checkedAt caller reached.limiters with ⟨_ | seconds, limiters⟩
  · dsimp only
    by_cases absent : (!reached.fpDev) = true
    · rw [if_pos absent, if_pos absent]
      rfl
    rw [if_neg absent, if_neg absent]
    by_cases memory : ({ reached with limiters } : State).enrollmentsOf (reached.sessions slot).uid ≠ [] ∧
      (!env.allocates) = true
    · rw [if_pos memory, if_pos memory]
      rfl
    rw [if_neg memory, if_neg memory]
    unfold alone Purpose.finish
    dsimp only
    by_cases stops : reached.shuttingDown = true
    · rw [if_pos stops, if_pos stops]
      rfl
    rw [if_neg stops, if_neg stops]
    exact (follow_answered (.verify caller slot) caller caller _ _ (fun _ _ => rfl) (fun _ => rfl)
      (by simp [Purpose.denied])).symm
  · rfl

theorem verifyUser_alone (caller : Uid) (trustedPortal : Bool) (username : Name) (d : State) :
    verifyUser accounts env caller trustedPortal username d =
    alone env (verifyUserOpens accounts env caller trustedPortal username d) := by
  unfold verifyUser verifyUserOpens
  by_cases unnamed : username = []
  · rw [if_pos unnamed, if_pos unnamed]
    rfl
  rw [if_neg unnamed, if_neg unnamed]
  rcases accounts.uidOf username with _ | target
  · rfl
  dsimp only
  by_cases foreign : caller ≠ 0 ∧ ¬ (trustedPortal = true ∧ caller = target)
  · rw [if_pos foreign, if_pos foreign]
    rfl
  rw [if_neg foreign, if_neg foreign]
  rcases checkVerifyRateLimit env.checkedAt target d.limiters with ⟨_ | seconds, limiters⟩
  · dsimp only
    by_cases absent : (!d.fpDev) = true
    · rw [if_pos absent, if_pos absent]
      rfl
    rw [if_neg absent, if_neg absent]
    by_cases memory : ({ d with limiters } : State).enrollmentsOf target ≠ [] ∧ (!env.allocates) = true
    · rw [if_pos memory, if_pos memory]
      rfl
    rw [if_neg memory, if_neg memory]
    unfold alone Purpose.finish
    dsimp only
    by_cases stops : d.shuttingDown = true
    · rw [if_pos stops, if_pos stops]
      rfl
    rw [if_neg stops, if_neg stops]
    exact (follow_answered (.verifyUser target) target target _ _ (fun _ _ => rfl) (fun _ => rfl)
      (by simp [Purpose.denied])).symm
  · rfl

theorem follow_returned (purpose : Purpose) (key : Uid) (trial : Trial) (d : State)
    (judged : ∀ matched, purpose.judged matched = .returned (if matched then .ok else .noMatch))
    (denied : purpose.denied = .returned .permission)
    {verdict : Outcome × State}
    (same : verdict = if trial.policyDenied ∧
    trial.accepted.isNone then ({ reply := .returned .permission, comparisons := trial.comparisons }, d)
      else if trial.accepted.isSome then
        ({ reply := .returned .ok, comparisons := trial.comparisons },
          { d with limiters := resetVerifyRateLimit key d.limiters })
      else
        ({ reply := .returned .noMatch, comparisons := trial.comparisons },
          { d with limiters := recordVerifyFailure d.config env.recordedAt key d.limiters })) :
    purpose.follow env key trial d = purpose.concludes env verdict.1 verdict.2 := by
  subst same
  unfold Purpose.follow Purpose.settle
  rw [judged, denied]
  cases trial.accepted <;> cases trial.policyDenied <;> rfl

/-- The internal entry point, up to its verdict. -/
theorem daemonVerifyUser_alone {purpose : Purpose} (user : Name) (d : State) (stopped : purpose.stopped = .returned .io)
    (denied : purpose.denied = .returned .permission)
    (judged : ∀ matched, purpose.judged matched = .returned (if matched then .ok else .noMatch))
    (locks : purpose.locks env = fun _ => true) (counts : ∀ d, purpose.counts env d = fun _ => true)
    (marks : ∀ trial d, purpose.marks env trial d = d) :
    alone env (.begun { purpose, stage := (daemonVerifyUserOpens accounts env user d).1 },
    (daemonVerifyUserOpens accounts env user d).2) =
      purpose.concludes env (daemonVerifyUser accounts env user d).1 (daemonVerifyUser accounts env user d).2 := by
  unfold daemonVerifyUser daemonVerifyUserOpens
  rcases accounts.uidOf user with _ | uid
  · rfl
  dsimp only
  rcases checkVerifyRateLimit env.checkedAt uid d.limiters with ⟨_ | seconds, limiters⟩
  · dsimp only
    by_cases none : ({ d with limiters } : State).enrollmentsOf uid = []
    · simp only [if_pos none]
      rfl
    simp only [if_neg none]
    by_cases memory : (!env.allocates) = true
    · simp only [if_pos memory]
      rfl
    simp only [if_neg memory]
    by_cases absent : (!d.fpDev) = true
    · simp only [if_pos absent]
      rfl
    simp only [if_neg absent]
    unfold alone Purpose.finish
    dsimp only
    rw [stopped, locks, counts, marks]
    by_cases stops : d.shuttingDown = true
    · simp only [if_pos stops]
    rw [if_neg stops, if_neg stops]
    exact follow_returned purpose uid _ _ judged denied rfl
  · rfl

theorem authenticate_alone (interactive : Bool) (caller : Uid) (sender : Name) (d : State) :
    authenticateWith accounts env (authenticateReply interactive) caller sender d =
      alone env (authenticateOpens accounts env interactive caller sender d) := by
  unfold authenticateWith authenticateOpens
  cases usernameForUid accounts caller with
  | none => rfl
  | some username =>
    have verdict : alone env (.begun { purpose := .authenticate interactive caller sender username, stage := _ }, _) = _ :=
      @daemonVerifyUser_alone accounts env _ username d rfl rfl (fun _ => rfl) rfl (fun _ => rfl) fun _ _ => rfl
    exact verdict.symm

theorem fprintd_alone (username : Name) (d : State) :
    daemonVerifyUser accounts env username d = alone env (fprintdOpens accounts env username d) := by
  unfold fprintdOpens
  split
  next unknown =>
    unfold daemonVerifyUser
    rw [unknown]
    rfl
  next uid _ =>
    have verdict : alone env (.begun { purpose := .fprintd uid, stage := _ }, _) = _ :=
      @daemonVerifyUser_alone accounts env _ username d rfl rfl (fun _ => rfl) rfl (fun _ => rfl) fun _ _ => rfl
    exact verdict.symm

theorem serve_alone (mac : Buf 32 → Bytes → Buf 32) (call : Call) (d : State) :
    serve mac accounts { call, env } d = alone env (opens mac accounts env call d) := by
  cases call with
  | authenticate caller sender => exact authenticate_alone false caller sender d
  | authenticateInteractive caller sender => exact authenticate_alone true caller sender d
  | verify caller sender token => exact verify_alone caller sender token d
  | verifyUser caller trustedPortal username => exact verifyUser_alone caller trustedPortal username d
  | fprintdVerify username => exact fprintd_alone username d
  | _ => rfl

end

section
variable {mac : Buf 32 → Bytes → Buf 32} {accounts : Accounts} {env : Env} {before middle final : Threads} {thread : Thread}

/-- Where the moves lead, and the last that is told on the way. -/
def Comes (mac : Buf 32 → Bytes → Buf 32) (accounts : Accounts) (moves : List Move) (before final : Threads)
    (outcome : Outcome) : Prop :=
  ((threads mac accounts).reached before moves).1 = final ∧
    (((threads mac accounts).run before moves).filterMap (·.outcome)).getLast? = some outcome

theorem Comes.after {move : Move} {moves : List Move} {told : Option Outcome} {outcome : Outcome}
    (step : before.step mac accounts move = (told, middle)) (comes : Comes mac accounts moves middle final outcome) :
    Comes mac accounts (move :: moves) before final outcome := by
  obtain ⟨ends, last⟩ := comes
  have event : ((threads mac accounts).event before move).after = middle := congrArg Prod.snd step
  have said : ((threads mac accounts).event before move).outcome = told := congrArg Prod.fst step
  constructor
  · change ((threads mac accounts).reached ((threads mac accounts).event before move).after moves).1 = final
    rw [event, ends]
  · change ((((threads mac accounts).event before move) :: (threads mac accounts).run
      ((threads mac accounts).event before move).after moves).filterMap
      (·.outcome)).getLast? = some outcome
    rw [event, List.filterMap_cons, said]
    cases told with
    | none => exact last
    | some value =>
      dsimp only
      rw [List.getLast?_cons, last]
      rfl

theorem Comes.last {move : Move} {outcome : Outcome} (step : before.step mac accounts move = (some outcome, final)) :
    Comes mac accounts [move] before final outcome := by
  constructor
  · rw [Machine.reached_singleton]
    exact congrArg Prod.snd step
  · have said : ((threads mac accounts).event before move).outcome = some outcome := congrArg Prod.fst step
    rw [Machine.run_singleton, List.filterMap_cons_some said]
    rfl

theorem Comes.answered {move : Move} {outcome : Outcome} (step : before.step mac accounts move = (some outcome, final))
    (moves : List Move)
    (still : ∀ move ∈ moves, final.step mac accounts move = (none, final)) :
    Comes mac accounts (move :: moves) before final outcome := by
  have rest : ((threads mac accounts).reached final moves).1 = final ∧
    ((threads mac accounts).run final moves).filterMap (·.outcome) = [] := by
    induction moves with
    | nil => exact ⟨rfl, rfl⟩
    | cons first later ih =>
      obtain ⟨here, there⟩ := List.forall_mem_cons.mp still
      have ended : ((threads mac accounts).event final first).after = final := congrArg Prod.snd here
      have silent : ((threads mac accounts).event final first).outcome = none := congrArg Prod.fst here
      obtain ⟨ends, quiet⟩ := ih there
      constructor
      · change ((threads mac accounts).reached ((threads mac accounts).event final first).after later).1 = final
        rw [ended, ends]
      · change (((threads mac accounts).event final first) :: (threads mac accounts).run
          ((threads mac accounts).event final first).after later).filterMap
          (·.outcome) = []
        rw [ended, List.filterMap_cons_none silent, quiet]
  have event : ((threads mac accounts).event before move).after = final := congrArg Prod.snd step
  have said : ((threads mac accounts).event before move).outcome = some outcome := congrArg Prod.fst step
  constructor
  · change ((threads mac accounts).reached ((threads mac accounts).event before move).after moves).1 = final
    rw [event, rest.1]
  · change ((((threads mac accounts).event before move) :: (threads mac accounts).run
      ((threads mac accounts).event before move).after moves).filterMap
      (·.outcome)).getLast? = some outcome
    rw [event, List.filterMap_cons_some said, rest.2]
    rfl

theorem Threads.put_put (x y : Option Verification) (first second : State) :
    (before.put thread x first).put thread y second = before.put thread y second := by
  simp [Threads.put, Function.update_idem]

theorem underway_put (x : Option Verification) (d : State) : (before.put thread x d).underway thread = x := by
  simp [Threads.put]

/-- A step without a pause. -/
def next (thread : Thread) (env : Env) (act : Act) : Move := { thread, act, env, waited := 0 }

theorem step_going {verification : Verification} {act : Act} (held : before.underway thread = some verification)
    (lives : act ≠ .restart) :
    before.step mac accounts (next thread env act) = before.go thread verification (env.at before.clock) act := by
  cases act with
  | restart => exact absurd rfl lives
  | _ =>
    unfold Threads.step next
    dsimp only
    rw [held]
    rfl

theorem step_free {act : Act} (free : before.underway thread = none) (later : act = .scan ∨ act = .settle ∨ act = .conclude) :
    before.step mac accounts (next thread env act) = (none, before) := by
  rcases later with rfl | rfl | rfl
  all_goals
    unfold Threads.step next
    dsimp only
    rw [free]
    rfl

theorem comes_concluded (purpose : Purpose) (verdict : Outcome) (d : State) :
    Comes mac accounts [next thread env .conclude] (before.put thread (some { purpose, stage := .decided verdict }) d)
      (before.put thread none (purpose.concludes (env.at before.clock) verdict d).2)
        (purpose.concludes (env.at before.clock) verdict d).1 := by
  rw [← Threads.put_put (some { purpose, stage := .decided verdict }) none d]
  exact .last (step_going (underway_put _ d) nofun)

/-- The bookkeeping is not for a verdict that is known. -/
theorem comes_decided (purpose : Purpose) (verdict : Outcome) (d : State) :
    Comes mac accounts [next thread env .settle, next thread env .conclude]
    (before.put thread (some { purpose, stage := .decided verdict }) d)
      (before.put thread none (purpose.concludes (env.at before.clock) verdict d).2)
        (purpose.concludes (env.at before.clock) verdict d).1 :=
  (comes_concluded purpose verdict d).after (step_going (underway_put _ d) nofun)

theorem comes_scanned (purpose : Purpose) (key : Uid) (trial : Trial) (d : State) :
    Comes mac accounts [next thread env .settle, next thread env .conclude]
    (before.put thread (some { purpose, stage := .scanned key trial }) d)
      (before.put thread none (purpose.concludes (env.at before.clock) (purpose.settle (env.at before.clock) key trial d).1
        (purpose.settle (env.at before.clock) key trial d).2).2)
      (purpose.concludes (env.at before.clock) (purpose.settle (env.at before.clock) key trial d).1
        (purpose.settle (env.at before.clock) key trial d).2).1 := by
  have settled : (before.put thread (some { purpose, stage := .scanned key trial }) d).step mac accounts
    (next thread env .settle) =
      (some (purpose.settle (env.at before.clock) key trial d).1,
        before.put thread (some { purpose, stage := .decided (purpose.settle (env.at before.clock) key trial d).1 })
          (purpose.settle (env.at before.clock) key trial d).2) := by
    have lives : Act.settle ≠ .restart := nofun
    exact (step_going (underway_put _ d) lives).trans (congrArg (Prod.mk _) (Threads.put_put ..))
  exact (comes_concluded _ _ _).after settled

theorem comes_begun (verification : Verification) (d : State) :
    Comes mac accounts [next thread env .scan, next thread env .settle, next thread env .conclude]
    (before.put thread (some verification) d)
      (before.put thread none (alone (env.at before.clock) (.begun verification, d)).2)
      (alone (env.at before.clock) (.begun verification, d)).1 := by
  obtain ⟨purpose, stage⟩ := verification
  cases stage with
  | decided verdict => exact (comes_decided purpose verdict d).after (step_going (underway_put _ d) nofun)
  | scanned key trial => exact (comes_scanned purpose key trial d).after (step_going (underway_put _ d) nofun)
  | waiting key copies =>
    have first : (before.put thread (some { purpose, stage := .waiting key copies }) d).step mac accounts
      (next thread env .scan) =
        (none, before.put thread (some { purpose, stage := (purpose.scan (env.at before.clock) key copies d).1 })
          (purpose.scan (env.at before.clock) key copies d).2) := by
      have lives : Act.scan ≠ .restart := nofun
      exact (step_going (underway_put _ d) lives).trans (congrArg (Prod.mk _) (Threads.put_put ..))
    refine Comes.after first ?_
    unfold alone Purpose.finish Purpose.scan
    dsimp only
    by_cases stops : d.shuttingDown = true
    · simp only [if_pos stops]
      exact comes_decided purpose _ d
    simp only [if_neg stops]
    unfold Purpose.follow
    split
    · exact comes_decided purpose _ _
    · exact comes_scanned purpose key _ _

end

/-- The steps of a call, one after the other. -/
def undisturbed (thread : Thread) (call : Call) (env : Env) : List Move :=
  [next thread env (.start call), next thread env .scan, next thread env .settle, next thread env .conclude]

/-- A call whose steps nothing comes between is served as a whole. -/
theorem undisturbed_call (mac : Buf 32 → Bytes → Buf 32) (accounts : Accounts) (before : Threads) (thread : Thread)
    (call : Call) (env : Env)
    (free : before.underway thread = none) (runs : call.runsOn thread = true) :
    Comes mac accounts (undisturbed thread call env) before
      { before with daemon := (serve mac accounts { call, env := env.at before.clock } before.daemon).2 }
      (serve mac accounts { call, env := env.at before.clock } before.daemon).1 := by
  have begins : before.step mac accounts (next thread env (.start call)) = before.start mac accounts thread call
    (env.at before.clock) := by
    unfold Threads.step next
    dsimp only
    rw [free]
    exact if_pos runs
  have emptied (d : State) : before.put thread none d = { before with daemon := d } := by
    unfold Threads.put
    rw [← free, Function.update_eq_self]
  rw [serve_alone, ← emptied]
  unfold Threads.start at begins
  rcases shape : opens mac accounts (env.at before.clock) call before.daemon with ⟨outcome | verification, d⟩
  · rw [shape] at begins
    have still (act : Act) (later : act = .scan ∨ act = .settle ∨ act = .conclude) :
        (before.put thread none d).step mac accounts (next thread env act) = (none, before.put thread none d) :=
      step_free (underway_put none d) later
    exact Comes.answered begins [next thread env .scan, next thread env .settle, next thread env .conclude]
      (by simpa using ⟨still _ (.inl rfl), still _ (.inr (.inl rfl)), still _ (.inr (.inr rfl))⟩)
  · rw [shape] at begins
    exact (comes_begun verification d).after begins

/-- The right finger, and nobody else at the sensor. -/
theorem undisturbed_call_known : ∃ outcome, outcome.reply = .returned .ok ∧
    Comes plainMac plainAccounts (undisturbed (.worker 0) (.fprintdVerify [2]) (calmEnv 1 [[7]]))
      (.idle (plainState [plainTemplate 1 1 7]) 1)
      (.idle (serve plainMac plainAccounts { call := .fprintdVerify [2], env := calmEnv 1 [[7]] }
      (plainState [plainTemplate 1 1 7])).2 1) outcome :=
  ⟨_, by decide +kernel, undisturbed_call plainMac plainAccounts (.idle _ 1) (.worker 0) (.fprintdVerify [2])
    (calmEnv 1 [[7]]) rfl rfl⟩

end Hiya.Daemon
