import Hiya.Fingerprint.Device
import Hiya.Proofs.Attempts

/-! The loops over a user's templates on a device that limits them. Each template that does not
match is a failure for the device, so a template far behind in the list may find it locked. -/

namespace Hiya.Fingerprint
open Library

/-- How a finger stays on the device: what each template is answered with, and the clock around
each comparison, in seconds since the epoch. -/
structure Sensor where
  scan : Bytes → Scan
  checkedAt : Nat → Nat
  notedAt : Nat → Nat

namespace Sensor
variable (sensor : Sensor)

def call (number : Nat) (data : Bytes) (rate : Rate) : FpCode × Rate :=
  bioFpVerify (sensor.checkedAt number) (sensor.notedAt number) (sensor.scan data) rate

/-- The limiter when it is the turn of a template, after those before it that were shown. -/
def rateAt (shown : Nat → Option Bytes) : Nat → Rate
  | 0 => .clear bioFpRateDefault
  | number + 1 =>
    match shown number with
    | none => rateAt shown number
    | some data => (sensor.call number data (rateAt shown number)).2

/-- The answer of the device to a template, in its turn. -/
def answers (shown : Nat → Option Bytes) (number : Nat) (data : Bytes) : Bool :=
  (sensor.call number data (sensor.rateAt shown number)).1 = .ok

def misses (shown : Nat → Option Bytes) (number : Nat) : Nat :=
  (List.range number).countP fun earlier => (shown earlier).any fun data => sensor.scan data = .noMatch

end Sensor

section
variable {sensor : Sensor} {shown : Nat → Option Bytes} {number : Nat} {rate : Rate}

theorem misses_succ (number : Nat) : sensor.misses shown (number + 1) =
    sensor.misses shown number + if (shown number).any fun data => sensor.scan data = .noMatch then 1 else 0 := by
  rw [Sensor.misses, List.range_succ, List.countP_append, List.countP_singleton, ← Sensor.misses]

/-- The device is not locked, and there are no more failures in it than this. -/
structure Calm (count : Nat) (rate : Rate) : Prop where
  config : rate.config = bioFpRateDefault
  free : rate.lockoutUntil = 0
  few : rate.failureCount ≤ count

theorem Calm.check {count : Nat} (calm : Calm count rate) (now : Nat) : bioFpCheckRateLimit now rate = (none, rate) := by
  unfold bioFpCheckRateLimit
  rw [calm.free, if_neg (by omega), if_neg (by omega)]

theorem Calm.note {count : Nat} (calm : Calm count rate) (low : count + 1 < 5) (now : Int) : Calm (count + 1)
    (bioFpRecordFailure now rate) := by
  have few := calm.few
  have recent := ringCount_le rate.failures rate.failureCount fun time => decide (now - time ≤ rate.config.windowSeconds)
  have attempts : rate.config.maxAttempts = 5 := by rw [calm.config]; rfl
  unfold bioFpRecordFailure
  dsimp only
  rw [if_neg (by omega)]
  refine ⟨calm.config, calm.free, ?_⟩
  dsimp only
  split
  · omega
  · omega

theorem Calm.mono {count more : Nat} (calm : Calm count rate) (grows : count ≤ more) : Calm more rate :=
  ⟨calm.config, calm.free, Nat.le_trans calm.few grows⟩

theorem calm_clear (count : Nat) : Calm count (.clear bioFpRateDefault) := ⟨rfl, rfl, Nat.zero_le count⟩

def scanned (now : Int) (rate : Rate) : Scan → FpCode × Rate
  | .matched => (.ok, .clear bioFpRateDefault)
  | .noMatch => (.noMatch, bioFpRecordFailure now rate)
  | .failed => (.failed, rate)

theorem Calm.call {count : Nat} (calm : Calm count rate) (number : Nat) (data : Bytes) :
    sensor.call number data rate = scanned (sensor.notedAt number) rate (sensor.scan data) := by
  unfold Sensor.call bioFpVerify
  rw [calm.check]
  dsimp only
  cases sensor.scan data with
  | matched => rw [bioFpResetRateLimit, calm.config, scanned]
  | noMatch => rfl
  | failed => rfl

/-- With fewer than five misses in front of it, a template finds the device unlocked. -/
theorem rateAt_calm (few : sensor.misses shown number < 5) : Calm (sensor.misses shown number)
    (sensor.rateAt shown number) := by
  induction number with
  | zero => exact calm_clear _
  | succ number ih =>
    rw [misses_succ] at few ⊢
    have calm := ih (Nat.lt_of_le_of_lt (Nat.le_add_right _ _) few)
    unfold Sensor.rateAt
    cases turn : shown number with
    | none => exact calm.mono (Nat.le_add_right _ _)
    | some data =>
      rw [turn] at few
      dsimp only
      rw [calm.call number data]
      cases scan : sensor.scan data with
      | matched => exact calm_clear _
      | noMatch =>
        have missed : (some data).any (fun data => decide (sensor.scan data = .noMatch)) = true := by simp [scan]
        rw [if_pos missed] at few ⊢
        exact calm.note few _
      | failed => exact calm.mono (Nat.le_add_right _ _)

/-- The loop is over before a lockout ends, and its failures lie within the window. -/
structure Prompt (sensor : Sensor) : Prop where
  locked : ∀ first second, first < second → sensor.checkedAt second < sensor.notedAt first + 30
  window : ∀ first second, first < second → sensor.notedAt second ≤ sensor.notedAt first + 60

structure Noted (sensor : Sensor) (number count : Nat) (rate : Rate) : Prop where
  calm : Calm count rate
  exact : rate.failureCount = count
  next : rate.failureIdx = count
  times : ∀ slot : Fin failureSlots, slot.val < count → ∃ earlier < number, rate.failures slot = sensor.notedAt earlier

def LockedBefore (sensor : Sensor) (number : Nat) (rate : Rate) : Prop :=
    ∃ earlier < number, rate.lockoutUntil = sensor.notedAt earlier + 30

theorem LockedBefore.call (prompt : Prompt sensor) (locked : LockedBefore sensor number rate) (data : Bytes) :
    sensor.call number data rate = (.rateLimit, rate) := by
  obtain ⟨earlier, before, until_⟩ := locked
  have late := prompt.locked earlier number before
  unfold Sensor.call bioFpVerify bioFpCheckRateLimit
  rw [if_pos (by omega)]

theorem LockedBefore.later (locked : LockedBefore sensor number rate) : LockedBefore sensor (number + 1) rate := by
  obtain ⟨earlier, before, until_⟩ := locked
  exact ⟨earlier, Nat.lt_succ_of_lt before, until_⟩

theorem Noted.later {count : Nat} (noted : Noted sensor number count rate) : Noted sensor (number + 1) count rate where
  calm := noted.calm
  exact := noted.exact
  next := noted.next
  times slot used := by
    obtain ⟨earlier, before, time⟩ := noted.times slot used
    exact ⟨earlier, Nat.lt_succ_of_lt before, time⟩

/-- One more miss is one more failure, and the fifth locks the device. -/
theorem Noted.note {count : Nat} (prompt : Prompt sensor) (noted : Noted sensor number count rate) (few : count < 5) :
    (count + 1 < 5 ∧ Noted sensor (number + 1) (count + 1) (bioFpRecordFailure (sensor.notedAt number) rate)) ∨
      (5 ≤ count + 1 ∧ LockedBefore sensor (number + 1) (bioFpRecordFailure (sensor.notedAt number) rate)) := by
  have slots : failureSlots = 32 := rfl
  have recent : (ringCount rate.failures rate.failureCount fun time => decide ((sensor.notedAt number : Int) - time ≤
    rate.config.windowSeconds)) = count := by
    have window : rate.config.windowSeconds = 60 := by rw [noted.calm.config]; rfl
    rw [ringCount_all (by rw [noted.exact]; omega), noted.exact]
    intro slot used
    obtain ⟨earlier, before, time⟩ := noted.times slot (noted.exact ▸ used)
    have near := prompt.window earlier number before
    rw [time, window]
    exact decide_eq_true (by omega)
  have attempts : rate.config.maxAttempts = 5 := by rw [noted.calm.config]; rfl
  have seconds : rate.config.lockoutSeconds = 30 := by rw [noted.calm.config]; rfl
  by_cases last : 5 ≤ count + 1
  · refine Or.inr ⟨last, number, Nat.lt_succ_self number, ?_⟩
    unfold bioFpRecordFailure
    dsimp only
    rw [recent, if_pos (by omega), seconds]
    rfl
  · refine Or.inl ⟨by omega, noted.calm.note (by omega) _, ?_, ?_, ?_⟩
    · unfold bioFpRecordFailure
      dsimp only
      rw [recent, if_neg (by omega)]
      dsimp only
      rw [noted.exact, if_pos (by omega)]
    · unfold bioFpRecordFailure
      dsimp only
      rw [recent, if_neg (by omega)]
      dsimp only
      rw [noted.next, Nat.mod_eq_of_lt (by omega)]
    · intro slot used
      unfold bioFpRecordFailure
      dsimp only
      rw [recent, if_neg (by omega)]
      dsimp only
      have written : rate.failureIdx % failureSlots = count := by rw [noted.next, Nat.mod_eq_of_lt (by omega)]
      by_cases here : slot.val = count
      · have same : slot = ⟨rate.failureIdx % failureSlots, Nat.mod_lt _ failureSlots_pos⟩ :=
          Fin.ext (here.trans written.symm)
        exact ⟨number, Nat.lt_succ_self number, by rw [same, Function.update_self]⟩
      · obtain ⟨earlier, before, time⟩ := noted.times slot (by omega)
        refine ⟨earlier, Nat.lt_succ_of_lt before, ?_⟩
        rw [Function.update_of_ne fun is => here ((congrArg Fin.val is).trans written), time]

/-- In a quick loop without a match so far, the device counts the misses up to the fifth. -/
theorem rateAt_noted (prompt : Prompt sensor) (unmatched : ∀ earlier < number, ∀ data, shown earlier = some data →
    sensor.answers shown earlier data = false) :
    (sensor.misses shown number < 5 ∧ Noted sensor number (sensor.misses shown number) (sensor.rateAt shown number)) ∨
      (5 ≤ sensor.misses shown number ∧ LockedBefore sensor number (sensor.rateAt shown number)) := by
  induction number with
  | zero => exact Or.inl ⟨Nat.succ_pos 4, calm_clear _, rfl, rfl, fun slot used => absurd used (Nat.not_lt_zero _)⟩
  | succ number ih =>
    have before := ih fun earlier inside => unmatched earlier (Nat.lt_succ_of_lt inside)
    rw [misses_succ]
    unfold Sensor.rateAt
    cases turn : shown number with
    | none =>
      obtain ⟨few, noted⟩ | ⟨many, locked⟩ := before
      · exact Or.inl ⟨few, noted.later⟩
      · exact Or.inr ⟨many, locked.later⟩
    | some data =>
      dsimp only
      obtain ⟨few, noted⟩ | ⟨many, locked⟩ := before
      · have answered := unmatched number (Nat.lt_succ_self number) data turn
        rw [Sensor.answers, noted.calm.call] at answered
        rw [noted.calm.call]
        cases scan : sensor.scan data with
        | matched =>
          rw [scan] at answered
          cases answered
        | noMatch =>
          rw [if_pos (by simp [scan])]
          exact noted.note prompt few
        | failed =>
          rw [if_neg (by simp [scan])]
          exact Or.inl ⟨few, noted.later⟩
      · rw [locked.call prompt]
        exact Or.inr ⟨Nat.le_add_right_of_le many, locked.later⟩

/-- A template that matches finds the device unlocked in its turn. -/
def Opened (sensor : Sensor) (shown : Nat → Option Bytes) : Prop :=
  ∃ number data, shown number = some data ∧ sensor.scan data = .matched ∧
    (sensor.rateAt shown number).lockoutUntil ≤ sensor.checkedAt number

/-- A template that matches has fewer than five others in front of it that were shown and missed. -/
def NearFront (sensor : Sensor) (shown : Nat → Option Bytes) : Prop :=
  ∃ number data, shown number = some data ∧ sensor.scan data = .matched ∧ sensor.misses shown number < 5

theorem check_open {now : Int} (open_ : rate.lockoutUntil ≤ now) : ∃ reached,
    bioFpCheckRateLimit now rate = (none, reached) := by
  unfold bioFpCheckRateLimit
  rw [if_neg (Int.not_lt.mpr open_)]
  split
  · exact ⟨_, rfl⟩
  · exact ⟨_, rfl⟩

theorem answers_iff {data : Bytes} : sensor.answers shown number data = true ↔
    sensor.scan data = .matched ∧ (sensor.rateAt shown number).lockoutUntil ≤ sensor.checkedAt number := by
  unfold Sensor.answers Sensor.call bioFpVerify
  rw [decide_eq_true_eq]
  by_cases open_ : (sensor.rateAt shown number).lockoutUntil ≤ sensor.checkedAt number
  · obtain ⟨reached, check⟩ := check_open open_
    rw [check]
    cases sensor.scan data with
    | matched => exact iff_of_true rfl ⟨rfl, open_⟩
    | noMatch => exact iff_of_false (fun is => by cases is) fun both => by cases both.1
    | failed => exact iff_of_false (fun is => by cases is) fun both => by cases both.1
  · unfold bioFpCheckRateLimit
    rw [if_pos (Int.not_le.mp open_)]
    exact iff_of_false (fun is => by cases is) fun both => open_ both.2

theorem NearFront.opened (front : NearFront sensor shown) : Opened sensor shown := by
  obtain ⟨number, data, turn, matched, few⟩ := front
  refine ⟨number, data, turn, matched, ?_⟩
  rw [(rateAt_calm few).free]
  omega

theorem Opened.nearFront (prompt : Prompt sensor) (opened : Opened sensor shown) : NearFront sensor shown := by
  classical
  have hits : ∃ number, ∃ data, shown number = some data ∧ sensor.answers shown number data = true := by
    obtain ⟨number, data, turn, both⟩ := opened
    exact ⟨number, data, turn, answers_iff.mpr both⟩
  -- the first template that is answered with a match
  obtain ⟨data, turn, answered⟩ := Nat.find_spec hits
  have unmatched : ∀ earlier < Nat.find hits, ∀ data, shown earlier = some data → sensor.answers shown earlier data = false :=
    fun earlier before data turn => eq_false_of_ne_true fun answered => Nat.find_min hits before ⟨data, turn, answered⟩
  obtain ⟨few, _⟩ | ⟨_, locked⟩ := rateAt_noted prompt unmatched
  · exact ⟨_, data, turn, (answers_iff.mp answered).1, few⟩
  · rw [Sensor.answers, locked.call prompt] at answered
    cases answered

end

end Hiya.Fingerprint

namespace Hiya.Daemon
open Library Fingerprint

section
variable {env : Env} {policy : TpmPolicy} {locks counts : Nat → Bool}

/-- A loop accepts where some template it can show is answered with a match that counts. -/
theorem tryTemplates_isSome (own : List Enrollment) : ∀ number,
    (tryTemplates env policy locks counts number own).accepted.isSome = true ↔
    ∃ place template data, own[place]? = some template ∧
    chooseTemplate env policy (locks (number + place)) (number + place) template = some data ∧
      env.fpVerify (number + place) data = true ∧ counts (number + place) = true := by
  induction own with
  | nil =>
    intro number
    exact iff_of_false Bool.false_ne_true fun found => by
      obtain ⟨place, template, data, there, _⟩ := found
      cases there
  | cons first rest ih =>
    intro number
    have shift : ∀ place, number + 1 + place = number + (place + 1) := fun place => by omega
    have later := ih (number + 1)
    simp only [shift] at later
    -- a template in the rest, counted from the front
    have moved : (∃ place template data, rest[place]? = some template ∧
        chooseTemplate env policy (locks (number + (place + 1))) (number + (place + 1)) template = some data ∧
        env.fpVerify (number + (place + 1)) data = true ∧ counts (number + (place + 1)) = true) →
        ∃ place template data, (first :: rest)[place]? = some template ∧
        chooseTemplate env policy (locks (number + place)) (number + place) template = some data ∧
        env.fpVerify (number + place) data = true ∧ counts (number + place) = true := fun found => by
      obtain ⟨place, template, data, there, all⟩ := found
      exact ⟨place + 1, template, data, there, all⟩
    unfold tryTemplates
    cases chosen : chooseTemplate env policy (locks number) number first with
    | none =>
      refine ⟨fun accepted => moved (later.mp accepted), fun found => ?_⟩
      obtain ⟨place, template, data, there, taken, all⟩ := found
      cases place with
      | zero =>
        cases there
        rw [Nat.add_zero, chosen] at taken
        cases taken
      | succ place => exact later.mpr ⟨place, template, data, there, taken, all⟩
    | some used =>
      dsimp only
      by_cases hit : (env.fpVerify number used && counts number) = true
      · rw [if_pos hit]
        exact iff_of_true rfl ⟨0, first, used, rfl, chosen, Bool.and_eq_true_iff.mp hit⟩
      · rw [if_neg hit]
        refine ⟨fun accepted => moved (later.mp accepted), fun found => ?_⟩
        obtain ⟨place, template, data, there, taken, all⟩ := found
        cases place with
        | zero =>
          cases there
          rw [Nat.add_zero, chosen] at taken
          cases taken
          exact absurd (Bool.and_eq_true_iff.mpr all) hit
        | succ place => exact later.mpr ⟨place, template, data, there, taken, all⟩

end

/-- The data the loop of an attempt has for a template. -/
def Attempt.shown (env : Env) (d : State) (attempt : Attempt) (number : Nat) : Option Bytes :=
  (d.enrollmentsOf attempt.who)[number]?.bind (chooseTemplate env d.tpmPolicy (attempt.locks number) number)

def sensed (sensor : Sensor) (env : Env) (d : State) (attempt : Attempt) : Env :=
  { env with fpVerify := sensor.answers (attempt.shown env d) }

section
variable {sensor : Sensor} {env : Env} {d : State} {attempt : Attempt} {counts : Nat → Bool}

/-- The trial of an attempt on a sensor accepts where a match finds the device unlocked. -/
theorem trial_opened (counted : ∀ number, counts number = true) :
    (attempt.trial (sensed sensor env d attempt) d counts).accepted.isSome = true ↔ Opened sensor (attempt.shown env d) := by
  have chooses : ∀ number template, chooseTemplate (sensed sensor env d attempt) d.tpmPolicy (attempt.locks number)
    number template =
      chooseTemplate env d.tpmPolicy (attempt.locks number) number template := fun _ _ => rfl
  unfold Attempt.trial
  rw [tryTemplates_isSome]
  simp only [Nat.zero_add]
  constructor
  · intro found
    obtain ⟨place, template, data, there, taken, answered, _⟩ := found
    exact ⟨place, data, by rw [Attempt.shown, there]; exact (chooses place template).symm.trans taken, answers_iff.mp answered⟩
  · intro opened
    obtain ⟨place, data, turn, both⟩ := opened
    obtain ⟨template, there, taken⟩ := Option.bind_eq_some_iff.mp turn
    exact ⟨place, template, data, there, taken, answers_iff.mpr both, counted place⟩

end

/-- What a call needs to get to the sensor. -/
structure Ready (env : Env) (d : State) (key : Uid) : Prop where
  free : (checkVerifyRateLimit env.checkedAt key d.limiters).1 = none
  device : d.fpDev = true
  memory : env.allocates = true
  running : d.shuttingDown = false

section
variable {env : Env} {d : State}

theorem Ready.checked {key : Uid} (ready : Ready env d key) :
    checkVerifyRateLimit env.checkedAt key d.limiters = (none, (checkVerifyRateLimit env.checkedAt key d.limiters).2) :=
  Prod.ext ready.free rfl

theorem verifyUser_succeeds {accounts : Accounts} {caller uid : Uid} {trustedPortal : Bool} {username : Name}
    (ready : Ready env d uid)
    (named : username ≠ []) (known : accounts.uidOf username = some uid) (allowed : caller = 0 ∨
    (trustedPortal = true ∧ caller = uid)) :
    (verifyUser accounts env caller trustedPortal username d).1.reply.succeeds =
      (Attempt.trial { key := uid, who := uid, locks := env.locks } env d fun _ => true).accepted.isSome := by
  unfold verifyUser
  rw [if_neg named, known]
  dsimp only
  rw [if_neg fun refused => refused.2 (allowed.resolve_left refused.1), ready.checked]
  dsimp only
  rw [ready.device, if_neg (by decide), ready.memory, if_neg fun refused => absurd refused.2 (by decide),
    ready.running, if_neg Bool.false_ne_true]
  split
  next denied => exact (Option.not_isSome_iff_eq_none.mpr (Option.isNone_iff_eq_none.mp denied.1) |> eq_false_of_ne_true).symm
  next =>
    split
    next accepted => exact accepted.symm
    next refused => exact (eq_false_of_ne_true refused).symm

theorem daemonVerifyUser_succeeds {accounts : Accounts} {uid : Uid} {user : Name} (ready : Ready env d uid)
    (known : accounts.uidOf user = some uid) :
    (daemonVerifyUser accounts env user d).1.reply.succeeds =
      (Attempt.trial { key := uid, who := uid, locks := fun _ => true } env d fun _ => true).accepted.isSome := by
  unfold daemonVerifyUser
  rw [known]
  dsimp only
  rw [ready.checked]
  dsimp only
  split
  next none =>
    have own : d.enrollmentsOf uid = [] := none
    unfold Attempt.trial
    rw [own]
    rfl
  next =>
    rw [ready.memory, if_neg (by decide), ready.device, if_neg (by decide), ready.running, if_neg Bool.false_ne_true]
    split
    next denied => exact (Option.not_isSome_iff_eq_none.mpr (Option.isNone_iff_eq_none.mp denied.2) |>
      eq_false_of_ne_true).symm
    next =>
      split
      next accepted => exact accepted.symm
      next refused => exact (eq_false_of_ne_true refused).symm

/-- The session a caller of Verify has, in the state in which it is found. -/
structure Presented (env : Env) (caller : Uid) (sender : Name) (token : Bytes) (d : State) (slot : SessionSlot)
    (reached : State) : Prop where
  found : findSession env.time token d = (some slot, reached)
  own : caller = 0 ∨ (reached.sessions slot).uid = caller
  bound : (reached.sessions slot).belongsTo sender = true

theorem verify_succeeds {caller : Uid} {sender : Name} {token : Bytes} {slot : SessionSlot} {reached : State}
    (ready : Ready env d caller)
    (presented : Presented env caller sender token d slot reached) :
    (verify env caller sender token d).1.reply.succeeds =
      (Attempt.trial { key := caller, who := (reached.sessions slot).uid, locks := env.locks } env d
        fun number => (issueToken env (reached.sessions slot) number).isSome).accepted.isSome := by
  obtain ⟨sessions, sessionCount, rfl⟩ := findSession_only presented.found
  unfold verify
  rw [presented.found]
  dsimp only
  have own := presented.own
  have bound := presented.bound
  dsimp only at own bound
  rw [if_neg fun refused => refused.2 (own.resolve_left refused.1), bound, if_neg (by decide), ready.checked]
  dsimp only
  rw [ready.device, if_neg (by decide), ready.memory, if_neg fun refused => absurd refused.2 (by decide),
    ready.running, if_neg Bool.false_ne_true]
  split
  next denied => exact (Option.not_isSome_iff_eq_none.mpr (Option.isNone_iff_eq_none.mp denied.1) |> eq_false_of_ne_true).symm
  next =>
    split
    next accepted => exact accepted.symm
    next refused => exact (eq_false_of_ne_true refused).symm

end

/-- The three ways to be verified accept a finger that matches one of the user's templates where
a matching template finds the device unlocked in its turn. It does with fewer than five misses
in front of it, and in a loop that is quick only then. -/
theorem matching_finger_accepted_iff (accounts : Accounts) (sensor : Sensor) (env : Env) (d : State) :
    (∀ (caller : Uid) (sender : Name) (token : Bytes) (slot : SessionSlot) (reached : State), Ready env d caller →
      Presented env caller sender token d slot reached →
      (∀ number, (issueToken env (reached.sessions slot) number).isSome = true) →
      ∀ attempt : Attempt, attempt = { key := caller, who := (reached.sessions slot).uid, locks := env.locks } →
        ((verify (sensed sensor env d attempt) caller sender token d).1.reply.succeeds = true ↔
          Opened sensor (attempt.shown env d))) ∧
    (∀ (caller uid : Uid) (trustedPortal : Bool) (username : Name), Ready env d uid → username ≠ [] →
      accounts.uidOf username = some uid →
      (caller = 0 ∨ (trustedPortal = true ∧ caller = uid)) →
        ∀ attempt : Attempt, attempt = { key := uid, who := uid, locks := env.locks } →
        ((verifyUser accounts (sensed sensor env d attempt) caller trustedPortal username d).1.reply.succeeds = true ↔
          Opened sensor (attempt.shown env d))) ∧
    (∀ (uid : Uid) (user : Name), Ready env d uid → accounts.uidOf user = some uid →
      ∀ attempt : Attempt, attempt = { key := uid, who := uid, locks := fun _ => true } →
        ((daemonVerifyUser accounts (sensed sensor env d attempt) user d).1.reply.succeeds = true ↔
          Opened sensor (attempt.shown env d))) ∧
    ∀ attempt : Attempt, (NearFront sensor (attempt.shown env d) → Opened sensor (attempt.shown env d)) ∧
      (Prompt sensor → Opened sensor (attempt.shown env d) → NearFront sensor (attempt.shown env d)) := by
  have kept : ∀ {key : Uid} {attempt : Attempt}, Ready env d key → Ready (sensed sensor env d attempt) d key :=
    fun ready => ⟨ready.free, ready.device, ready.memory, ready.running⟩
  refine ⟨?_, ?_, ?_, fun attempt => ⟨NearFront.opened, Opened.nearFront⟩⟩
  · rintro caller sender token slot reached ready presented tokens attempt rfl
    rw [verify_succeeds (kept ready) ⟨presented.found, presented.own, presented.bound⟩]
    exact trial_opened tokens
  · rintro caller uid trustedPortal username ready named known allowed attempt rfl
    rw [verifyUser_succeeds (kept ready) named known allowed]
    exact trial_opened fun _ => rfl
  · rintro uid user ready known attempt rfl
    rw [daemonVerifyUser_succeeds (kept ready) known]
    exact trial_opened fun _ => rfl

def sixFingers : State := plainState [plainTemplate 1 1 1, plainTemplate 1 2 2, plainTemplate 1 3 3,
    plainTemplate 1 4 4, plainTemplate 1 5 5, plainTemplate 1 6 6]

def sixthFinger : Sensor where
  scan data := if data = [6] then .matched else .noMatch
  checkedAt _ := 100
  notedAt _ := 100

def sixthAttempt : Attempt := { key := 1, who := 1, locks := (calmEnv 0 []).locks }

/-- Two templates in front of the one that matches lock nothing. -/
theorem matching_finger_accepted_third : (verifyUser plainAccounts
    (sensed { sixthFinger with scan := fun data => if data = [3] then .matched else .noMatch }
    (calmEnv 0 []) sixFingers sixthAttempt)
    0 false [2] sixFingers).1.reply.succeeds = true := by
  obtain ⟨-, accepts, -, opens⟩ := matching_finger_accepted_iff plainAccounts
    { sixthFinger with scan := fun data => if data = [3] then .matched else .noMatch } (calmEnv 0 []) sixFingers
  refine (accepts 0 1 false [2] ⟨rfl, rfl, rfl, rfl⟩ (by decide) rfl (.inl rfl) sixthAttempt rfl).mpr
    ((opens sixthAttempt).1 ?_)
  exact ⟨2, [3], rfl, rfl, by decide⟩

theorem sixthFinger_prompt : Prompt sixthFinger :=
    ⟨fun _ _ _ => show 100 < 100 + 30 by decide, fun _ _ _ => show 100 ≤ 100 + 60 by decide⟩

theorem sixthFinger_far : ¬ NearFront sixthFinger (sixthAttempt.shown (calmEnv 0 []) sixFingers) := by
  intro front
  obtain ⟨number, data, turn, matched, few⟩ := front
  obtain ⟨template, there, _⟩ := Option.bind_eq_some_iff.mp turn
  have inside : number < 6 := (List.getElem?_eq_some_iff.mp there).1
  have table : ∀ number < 6, ((sixthAttempt.shown (calmEnv 0 []) sixFingers number).all fun data =>
      sixthFinger.scan data ≠ .matched ∨ 5 ≤ sixthFinger.misses (sixthAttempt.shown (calmEnv 0 []) sixFingers)
        number) = true := by decide
  have far := table number inside
  rw [turn] at far
  obtain other | many := of_decide_eq_true far
  · exact other matched
  · omega

/-- The five templates in front of the one that matches lock the device. -/
theorem sixth_finger_refused : ¬ ∀ (accounts : Accounts) (sensor : Sensor) (env : Env) (d : State) (uid : Uid)
    (username : Name),
    (d.enrollmentsOf uid).length ≤ d.config.maxEnrollmentsPerUser → Ready env d uid → username ≠ [] →
    accounts.uidOf username = some uid →
    ∀ attempt : Attempt, attempt = { key := uid, who := uid, locks := env.locks } →
      (∃ number data, attempt.shown env d number = some data ∧ sensor.scan data = .matched) →
        (verifyUser accounts (sensed sensor env d attempt) 0 false username d).1.reply.succeeds = true := by
  intro always
  have ready : Ready (calmEnv 0 []) sixFingers 1 := ⟨rfl, rfl, rfl, rfl⟩
  have accepted := always plainAccounts sixthFinger (calmEnv 0 []) sixFingers 1 [2]
    (by decide) ready (by decide) rfl sixthAttempt rfl
    ⟨5, [6], rfl, rfl⟩
  have kept : Ready (sensed sixthFinger (calmEnv 0 []) sixFingers sixthAttempt) sixFingers 1 := ⟨rfl, rfl, rfl, rfl⟩
  rw [verifyUser_succeeds kept (by decide) rfl (Or.inl rfl)] at accepted
  exact sixthFinger_far (((trial_opened fun _ => rfl).mp accepted).nearFront sixthFinger_prompt)

end Hiya.Daemon
