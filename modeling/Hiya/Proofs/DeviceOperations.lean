import Hiya.Proofs.DeviceSteps
import Hiya.Proofs.PamIdentity

/-! Which operation a status signal of the fprintd device belongs to. The record of the
device is about the newest task, and every older one is cancelled, as long as no callback
of a cancelled task comes while a newer one runs. -/

namespace Hiya.Fprintd
open Library
open Daemon (Name Uid Accounts Env)

abbrev Step := Event State Input Outcome

def Granted (event : Step) : Prop := event.outcome.reply = some .returned

def Starts (isEnroll : Bool) (id : Nat) (event : Step) : Prop :=
  event.input.role = .starts isEnroll ∧ Granted event ∧ event.before.tasks.next = id

def Releases (event : Step) : Prop :=
  (event.input.role = .releases ∧ Granted event) ∨ (event.before.device.state ≠ .idle ∧ event.after.device.state = .idle)

def Stops (isEnroll : Bool) (event : Step) : Prop := event.input.role = .stops isEnroll ∧ Granted event

def Ends (isEnroll : Bool) (event : Step) : Prop := Releases event ∨ Stops isEnroll event

def Recognised (accounts : Accounts) (id : Nat) (user : Name) (past : List Step) : Prop :=
  ∃ uid, accounts.uidOf user = some uid ∧ ∃ event ∈ past, (∃ env, event.input = .workerReturns id env) ∧
    (∃ made ∈ event.outcome.comparisons, made.matched = true) ∧ ∀ made ∈ event.outcome.comparisons, made.template.uid = uid

/-- Every status that is sent comes from an operation of the claim in force that has not
been stopped, and a match is one of the user who has claimed the device. -/
def Rightful (accounts : Accounts) (past : List Step) (event : Step) : Prop :=
  ∀ status : Status, status.signal ∈ event.outcome.signals →
    ∃ id, event.input = .asyncReady id ∧ Since (Starts status.isEnroll id) (Ends status.isEnroll) past ∧
      event.before.device.state ≠ .idle ∧
      (status = .verifyMatch → Recognised accounts id event.before.device.claimedBy.bytes past)

def State.overdue (id : Nat) (s : State) : Bool :=
  (s.tasks.entries id).any fun task => task.cancelled && task.phase != .pending && task.phase != .running

/-- No callback of a cancelled task comes while another one runs. -/
def onTime (event : Step) : Bool :=
  match event.input with
  | .asyncReady id => !(event.before.overdue id && event.before.device.state.busy)
  | _ => true

structure Current (past : List Step) (s : State) (id : Nat) (task : Task) : Prop where
  state : s.device.state = operation task.isEnroll
  held : s.device.cancellable = some id
  user : task.username = s.device.claimedBy
  unended : Since (Starts task.isEnroll id) (Ends task.isEnroll) past

structure Synced (accounts : Accounts) (past : List Step) (s : State) : Prop where
  current : ∀ id task, s.tasks.entries id = some task → task.cancelled = false → Current past s id task
  busy : s.device.state.busy = true → ∃ id task, s.tasks.entries id = some task ∧ task.cancelled = false
  recognised : ∀ id task, s.tasks.entries id = some task → task.isEnroll = false → task.phase = .returned true →
    Recognised accounts id task.username.bytes past

theorem Recognised.snoc {accounts : Accounts} {id : Nat} {user : Name} {past : List Step} (event : Step)
    (recognised : Recognised accounts id user past) : Recognised accounts id user (past ++ [event]) := by
  obtain ⟨uid, known, earlier, inside, works⟩ := recognised
  exact ⟨uid, known, earlier, List.mem_append_left _ inside, works⟩

namespace Current
variable {past : List Step} {event : Step} {id : Nat} {task : Task}

/-- A step that leaves the record as it is, and does not end the operation. -/
theorem snoc {old : Task} (current : Current past event.before id old) (kind : task.isEnroll = old.isEnroll)
    (user : task.username = old.username) (device : event.after.device = event.before.device)
    (goes : ¬ Ends old.isEnroll event) :
    Current (past ++ [event]) event.after id task := by
  refine ⟨?_, ?_, ?_, ?_⟩
  · rw [device, kind]
    exact current.state
  · rw [device]
    exact current.held
  · rw [device, user]
    exact current.user
  · rw [kind]
    exact since_snoc.mpr (.inr ⟨current.unended, goes⟩)

end Current

/-- A call that is not granted ends nothing while the device stays as it is. -/
theorem not_ends {event : Step} {isEnroll : Bool} (device : event.after.device = event.before.device)
    (release : event.input.role = .releases → ¬ Granted event) (stop : event.input.role = .stops isEnroll → ¬ Granted event) :
    ¬ Ends isEnroll event := by
  rintro ((⟨call, granted⟩ | ⟨taken, free⟩) | ⟨call, granted⟩)
  · exact release call granted
  · rw [device] at free
    exact taken free
  · exact stop call granted

namespace Synced
variable {accounts : Accounts} {past : List Step} {s : State}

/-- No task goes on when the record is not about one. -/
theorem cancelled_of_rest (synced : Synced accounts past s) (rests : s.device.state.busy = false) {id : Nat} {task : Task}
    (found : s.tasks.entries id = some task) : task.cancelled = true := by
  by_contra runs
  have state := (synced.current id task found (by simpa using runs)).state
  rw [state, operation_busy] at rests
  cases rests

/-- Cancelling what the record holds cancels every task. -/
theorem cancelled_of_cancel (synced : Synced accounts past s) {id : Nat} {task : Task}
    (found : s.cancel.tasks.entries id = some task) : task.cancelled = true := by
  unfold State.cancel at found
  cases held : s.device.cancellable with
  | none =>
    rw [held] at found
    by_contra runs
    have same := (synced.current id task found (by simpa using runs)).held
    rw [held] at same
    cases same
  | some newest =>
    rw [held] at found
    obtain ⟨-, old, -, rfl⟩ | ⟨other, found⟩ := Table.mem_change.mp found
    · rfl
    · by_contra runs
      have same := (synced.current id task found (by simpa using runs)).held
      rw [held] at same
      exact other (Option.some.inj same).symm

variable {mac : Buf 32 → Bytes → Buf 32} {event : Step}

theorem current_snoc (synced : Synced accounts past event.before)
    (moves : Moves mac accounts event.before event.input event.outcome event.after) (prompt : onTime event = true)
    {id : Nat} {task : Task} (found : event.after.tasks.entries id = some task) (runs : task.cancelled = false) :
    Current (past ++ [event]) event.after id task := by
  obtain ⟨before, input, outcome, after⟩ := event
  dsimp only at synced moves found
  -- what cancels every task, and what finds none that goes on, leaves nothing to show
  have nothing : task.cancelled ≠ true := by
    rw [runs]
    exact nofun
  cases moves with
  | refused reply refusal =>
    have fails : ∀ event : Step, event.outcome = .replied reply → ¬ Granted event := by
      intro event same granted
      unfold Granted at granted
      rw [same] at granted
      exact refusal (Option.some.inj granted)
    exact (synced.current id task found runs).snoc rfl rfl rfl (not_ends rfl (fun _ => fails _ rfl) fun _ => fails _ rfl)
  | claimed call free state held =>
    refine absurd (synced.cancelled_of_rest ?_ found) nothing
    rw [free]
    rfl
  | released taken owns => exact absurd (synced.cancelled_of_cancel found) nothing
  | vanished taken => exact absurd (synced.cancelled_of_cancel found) nothing
  | started call claimed silent =>
    obtain ⟨rfl, rfl⟩ | old := Table.mem_add.mp found
    · exact ⟨rfl, rfl, rfl, since_snoc.mpr (.inl ⟨call, rfl, rfl⟩)⟩
    · refine absurd (synced.cancelled_of_rest ?_ old) nothing
      rw [claimed]
      rfl
  | stopped call caller owns busy => exact absurd (synced.cancelled_of_cancel found) nothing
  | unneeded call caller owns rests =>
    have current := synced.current id task found runs
    refine current.snoc rfl rfl rfl (not_ends rfl ?_ ?_)
    · intro release
      rw [call] at release
      cases release
    · intro stop
      -- the record is about the task, and it is one of the other kind
      rw [call] at stop
      cases stop
      exact absurd current.state rests
  | begun present pending =>
    obtain ⟨old, present, kind, user, same, -⟩ := changed_phase found
    rw [same] at runs
    exact (synced.current id old present runs).snoc kind user rfl (not_ends rfl nofun nofun)
  | worked present running =>
    obtain ⟨old, present, kind, user, same, -⟩ := changed_phase found
    rw [same] at runs
    exact (synced.current id old present runs).snoc kind user rfl (not_ends rfl nofun nofun)
  | @settled place old success _ present ended sent =>
    obtain ⟨other, kept⟩ := Table.mem_erase.mp found
    have current := synced.current id task kept runs
    cases stopped : old.cancelled with
    | false =>
      have same := (synced.current place old present stopped).held
      rw [current.held] at same
      exact absurd (Option.some.inj same) other
    | true =>
      have overdue : before.overdue place = true := by
        unfold State.overdue
        rw [present]
        simp [stopped, ended]
      have busy : before.device.state.busy = true := by
        rw [current.state]
        exact operation_busy _
      simp [onTime, overdue, busy] at prompt
  | served daemon => exact (synced.current id task found runs).snoc rfl rfl rfl (not_ends rfl nofun nofun)
  | rested => exact (synced.current id task found runs).snoc rfl rfl rfl (not_ends rfl (fun _ => nofun) fun _ => nofun)

theorem busy_snoc (synced : Synced accounts past event.before)
    (moves : Moves mac accounts event.before event.input event.outcome event.after)
    (busy : event.after.device.state.busy = true) :
    ∃ id task, event.after.tasks.entries id = some task ∧ task.cancelled = false := by
  obtain ⟨before, input, outcome, after⟩ := event
  dsimp only at synced moves busy ⊢
  cases moves with
  | refused reply refusal => exact synced.busy busy
  | claimed call free state held =>
    rw [state] at busy
    cases busy
  | released taken owns => cases busy
  | vanished taken => cases busy
  | started call claimed silent => exact ⟨before.tasks.next, _, Table.mem_add.mpr (.inl ⟨rfl, rfl⟩), rfl⟩
  | stopped call caller owns runs => cases busy
  | unneeded call caller owns rests => exact synced.busy busy
  | begun present pending =>
    obtain ⟨id, task, found, runs⟩ := synced.busy busy
    obtain ⟨after, found, same⟩ := changed_runs found
    exact ⟨id, after, found, same.trans runs⟩
  | worked present running =>
    obtain ⟨id, task, found, runs⟩ := synced.busy busy
    obtain ⟨after, found, same⟩ := changed_runs found
    exact ⟨id, after, found, same.trans runs⟩
  | settled present ended sent =>
    dsimp only [Device.settled] at busy
    split at busy
    · cases busy
    next rests => exact absurd busy rests
  | served daemon => exact synced.busy busy
  | rested => exact synced.busy busy

/-- A worker that returns a match has recognised the user of its task. -/
theorem work_recognises {env : Env} {task : Task} {daemon : Daemon.State} (verify : task.isEnroll = false)
    (success : (work mac accounts env task daemon).1.reply = .returned .ok) :
    ∃ uid, accounts.uidOf task.username.bytes = some uid ∧
      (∃ made ∈ (work mac accounts env task daemon).1.comparisons, made.matched = true) ∧
      ∀ made ∈ (work mac accounts env task daemon).1.comparisons, made.template.uid = uid := by
  have works : work mac accounts env task daemon = Daemon.daemonVerifyUser accounts env task.username.bytes daemon := by
    unfold work
    rw [verify]
    rfl
  rw [works] at success ⊢
  cases known : accounts.uidOf task.username.bytes with
  | none =>
    unfold Daemon.daemonVerifyUser at success
    rw [known] at success
    cases success
  | some uid =>
    have tried : Daemon.Tried env daemon { key := uid, who := uid, locks := fun _ => true } _ _ _ :=
      Daemon.daemonVerifyUser_tried known
    obtain ⟨hit, own⟩ := tried.hits (by rw [success]; rfl)
    refine ⟨uid, rfl, hit, ?_⟩
    intro made inside
    have stored := own made inside
    simp only [Daemon.State.enrollmentsOf, List.mem_filter, decide_eq_true_eq] at stored
    exact stored.2

theorem recognised_snoc (synced : Synced accounts past event.before)
    (moves : Moves mac accounts event.before event.input event.outcome event.after) {id : Nat} {task : Task}
    (found : event.after.tasks.entries id = some task) (verify : task.isEnroll = false)
    (success : task.phase = .returned true) :
    Recognised accounts id task.username.bytes (past ++ [event]) := by
  obtain ⟨before, input, outcome, after⟩ := event
  dsimp only at synced moves found
  cases moves with
  | refused reply refusal => exact (synced.recognised id task found verify success).snoc _
  | claimed call free state held => exact (synced.recognised id task found verify success).snoc _
  | released taken owns =>
    obtain ⟨old, present, kind, user, phase, -⟩ := cancelled_from found
    rw [user]
    exact (synced.recognised id old present (kind ▸ verify) (phase ▸ success)).snoc _
  | vanished taken =>
    obtain ⟨old, present, kind, user, phase, -⟩ := cancelled_from found
    rw [user]
    exact (synced.recognised id old present (kind ▸ verify) (phase ▸ success)).snoc _
  | started call claimed silent =>
    obtain ⟨rfl, rfl⟩ | present := Table.mem_add.mp found
    · cases success
    · exact (synced.recognised id task present verify success).snoc _
  | stopped call caller owns runs =>
    obtain ⟨old, present, kind, user, phase, -⟩ := cancelled_from found
    rw [user]
    exact (synced.recognised id old present (kind ▸ verify) (phase ▸ success)).snoc _
  | unneeded call caller owns rests => exact (synced.recognised id task found verify success).snoc _
  | begun present pending =>
    obtain ⟨old, present, kind, user, -, phase | ⟨-, phase⟩⟩ := changed_phase found
    · rw [user]
      exact (synced.recognised id old present (kind ▸ verify) (phase ▸ success)).snoc _
    · rw [success] at phase
      split at phase <;> cases phase
  | @worked place env running present goes =>
    obtain ⟨old, kept, kind, user, -, phase | ⟨rfl, phase⟩⟩ := changed_phase found
    · rw [user]
      exact (synced.recognised id old kept (kind ▸ verify) (phase ▸ success)).snoc _
    · rw [present] at kept
      cases kept
      rw [success] at phase
      obtain ⟨uid, known, hit, own⟩ := work_recognises (kind ▸ verify) (of_decide_eq_true (Phase.returned.inj phase).symm)
      rw [user]
      exact ⟨uid, known, _, List.mem_append_right _ (List.mem_singleton_self _), ⟨env, rfl⟩, hit, own⟩
  | settled present ended sent => exact (synced.recognised id task (Table.mem_erase.mp found).2 verify success).snoc _
  | served daemon => exact (synced.recognised id task found verify success).snoc _
  | rested => exact (synced.recognised id task found verify success).snoc _

theorem snoc (synced : Synced accounts past event.before)
    (moves : Moves mac accounts event.before event.input event.outcome event.after) (prompt : onTime event = true) :
    Synced accounts (past ++ [event]) event.after where
  current _ _ found runs := synced.current_snoc moves prompt found runs
  busy busy := synced.busy_snoc moves busy
  recognised _ _ found verify success := synced.recognised_snoc moves found verify success

theorem init (daemon : Daemon.State) : Synced accounts [] (.init daemon) where
  current _ _ found := nomatch found
  busy busy := nomatch busy
  recognised _ _ found := nomatch found

theorem rightful (synced : Synced accounts past event.before)
    (moves : Moves mac accounts event.before event.input event.outcome event.after) : Rightful accounts past event := by
  obtain ⟨before, input, outcome, after⟩ := event
  intro status inside
  dsimp only at synced moves inside ⊢
  cases moves with
  | @settled place task success _ found ended sent =>
    cases stopped : task.cancelled with
    | true =>
      rw [sent, if_pos stopped] at inside
      cases inside
    | false =>
      rw [sent, stopped] at inside
      have same := Status.signal_inj (List.mem_singleton.mp inside)
      have current := synced.current place task found stopped
      have kind : status.isEnroll = task.isEnroll := by rw [same, Status.isEnroll_of]
      refine ⟨place, rfl, kind ▸ current.unended, ?_, ?_⟩
      · intro idle
        have busy := operation_busy task.isEnroll
        rw [← current.state, idle] at busy
        cases busy
      · intro hit
        rw [← current.user]
        rw [hit] at kind same
        have success : success = true := by
          rw [← kind] at same
          cases success with
          | true => rfl
          | false => cases same
        exact synced.recognised place task found kind.symm (success ▸ ended)
  | started call claimed silent => exact absurd inside (silent status)
  | _ => cases inside

end Synced

/-- No status is sent for an operation that is over, and no match for another user, in any
run in which the callback of a cancelled task never comes while a newer one runs. -/
theorem statuses_are_rightful (mac : Buf 32 → Bytes → Buf 32) (accounts names : Accounts) (daemon : Daemon.State)
    (inputs : List Input)
    (prompt : Throughout ((fprintd mac accounts names).run (.init daemon) inputs) fun _ event => onTime event = true) :
    Throughout ((fprintd mac accounts names).run (.init daemon) inputs) (Rightful accounts) := by
  refine Machine.run_throughout (Synced accounts) ?_ ?_ (Synced.init daemon) prompt
  · intro past state input synced prompt
    exact synced.snoc (step_moves names input) prompt
  · intro past state input synced prompt
    exact synced.rightful (step_moves names input)

theorem one_byte (byte : UInt8) : [byte] ≠ [] := List.cons_ne_nil byte []

def firstSender : Sender := { name := [0x31], nonempty := one_byte 0x31 }
def secondSender : Sender := { name := [0x32], nonempty := one_byte 0x32 }

def sensorEnv : Env := Daemon.calmEnv 1 [[7]]

def deviceRun (inputs : List Input) : List Step :=
  (fprintd Daemon.plainMac Daemon.plainAccounts Daemon.plainAccounts).run
    (.init (Daemon.plainState [Daemon.plainTemplate 1 1 7])) inputs

/-- One verification, to its end. -/
def calmInputs : List Input :=
  [.claim firstSender (some 1) [], .verifyStart firstSender [], .workerBegins 0, .workerReturns 0 sensorEnv, .asyncReady 0]

theorem statuses_are_rightful_once :
    ((deviceRun calmInputs).any fun event => event.outcome.signals.contains Status.verifyMatch.signal) = true ∧
      Throughout (deviceRun calmInputs) (Rightful Daemon.plainAccounts) := by
  refine ⟨by decide +kernel, ?_⟩
  have prompt : (deviceRun calmInputs).all onTime = true := by decide +kernel
  exact statuses_are_rightful Daemon.plainMac Daemon.plainAccounts Daemon.plainAccounts _ calmInputs
    (.of_forall (List.all_eq_true.mp prompt))

/-- A verification is stopped and another one started; the callback of the first makes the
record forget the second, which the release then does not cancel. -/
def lateInputs : List Input :=
  [.claim firstSender (some 1) [], .verifyStart firstSender [], .workerBegins 0, .verifyStop firstSender,
    .verifyStart firstSender [], .workerBegins 1, .workerReturns 0 sensorEnv, .asyncReady 0, .release firstSender,
    .claim secondSender (some 2) [], .workerReturns 1 sensorEnv, .asyncReady 1]

/-- The second user has claimed the device, and the match is one with the first user's finger. -/
theorem late_match_of_another :
    ¬ ∀ (mac : Buf 32 → Bytes → Buf 32) (accounts names : Accounts) (daemon : Daemon.State) (inputs : List Input),
      Throughout ((fprintd mac accounts names).run (.init daemon) inputs) (Rightful accounts) := by
  intro all
  have rightful : Throughout (deviceRun lateInputs) (Rightful Daemon.plainAccounts) := all _ _ _ _ _
  obtain ⟨event, there⟩ : ∃ event, (deviceRun lateInputs)[11]? = some event := Option.isSome_iff_exists.mp (by decide +kernel)
  have sent : (deviceRun lateInputs)[11]?.map (fun event => event.outcome.signals) = some [Status.verifyMatch.signal] := by
    decide +kernel
  have claimed : (deviceRun lateInputs)[11]?.map (fun event => event.before.device.claimedBy.bytes) = some [3] :=
    by decide +kernel
  have templates : ((deviceRun lateInputs).take 11).all fun event =>
      event.outcome.comparisons.all fun made => made.template.uid = 1 := by decide +kernel
  rw [there] at sent claimed
  have signals : event.outcome.signals = [Status.verifyMatch.signal] := Option.some.inj sent
  have user : event.before.device.claimedBy.bytes = [3] := Option.some.inj claimed
  have inside : Status.verifyMatch.signal ∈ event.outcome.signals := by
    rw [signals]
    exact List.mem_singleton_self _
  obtain ⟨id, -, -, -, recognised⟩ := rightful.at there Status.verifyMatch inside
  obtain ⟨uid, known, earlier, before, -, ⟨made, asked, -⟩, own⟩ := recognised rfl
  have first := List.all_eq_true.mp (List.all_eq_true.mp templates earlier before) made asked
  rw [decide_eq_true_eq, own made asked] at first
  rw [user, first] at known
  revert known
  decide

end Hiya.Fprintd
