import Hiya.Proofs.DeviceOperations

/-! The state of the fprintd device against the tasks in flight, and what becomes of an
enrolment that is stopped. The worker looks at its cancellable once, before it enrols: a
stop that comes later stops nothing. -/

namespace Hiya.Fprintd
open Library
open Daemon (Name Uid Accounts Env)

def Claims (event : Step) : Prop := event.input.role = .claims ∧ Granted event

def InFlight (past : List Step) (s : State) (id : Nat) : Prop :=
  ∃ task, s.tasks.entries id = some task ∧ task.cancelled = false ∧ Since (Starts task.isEnroll id) Releases past

/-- The device is busy with exactly one task, and holds its cancellable. -/
def Consistent (past : List Step) (s : State) : Prop :=
  (s.device.state.busy = true ↔ ∃! id, InFlight past s id) ∧ ∀ id, InFlight past s id → s.device.cancellable = some id

def EndsEnrollment (event : Step) : Prop := Stops true event ∨ (event.input.role = .releases ∧ Granted event)

def Stopped (id : Nat) (past : List Step) : Prop :=
  Once (fun front event => Since (Starts true id) Claims front ∧ EndsEnrollment event) past

/-- Nothing is stored for an enrolment that was stopped before its worker came back. -/
def Unstored (past : List Step) (event : Step) : Prop :=
  ∀ id env, event.input = .workerReturns id env → event.after.daemon.enrollments ≠ event.before.daemon.enrollments →
    ¬ Stopped id past

/-- The worker of the enrolment the device is about is past its look at the cancellable. -/
def State.enrollmentRuns (s : State) : Bool :=
  s.device.state = .enrolling ∧ (s.device.cancellable.bind s.tasks.entries).any fun task => task.phase = .running

def State.stopsLate (s : State) : Input → Bool
  | .enrollStop sender => sender.owns s.device && s.enrollmentRuns
  | .release sender => sender.owns s.device && s.enrollmentRuns
  | _ => false

def inTime (event : Step) : Bool := !event.before.stopsLate event.input

theorem Synced.consistent {accounts : Accounts} {past : List Step} {s : State} (synced : Synced accounts past s) :
    Consistent past s := by
  have held : ∀ id, InFlight past s id → s.device.cancellable = some id := by
    intro id flight
    obtain ⟨task, found, runs, -⟩ := flight
    exact (synced.current id task found runs).held
  refine ⟨⟨?_, ?_⟩, held⟩
  · intro busy
    obtain ⟨id, task, found, runs⟩ := synced.busy busy
    have current := synced.current id task found runs
    refine ⟨id, ⟨task, found, runs, current.unended.mono fun _ => .inl⟩, ?_⟩
    intro other flight
    have same := held other flight
    rw [current.held] at same
    exact (Option.some.inj same).symm
  · intro one
    obtain ⟨id, ⟨task, found, runs, -⟩, -⟩ := one
    rw [(synced.current id task found runs).state]
    exact operation_busy _

structure Unstopped (past : List Step) (s : State) : Prop where
  begun : ∀ event ∈ past, ∀ isEnroll id, Starts isEnroll id event → id < s.tasks.next
  unclaimed : s.device.state = .idle → s.device.claimedSender.bytes = []
  goes : ∀ id task, s.tasks.entries id = some task → task.isEnroll = true → task.phase = .running ∨ task.cancelled = false →
    ¬ Stopped id past
  kept : ∀ id task, s.tasks.entries id = some task → task.isEnroll = true → task.phase = .running →
    Since (Starts true id) Claims past → s.device.state ≠ .idle → task.cancelled = false

theorem Stopped.mem {id : Nat} {past : List Step} (stopped : Stopped id past) : ∃ event ∈ past, Starts true id event := by
  obtain ⟨front, stop, back, rfl, since, -⟩ := stopped
  obtain ⟨event, inside, starts⟩ := since.mem
  exact ⟨event, List.mem_append_left _ inside, starts⟩

theorem Unstopped.init (daemon : Daemon.State) : Unstopped [] (.init daemon) where
  begun _ inside := nomatch inside
  unclaimed _ := rfl
  goes _ _ found := nomatch found
  kept _ _ found := nomatch found

section
variable {mac : Buf 32 → Bytes → Buf 32} {accounts : Accounts} {past : List Step} {event : Step}

/-- Only the calls that start a task give a number away. -/
theorem starts_lt (moves : Moves mac accounts event.before event.input event.outcome event.after) {isEnroll : Bool} {id : Nat}
    (starts : Starts isEnroll id event) : id < event.after.tasks.next := by
  obtain ⟨before, input, outcome, after⟩ := event
  obtain ⟨start, granted, rfl⟩ := starts
  dsimp only at start moves ⊢
  cases moves with
  | refused reply refusal => exact absurd (Option.some.inj granted) refusal
  | claimed call free state held =>
    rw [call] at start
    cases start
  | started call claimed silent => exact Nat.lt_succ_self _
  | stopped call caller owns runs =>
    rw [call] at start
    cases start
  | unneeded call caller owns rests =>
    rw [call] at start
    cases start
  | rested => cases granted
  | _ => cases start

/-- A task that is there already is not started again. -/
theorem since_old {id : Nat} {old : Task} (found : event.before.tasks.entries id = some old)
    (since : Since (Starts true id) Claims (past ++ [event])) : Since (Starts true id) Claims past ∧ ¬ Claims event := by
  obtain ⟨-, -, same⟩ | since := since_snoc.mp since
  · have lower := Table.lt_of_mem found
    rw [same] at lower
    exact absurd lower (Nat.lt_irrefl id)
  · exact since

theorem enrollmentRuns_of {s : State} {id : Nat} {task : Task} (state : s.device.state = .enrolling)
    (held : s.device.cancellable = some id) (found : s.tasks.entries id = some task) (running : task.phase = .running) :
    s.enrollmentRuns = true := by
  unfold State.enrollmentRuns
  simp [state, held, found, running]

theorem stopsLate_of {s : State} {input : Input} {sender : Sender} (call : input.role = .stops true ∨ input.role = .releases)
    (caller : input.stopper = some sender) (owns : sender.owns s.device = true) (runs : s.enrollmentRuns = true) :
    s.stopsLate input = true := by
  cases input with
  | release other =>
    cases caller
    simp [State.stopsLate, owns, runs]
  | enrollStop other =>
    cases caller
    simp [State.stopsLate, owns, runs]
  | _ => obtain call | call := call <;> cases call

namespace Unstopped

/-- When what the device holds is cancelled, and an enrolment of the claim in force runs,
it is cancelled too late. -/
theorem cancelled_late {s : State} (unstopped : Unstopped past s) (synced : Synced accounts past s) {input : Input}
    {sender : Sender}
    (call : (∃ isEnroll, input.role = .stops isEnroll ∧ s.device.state = operation isEnroll) ∨ input.role = .releases)
    (caller : input.stopper = some sender) (owns : sender.owns s.device = true) (taken : s.device.state ≠ .idle)
    {id : Nat} {task : Task}
    (found : s.cancel.tasks.entries id = some task) (enrolls : task.isEnroll = true) (running : task.phase = .running)
    (since : Since (Starts true id) Claims past) : s.stopsLate input = true := by
  obtain ⟨old, present, kind, -, phase, -⟩ := cancelled_from found
  rw [enrolls] at kind
  rw [running] at phase
  have runs := unstopped.kept id old present kind.symm phase.symm since taken
  have current := synced.current id old present runs
  have state : s.device.state = .enrolling := by
    rw [current.state, ← kind]
    rfl
  refine stopsLate_of ?_ caller owns (enrollmentRuns_of state current.held present phase.symm)
  obtain ⟨isEnroll, stops, same⟩ | releases := call
  · rw [current.state, ← kind] at same
    rw [stops, ← operation_inj same]
    exact .inl rfl
  · exact .inr releases

theorem begun_snoc (unstopped : Unstopped past event.before)
    (moves : Moves mac accounts event.before event.input event.outcome event.after) :
    ∀ earlier ∈ past ++ [event], ∀ isEnroll id, Starts isEnroll id earlier → id < event.after.tasks.next := by
  intro earlier inside isEnroll id starts
  obtain inside | inside := List.mem_append.mp inside
  · exact Nat.lt_of_lt_of_le (unstopped.begun earlier inside isEnroll id starts) moves.next_le
  · rw [List.mem_singleton.mp inside] at starts
    exact starts_lt moves starts

theorem unclaimed_snoc (unstopped : Unstopped past event.before)
    (moves : Moves mac accounts event.before event.input event.outcome event.after)
    (idle : event.after.device.state = .idle) :
    event.after.device.claimedSender.bytes = [] := by
  obtain ⟨before, input, outcome, after⟩ := event
  dsimp only at unstopped moves idle ⊢
  cases moves with
  | claimed call free state held =>
    rw [state] at idle
    cases idle
  | released taken owns => rfl
  | vanished taken => rfl
  | @started _ isEnroll _ _ _ call claimed silent => cases isEnroll <;> cases idle
  | stopped call caller owns runs => cases idle
  | settled found ended sent =>
    dsimp only [Device.settled] at idle
    split at idle
    · cases idle
    · exact unstopped.unclaimed idle
  | _ => exact unstopped.unclaimed idle

/-- No stop that returns is one of an enrolment that goes on. -/
theorem not_ended (unstopped : Unstopped past event.before) (synced : Synced accounts past event.before)
    (moves : Moves mac accounts event.before event.input event.outcome event.after) (early : inTime event = true)
    {id : Nat} {task : Task} (found : event.after.tasks.entries id = some task) (enrolls : task.isEnroll = true)
    (goes : task.phase = .running ∨ task.cancelled = false) (since : Since (Starts true id) Claims past) :
    ¬ EndsEnrollment event := by
  intro ends
  obtain ⟨before, input, outcome, after⟩ := event
  have granted : Granted ⟨before, input, outcome, after⟩ := by
    obtain ends | ends := ends
    · exact ends.2
    · exact ends.2
  have call : input.role = .stops true ∨ input.role = .releases := ends.imp And.left And.left
  dsimp only at unstopped synced moves found
  cases moves with
  | refused reply refusal => exact refusal (Option.some.inj granted)
  | claimed claims free state held =>
    rw [claims] at call
    obtain call | call := call <;> cases call
  | @released sender taken owns =>
    have running := goes.resolve_right (by rw [synced.cancelled_of_cancel found]; exact nofun)
    have late : before.stopsLate (.release sender) = true :=
      unstopped.cancelled_late synced (.inr rfl) rfl owns taken found enrolls running since
    simp [inTime, late] at early
  | vanished taken => cases granted
  | started starts claimed silent =>
    rw [starts] at call
    obtain call | call := call <;> cases call
  | @stopped _ isEnroll _ stops caller owns runs =>
    have running := goes.resolve_right (by rw [synced.cancelled_of_cancel found]; exact nofun)
    have taken : before.device.state ≠ .idle := by
      rw [runs]
      exact operation_ne_idle isEnroll
    have late := unstopped.cancelled_late synced (.inl ⟨isEnroll, stops, runs⟩) caller owns taken found enrolls running since
    simp [inTime, late] at early
  | @unneeded _ isEnroll sender stops caller owns rests =>
    have taken : before.device.state ≠ .idle := by
      intro idle
      rw [Sender.owns, unstopped.unclaimed idle, decide_eq_true_eq] at owns
      exact sender.nonempty owns
    have runs : task.cancelled = false := by
      obtain running | runs := goes
      · exact unstopped.kept id task found enrolls running since taken
      · exact runs
    have state := (synced.current id task found runs).state
    rw [enrolls] at state
    rw [stops] at call
    obtain call | call := call
    · cases call
      exact rests state
    · cases call
  | begun present pending => cases granted
  | worked present running => cases granted
  | settled present ended sent => obtain call | call := call <;> cases call
  | served daemon => cases granted
  | rested => cases granted

theorem goes_snoc (unstopped : Unstopped past event.before) (synced : Synced accounts past event.before)
    (moves : Moves mac accounts event.before event.input event.outcome event.after) (early : inTime event = true)
    {id : Nat} {task : Task} (found : event.after.tasks.entries id = some task) (enrolls : task.isEnroll = true)
    (goes : task.phase = .running ∨ task.cancelled = false) : ¬ Stopped id (past ++ [event]) := by
  intro stopped
  obtain stopped | ⟨since, ends⟩ := once_snoc.mp stopped
  · obtain ⟨new, -⟩ | ⟨old, present, kind, running, uncancelled⟩ := moves.goes_before found
    · obtain ⟨earlier, inside, starts⟩ := Stopped.mem stopped
      exact absurd (unstopped.begun earlier inside true id starts) (Nat.not_lt.mpr (Nat.le_of_eq new.symm))
    · refine unstopped.goes id old present (kind ▸ enrolls) ?_ stopped
      obtain phase | runs := goes
      · exact running phase
      · exact .inr (uncancelled runs)
  · exact unstopped.not_ended synced moves early found enrolls goes since ends

theorem kept_snoc (unstopped : Unstopped past event.before) (synced : Synced accounts past event.before)
    (moves : Moves mac accounts event.before event.input event.outcome event.after) (early : inTime event = true)
    {id : Nat} {task : Task} (found : event.after.tasks.entries id = some task) (enrolls : task.isEnroll = true)
    (running : task.phase = .running) (still : Since (Starts true id) Claims (past ++ [event]))
    (taken : event.after.device.state ≠ .idle) : task.cancelled = false := by
  obtain ⟨new, pending⟩ | ⟨old, present, kind, -, -⟩ := moves.goes_before found
  · rw [running] at pending
    cases pending
  obtain ⟨since, same⟩ := since_old present still
  obtain ⟨before, input, outcome, after⟩ := event
  dsimp only at unstopped synced moves found present taken
  cases moves with
  | claimed call free state held => exact absurd ⟨call, rfl⟩ same
  | released taken' owns => exact absurd rfl taken
  | vanished taken' => exact absurd rfl taken
  | started call claimed silent =>
    obtain ⟨-, rfl⟩ | found := Table.mem_add.mp found
    · cases running
    · refine unstopped.kept id task found enrolls running since ?_
      rw [claimed]
      exact nofun
  | @stopped _ isEnroll _ stops caller owns runs =>
    have taken : before.device.state ≠ .idle := by
      rw [runs]
      exact operation_ne_idle isEnroll
    have late := unstopped.cancelled_late synced (.inl ⟨isEnroll, stops, runs⟩) caller owns taken found enrolls running since
    simp [inTime, late] at early
  | begun there pending =>
    obtain ⟨first, there, kind, -, cancelled, phase | ⟨-, phase⟩⟩ := changed_phase found
    · rw [cancelled]
      exact unstopped.kept id first there (kind ▸ enrolls) (phase ▸ running) since taken
    · rw [running] at phase
      split at phase
      · cases phase
      next runs =>
        rw [cancelled]
        simpa using runs
  | worked there works =>
    obtain ⟨first, there, kind, -, cancelled, phase | ⟨-, phase⟩⟩ := changed_phase found
    · rw [cancelled]
      exact unstopped.kept id first there (kind ▸ enrolls) (phase ▸ running) since taken
    · rw [running] at phase
      cases phase
  | settled there ended sent =>
    refine unstopped.kept id task (Table.mem_erase.mp found).2 enrolls running since ?_
    intro idle
    refine taken ?_
    simp [Device.settled, idle, DeviceState.busy]
  | _ => exact unstopped.kept id task found enrolls running since taken

theorem snoc (unstopped : Unstopped past event.before) (synced : Synced accounts past event.before)
    (moves : Moves mac accounts event.before event.input event.outcome event.after) (early : inTime event = true) :
    Unstopped (past ++ [event]) event.after where
  begun := unstopped.begun_snoc moves
  unclaimed idle := unstopped.unclaimed_snoc moves idle
  goes _ _ found enrolls goes := unstopped.goes_snoc synced moves early found enrolls goes
  kept _ _ found enrolls running since taken := unstopped.kept_snoc synced moves early found enrolls running since taken

/-- Only a worker that runs stores anything, and only for an enrolment. -/
theorem unstored (unstopped : Unstopped past event.before)
    (moves : Moves mac accounts event.before event.input event.outcome event.after) : Unstored past event := by
  intro id env call stored
  obtain ⟨before, input, outcome, after⟩ := event
  dsimp only at unstopped moves call stored
  subst call
  cases moves with
  | @worked _ _ task found running =>
    cases kind : task.isEnroll with
    | true => exact unstopped.goes id task found kind (.inl running)
    | false =>
      have works : (work mac accounts env task before.daemon).2 =
          (Daemon.daemonVerifyUser accounts env task.username.bytes before.daemon).2 := by
        unfold work
        rw [kind]
        rfl
      obtain ⟨limiters, same⟩ : ∃ limiters, (Daemon.daemonVerifyUser accounts env task.username.bytes before.daemon).2 =
          { before.daemon with limiters } := Daemon.daemonVerifyUser_only task.username.bytes
      dsimp only at stored
      rw [works, same] at stored
      exact absurd rfl stored
  | stopped call caller owns runs => cases call
  | _ => exact absurd rfl stored

end Unstopped

end

/-- The device is busy exactly with the one task it holds, and no enrolment is stored that
was stopped before, in any run in which no callback of a cancelled task comes while a newer
one runs and no enrolment is stopped while its worker runs. -/
theorem device_follows_tasks (mac : Buf 32 → Bytes → Buf 32) (accounts names : Accounts) (daemon : Daemon.State)
    (inputs : List Input)
    (prompt : Throughout ((fprintd mac accounts names).run (.init daemon) inputs) fun _ event =>
      onTime event = true ∧ inTime event = true) :
    Consistent [] (.init daemon) ∧ Throughout ((fprintd mac accounts names).run (.init daemon) inputs) fun past event =>
      Consistent (past ++ [event]) event.after ∧ Unstored past event := by
  have synced : Synced accounts [] (.init daemon) := .init daemon
  refine ⟨synced.consistent, ?_⟩
  refine Machine.run_throughout (fun past s => Synced accounts past s ∧ Unstopped past s) ?_ ?_ ⟨synced, .init daemon⟩ prompt
  · intro past state input invariant prompt
    exact ⟨invariant.1.snoc (step_moves names input) prompt.1, invariant.2.snoc invariant.1 (step_moves names input) prompt.2⟩
  · intro past state input invariant prompt
    have after := invariant.1.snoc (step_moves names input) prompt.1
    exact ⟨after.consistent, invariant.2.unstored (step_moves names input)⟩

/-- An enrolment that is stopped before its worker begins, and another one to its end. -/
def patientInputs : List Input :=
  [.claim firstSender (some 1) [], .enrollStart firstSender [], .enrollStop firstSender, .workerBegins 0, .asyncReady 0,
    .enrollStart firstSender [], .workerBegins 1, .workerReturns 1 sensorEnv, .asyncReady 1, .release firstSender]

theorem device_follows_tasks_patiently :
    ((deviceRun patientInputs).map fun event => event.after.daemon.enrollments.length) = [1, 1, 1, 1, 1, 1, 1, 2, 2, 2] ∧
      Throughout (deviceRun patientInputs) fun past event => Consistent (past ++ [event]) event.after ∧
      Unstored past event := by
  refine ⟨by decide +kernel, ?_⟩
  have prompt : (deviceRun patientInputs).all (fun event => onTime event && inTime event) = true := by decide +kernel
  have allowed : ∀ event ∈ deviceRun patientInputs, onTime event = true ∧ inTime event = true := by
    intro event inside
    simpa using List.all_eq_true.mp prompt event inside
  exact (device_follows_tasks Daemon.plainMac Daemon.plainAccounts Daemon.plainAccounts _ patientInputs
    (.of_forall allowed)).2

/-- A verification is stopped before its worker begins, and another one started at once. -/
def hastyInputs : List Input :=
  [.claim firstSender (some 1) [], .verifyStart firstSender [], .verifyStop firstSender, .verifyStart firstSender [],
    .workerBegins 0, .asyncReady 0]

/-- The callback of the first verification takes the device from the second, which goes on. -/
theorem hasty_device_forgets :
    ¬ ∀ (mac : Buf 32 → Bytes → Buf 32) (accounts names : Accounts) (daemon : Daemon.State) (inputs : List Input),
      Consistent [] (.init daemon) ∧ Throughout ((fprintd mac accounts names).run (.init daemon) inputs) fun past event =>
        Consistent (past ++ [event]) event.after ∧ Unstored past event := by
  intro all
  have consistent : Throughout (deviceRun hastyInputs) fun past event => Consistent (past ++ [event]) event.after ∧
    Unstored past event :=
    (all _ _ _ _ _).2
  obtain ⟨start, first⟩ : ∃ event, ((deviceRun hastyInputs).take 5)[3]? = some event :=
    Option.isSome_iff_exists.mp (by decide +kernel)
  obtain ⟨event, last⟩ : ∃ event, (deviceRun hastyInputs)[5]? = some event := Option.isSome_iff_exists.mp (by decide +kernel)
  have started : ((deviceRun hastyInputs).take 5)[3]?.map (fun event => (event.input.role, event.outcome.reply,
    event.before.tasks.next)) =
      some (.starts false, some .returned, 1) := by decide +kernel
  have claimed : (((deviceRun hastyInputs).take 5).drop 4).all fun event =>
      event.input.role = .other ∧ event.after.device.state ≠ .idle := by decide +kernel
  have forgotten : (deviceRun hastyInputs)[5]?.map (fun event => (event.input.role, event.after.device.state,
      event.after.device.cancellable, (event.after.tasks.entries 1).map fun task => (task.cancelled, task.isEnroll))) =
      some (.other, .claimed, none, some (false, false)) := by decide +kernel
  rw [first] at started
  rw [last] at forgotten
  simp only [Option.map_some, Option.some.injEq, Prod.mk.injEq] at started forgotten
  obtain ⟨other, state, held, present⟩ := forgotten
  obtain ⟨task, found, same⟩ := Option.map_eq_some_iff.mp present
  have released : ∀ event : Step, event.input.role = .other → event.after.device.state ≠ .idle → ¬ Releases event := by
    intro event other taken releases
    obtain ⟨call, -⟩ | ⟨-, idle⟩ := releases
    · rw [other] at call
      cases call
    · exact taken idle
  have since : Since (Starts false 1) Releases ((deviceRun hastyInputs).take 5) := by
    refine .of_at first ⟨started.1, started.2.1, started.2.2⟩ ?_
    intro later inside
    have facts := List.all_eq_true.mp claimed later inside
    rw [decide_eq_true_eq] at facts
    exact released later facts.1 facts.2
  have taken : event.after.device.state ≠ .idle := by
    rw [state]
    exact nofun
  obtain ⟨uncancelled, verifies⟩ := Prod.mk.inj same
  have flight : InFlight ((deviceRun hastyInputs).take 5 ++ [event]) event.after 1 := by
    refine ⟨task, found, uncancelled, ?_⟩
    rw [verifies]
    exact since_snoc.mpr (.inr ⟨since, released event other taken⟩)
  have holds := (consistent.at last).1.2 1 flight
  rw [held] at holds
  cases holds

end Hiya.Fprintd
