import Hiya.Fprintd.Device

/-! Everything one step can do to the fprintd device and its tasks. -/

namespace Hiya.Fprintd
open Library
open Daemon (Name Uid Accounts Env)

/-- What a call does to a claim or an operation. -/
inductive Role
  | claims
  | releases
  | starts (isEnroll : Bool)
  | stops (isEnroll : Bool)
  | other
  deriving DecidableEq

def Input.role : Input → Role
  | .claim .. => .claims
  | .release .. => .releases
  | .verifyStart .. => .starts false
  | .verifyStop .. => .stops false
  | .enrollStart .. => .starts true
  | .enrollStop .. => .stops true
  | .nameOwnerChanged .. => .other
  | .workerBegins .. => .other
  | .workerReturns .. => .other
  | .asyncReady .. => .other
  | .daemonCall .. => .other

def Input.stopper : Input → Option Sender
  | .release sender => some sender
  | .verifyStop sender => some sender
  | .enrollStop sender => some sender
  | _ => none

theorem Status.signal_inj {first second : Status} (same : first.signal = second.signal) : first = second := by
  have text : first.text = second.text := by
    unfold Status.signal at same
    exact (Signal.status.inj same).2.1
  cases first <;> cases second <;> first | rfl | (simp [Status.text] at text)

theorem Status.isEnroll_of (isEnroll success : Bool) : (Status.of isEnroll success).isEnroll = isEnroll := by
  cases isEnroll <;> cases success <;> rfl

theorem operation_busy (isEnroll : Bool) : (operation isEnroll).busy = true := by cases isEnroll <;> rfl

theorem operation_ne_idle (isEnroll : Bool) : operation isEnroll ≠ .idle := by cases isEnroll <;> exact nofun

theorem operation_inj {first second : Bool} (same : operation first = operation second) : first = second := by
  cases first <;> cases second <;> first | rfl | cases same

section
variable (mac : Buf 32 → Bytes → Buf 32) (accounts : Accounts)

/-- One constructor for each thing that can happen, with what was checked before. -/
inductive Moves (s : State) : Input → Outcome → State → Prop
  | refused {input : Input} (reply : Reply) (refusal : reply ≠ .returned) : Moves s input (.replied reply) s
  | claimed {input : Input} {device : Device} (call : input.role = .claims) (free : s.device.state = .idle)
      (state : device.state = .claimed) (held : device.cancellable = s.device.cancellable) :
      Moves s input (.replied .returned) { s with device }
  | released {sender : Sender} (taken : s.device.state ≠ .idle) (owns : sender.owns s.device = true) :
      Moves s (.release sender) (.replied .returned) (deviceRelease s)
  | vanished {name oldOwner newOwner : Name} (taken : s.device.state ≠ .idle) :
      Moves s (.nameOwnerChanged name oldOwner newOwner) .quiet (deviceRelease s)
  | started {input : Input} {isEnroll : Bool} {finger enrollFinger : Blob 47} {signals : List Signal}
      (call : input.role = .starts isEnroll) (claimed : s.device.state = .claimed)
      (silent : ∀ status : Status, status.signal ∉ signals) :
      Moves s input { Outcome.replied .returned with signals }
        (State.launch isEnroll finger { s with device := { s.device with enrollFinger } })
  | stopped {input : Input} {isEnroll : Bool} {sender : Sender} (call : input.role = .stops isEnroll)
      (caller : input.stopper = some sender) (owns : sender.owns s.device = true)
        (runs : s.device.state = operation isEnroll) :
      Moves s input (.replied .returned) { s.cancel with device := { s.device with state := .claimed } }
  | unneeded {input : Input} {isEnroll : Bool} {sender : Sender} (call : input.role = .stops isEnroll)
      (caller : input.stopper = some sender) (owns : sender.owns s.device = true)
        (rests : s.device.state ≠ operation isEnroll) :
      Moves s input (.replied .returned) s
  | begun {id : Nat} {task : Task} (found : s.tasks.entries id = some task) (pending : task.phase = .pending) :
      Moves s (.workerBegins id) .quiet { s with tasks := s.tasks.change id fun task =>
        { task with phase := if task.cancelled then .returned false else .running } }
  | worked {id : Nat} {env : Env} {task : Task} (found : s.tasks.entries id = some task) (running : task.phase = .running) :
      Moves s (.workerReturns id env) { Outcome.quiet with comparisons := (work mac accounts env task s.daemon).1.comparisons }
        { s with
          daemon := (work mac accounts env task s.daemon).2
          tasks := s.tasks.change id fun old =>
            { old with phase := .returned ((work mac accounts env task s.daemon).1.reply = .returned .ok) } }
  | settled {id : Nat} {task : Task} {success : Bool} {outcome : Outcome} (found : s.tasks.entries id = some task)
      (ended : task.phase = .returned success)
      (sent : outcome = if task.cancelled then .quiet
        else { Outcome.quiet with signals := [(Status.of task.isEnroll success).signal] }) :
      Moves s (.asyncReady id) outcome { s with device := s.device.settled, tasks := s.tasks.erase id }
  | served {request : Daemon.Request} (daemon : Daemon.State) : Moves s (.daemonCall request) .quiet { s with daemon }
  | rested {input : Input} : Moves s input .quiet s

variable {mac accounts} {s : State}

theorem claim_moves (names : Accounts) (sender : Sender) (answer : Option Uid) (username : Name) :
    Moves mac accounts s (.claim sender answer username) (claim names sender answer username s).1
      (claim names sender answer username s).2 := by
  unfold claim
  cases asked : claimant names answer username with
  | error refusal =>
    refine .refused refusal ?_
    rintro rfl
    unfold claimant at asked
    split at asked
    · split at asked <;> cases asked
    · dsimp only at asked
      split at asked
      · cases asked
      · split at asked <;> cases asked
  | ok user =>
    dsimp only
    split
    · exact .refused _ nofun
    next free => exact .claimed rfl (not_not.mp free) rfl rfl

theorem release_moves (sender : Sender) : Moves mac accounts s (.release sender)
    (release sender s).1 (release sender s).2 := by
  unfold release
  split
  · exact .refused _ nofun
  next taken =>
    split
    · exact .refused _ nofun
    next owns => exact .released taken (by simpa using owns)

theorem nameOwnerChanged_moves (name oldOwner newOwner : Name) :
    Moves mac accounts s (.nameOwnerChanged name oldOwner newOwner) (nameOwnerChanged name oldOwner newOwner s).1
      (nameOwnerChanged name oldOwner newOwner s).2 := by
  unfold nameOwnerChanged
  split
  · exact .rested
  · split
    · exact .rested
    · split
      next gone => exact .vanished gone.1
      · exact .rested

theorem startRefusal_fails {method : String} {sender : Sender} {refusal : Reply}
    (refused : startRefusal method sender s.device = some refusal) : refusal ≠ .returned := by
  unfold startRefusal at refused
  split at refused
  · cases refused
    exact nofun
  · split at refused
    · cases refused
      exact nofun
    · cases refused

theorem startRefusal_none {method : String} {sender : Sender} (free : startRefusal method sender s.device = none) :
    s.device.state = .claimed := by
  unfold startRefusal at free
  split at free
  · cases free
  next claimed => exact not_not.mp claimed

theorem verifyStart_moves (sender : Sender) (finger : Name) :
    Moves mac accounts s (.verifyStart sender finger) (verifyStart sender finger s).1 (verifyStart sender finger s).2 := by
  unfold verifyStart
  cases asked : startRefusal "VerifyStart" sender s.device with
  | some refusal => exact .refused refusal (startRefusal_fails asked)
  | none =>
    refine .started rfl (startRefusal_none asked) ?_
    intro status inside
    cases List.mem_singleton.mp inside

theorem enrollStart_moves (sender : Sender) (finger : Name) :
    Moves mac accounts s (.enrollStart sender finger) (enrollStart sender finger s).1 (enrollStart sender finger s).2 := by
  unfold enrollStart
  cases asked : startRefusal "EnrollStart" sender s.device with
  | some refusal => exact .refused refusal (startRefusal_fails asked)
  | none => exact .started rfl (startRefusal_none asked) fun _ => List.not_mem_nil

theorem stop_moves {method : String} {isEnroll : Bool} {sender : Sender} {input : Input} (call : input.role = .stops isEnroll)
    (caller : input.stopper = some sender) :
    Moves mac accounts s input (stop method isEnroll sender s).1 (stop method isEnroll sender s).2 := by
  unfold stop
  split
  · exact .refused _ nofun
  next owns =>
    have owns : sender.owns s.device = true := by simpa using owns
    split
    next runs => exact .stopped call caller owns runs
    next rests => exact .unneeded call caller owns rests

theorem workerBegins_moves (id : Nat) : Moves mac accounts s (.workerBegins id)
    (workerBegins id s).1 (workerBegins id s).2 := by
  unfold workerBegins
  cases found : s.tasks.entries id with
  | none => exact .rested
  | some task =>
    dsimp only
    split
    next pending => exact .begun found pending
    · exact .rested

theorem workerReturns_moves (id : Nat) (env : Env) :
    Moves mac accounts s (.workerReturns id env)
    (workerReturns mac accounts id env s).1 (workerReturns mac accounts id env s).2 := by
  unfold workerReturns
  cases found : s.tasks.entries id with
  | none => exact .rested
  | some task =>
    dsimp only
    split
    next running => exact .worked found running
    · exact .rested

theorem asyncReady_moves (id : Nat) : Moves mac accounts s (.asyncReady id) (asyncReady id s).1 (asyncReady id s).2 := by
  unfold asyncReady
  cases found : s.tasks.entries id with
  | none => exact .rested
  | some task =>
    dsimp only
    cases ended : task.phase with
    | pending => exact .rested
    | running => exact .rested
    | returned success =>
      dsimp only
      split
      next cancelled => exact .settled found ended (if_pos cancelled).symm
      next runs => exact .settled found ended (if_neg runs).symm

theorem step_moves (names : Accounts) (input : Input) :
    Moves mac accounts s input (step mac accounts names input s).1 (step mac accounts names input s).2 := by
  cases input with
  | claim sender answer username => exact claim_moves names sender answer username
  | release sender => exact release_moves sender
  | verifyStart sender finger => exact verifyStart_moves sender finger
  | verifyStop sender => exact stop_moves rfl rfl
  | enrollStart sender finger => exact enrollStart_moves sender finger
  | enrollStop sender => exact stop_moves rfl rfl
  | nameOwnerChanged name oldOwner newOwner => exact nameOwnerChanged_moves name oldOwner newOwner
  | workerBegins id => exact workerBegins_moves id
  | workerReturns id env => exact workerReturns_moves id env
  | asyncReady id => exact asyncReady_moves id
  | daemonCall request => exact .served _

/-- Cancelling leaves the rest of the tasks alone. -/
theorem cancelled_from {id : Nat} {task : Task} (found : s.cancel.tasks.entries id = some task) :
    ∃ old, s.tasks.entries id = some old ∧ task.isEnroll = old.isEnroll ∧ task.username = old.username ∧
      task.phase = old.phase ∧ (task.cancelled = false → old.cancelled = false) := by
  unfold State.cancel at found
  split at found
  · exact ⟨task, found, rfl, rfl, rfl, fun runs => runs⟩
  · obtain ⟨-, old, present, rfl⟩ | ⟨-, present⟩ := Table.mem_change.mp found
    · exact ⟨old, present, rfl, rfl, rfl, nofun⟩
    · exact ⟨task, present, rfl, rfl, rfl, fun runs => runs⟩

theorem changed_phase {place id : Nat} {edit : Task → Phase} {task : Task}
    (found : (s.tasks.change place fun task => { task with phase := edit task }).entries id = some task) :
    ∃ old, s.tasks.entries id = some old ∧ task.isEnroll = old.isEnroll ∧ task.username = old.username ∧
      task.cancelled = old.cancelled ∧ (task.phase = old.phase ∨ id = place ∧ task.phase = edit old) := by
  obtain ⟨here, old, present, rfl⟩ | ⟨-, present⟩ := Table.mem_change.mp found
  · exact ⟨old, present, rfl, rfl, rfl, .inr ⟨here, rfl⟩⟩
  · exact ⟨task, present, rfl, rfl, rfl, .inl rfl⟩

/-- A task that goes on is there after its phase was moved. -/
theorem changed_runs {place id : Nat} {edit : Task → Phase} {task : Task} (found : s.tasks.entries id = some task) :
    ∃ after, (s.tasks.change place fun task => { task with phase := edit task }).entries id = some after ∧
      after.cancelled = task.cancelled := by
  by_cases here : id = place
  · exact ⟨_, Table.mem_change.mpr (.inl ⟨here, task, found, rfl⟩), rfl⟩
  · exact ⟨task, Table.mem_change.mpr (.inr ⟨here, found⟩), rfl⟩

theorem cancel_next : s.cancel.tasks.next = s.tasks.next := by
  unfold State.cancel
  split <;> rfl

/-- Numbers are only given away by the calls that start a task. -/
theorem Moves.next_le {after : State} {input : Input} {outcome : Outcome} (moves : Moves mac accounts s input outcome after) :
    s.tasks.next ≤ after.tasks.next := by
  cases moves with
  | released taken owns => exact Nat.le_of_eq cancel_next.symm
  | vanished taken => exact Nat.le_of_eq cancel_next.symm
  | stopped call caller owns runs => exact Nat.le_of_eq cancel_next.symm
  | started call claimed silent => exact Nat.le_succ _
  | _ => exact Nat.le_refl _

/-- A task that runs, or may come to run, ran or might have before, or is new. -/
theorem Moves.goes_before {after : State} {input : Input} {outcome : Outcome}
    (moves : Moves mac accounts s input outcome after)
    {id : Nat} {task : Task} (found : after.tasks.entries id = some task) :
    (id = s.tasks.next ∧ task.phase = .pending) ∨ ∃ old, s.tasks.entries id = some old ∧ task.isEnroll = old.isEnroll ∧
      (task.phase = .running → old.phase = .running ∨ old.cancelled = false) ∧
      (task.cancelled = false → old.cancelled = false) := by
  cases moves with
  | released taken owns =>
    obtain ⟨old, present, kind, -, phase, uncancelled⟩ := cancelled_from found
    exact .inr ⟨old, present, kind, fun running => .inl (phase ▸ running), uncancelled⟩
  | vanished taken =>
    obtain ⟨old, present, kind, -, phase, uncancelled⟩ := cancelled_from found
    exact .inr ⟨old, present, kind, fun running => .inl (phase ▸ running), uncancelled⟩
  | stopped call caller owns runs =>
    obtain ⟨old, present, kind, -, phase, uncancelled⟩ := cancelled_from found
    exact .inr ⟨old, present, kind, fun running => .inl (phase ▸ running), uncancelled⟩
  | started call claimed silent =>
    obtain ⟨new, rfl⟩ | present := Table.mem_add.mp found
    · exact .inl ⟨new, rfl⟩
    · exact .inr ⟨task, present, rfl, .inl, fun runs => runs⟩
  | begun present pending =>
    obtain ⟨old, present, kind, -, same, phase | ⟨-, phase⟩⟩ := changed_phase found
    · exact .inr ⟨old, present, kind, fun running => .inl (phase ▸ running), fun runs => same ▸ runs⟩
    · refine .inr ⟨old, present, kind, ?_, fun runs => same ▸ runs⟩
      intro running
      rw [running] at phase
      split at phase
      · cases phase
      next runs => exact .inr (by simpa using runs)
  | worked present running =>
    obtain ⟨old, present, kind, -, same, phase | ⟨-, phase⟩⟩ := changed_phase found
    · exact .inr ⟨old, present, kind, fun running => .inl (phase ▸ running), fun runs => same ▸ runs⟩
    · refine .inr ⟨old, present, kind, ?_, fun runs => same ▸ runs⟩
      intro running
      rw [running] at phase
      cases phase
  | settled present ended sent => exact .inr ⟨task, (Table.mem_erase.mp found).2, rfl, .inl, fun runs => runs⟩
  | _ => exact .inr ⟨task, found, rfl, .inl, fun runs => runs⟩

end

end Hiya.Fprintd
