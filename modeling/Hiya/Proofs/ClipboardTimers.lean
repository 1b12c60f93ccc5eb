import Hiya.Pm.Clipboard

/-! The clipboard is cleared once, in time, and not after it was cancelled, however the steps of
the worker and of its callers are interleaved. -/

namespace Hiya.Pm.Clipboard
open Library

variable {φ δ : Type}

abbrev Step (φ δ : Type) := Event (World φ δ) (Action φ δ) (Outcome φ δ)

def Action.isTurn (thread : Nat) : Action φ δ → Bool
  | .worker other => other = thread
  | _ => false

def Action.isCall : Action φ δ → Bool
  | .scheduleClear _ => true
  | .cancelClear => true
  | .shutdown => true
  | _ => false

def Outcome.sign : Outcome φ δ → Option Sign
  | .called _ sign _ => some sign
  | _ => none

/-- How often it was a thread's turn. -/
def turns (thread : Nat) (events : List (Step φ δ)) : Nat := events.countP (·.input.isTurn thread)

/-- What the callbacks were told by a thread. -/
def signs (thread : Nat) (events : List (Step φ δ)) : List Sign :=
    (events.filter (·.input.isTurn thread)).filterMap (·.outcome.sign)

/-- What a worker has to tell: the seconds that are left, and at the end to clear. -/
def story (timeoutSeconds : Nat) : List Sign := (List.range timeoutSeconds).reverse.map .countdown ++ [.clear]

/-- A call begins that stops what was scheduled. -/
def Begins (event : Step φ δ) : Prop := event.input.isCall = true ∧ event.outcome = .moved

def Creates (thread : Nat) (event : Step φ δ) : Prop := ∃ timeoutSeconds, event.outcome = .created thread timeoutSeconds

/-- A call returns without another worker, or there is another one. -/
def Stops (thread : Nat) (event : Step φ δ) : Prop :=
  (∃ created result, event.input = .goOn created ∧ event.outcome = .returned result) ∨ ∃ other, other ≠ thread ∧
    Creates other event

section
variable {thread : Nat} {events : List (Step φ δ)} {event : Step φ δ}

@[simp] theorem turns_nil : turns thread ([] : List (Step φ δ)) = 0 := rfl

@[simp] theorem signs_nil : signs thread ([] : List (Step φ δ)) = [] := rfl

theorem turns_snoc : turns thread (events ++ [event]) = turns thread events + if event.input.isTurn thread then 1 else 0 := by
  simp [turns, List.countP_append, List.countP_singleton]

theorem signs_snoc : signs thread (events ++ [event]) =
    signs thread events ++ if event.input.isTurn thread then event.outcome.sign.toList else [] := by
  unfold signs
  rw [List.filter_append, List.filterMap_append]
  cases turn : event.input.isTurn thread with
  | false => simp [turn]
  | true =>
    cases said : event.outcome.sign with
    | none => simp [turn, said]
    | some sign => simp [turn, said]

end

theorem length_story (timeoutSeconds : Nat) : (story timeoutSeconds).length = timeoutSeconds + 1 := by simp [story]

theorem story_second {timeoutSeconds remaining : Nat} (inside : remaining < timeoutSeconds) :
    (story timeoutSeconds).take (timeoutSeconds - (remaining + 1)) ++ [.countdown remaining] =
      (story timeoutSeconds).take (timeoutSeconds - remaining) := by
  have next : timeoutSeconds - remaining = timeoutSeconds - (remaining + 1) + 1 := by omega
  have here : (story timeoutSeconds)[timeoutSeconds - (remaining + 1)]? = some (.countdown remaining) := by
    have place : timeoutSeconds - 1 - (timeoutSeconds - (remaining + 1)) = remaining := by omega
    rw [story, List.getElem?_append_left (by simp; omega), List.getElem?_map, List.getElem?_reverse (by simp; omega),
      List.length_range, place,
      List.getElem?_range inside]
    rfl
  rw [next, List.take_add_one, here]
  rfl

theorem story_clear (timeoutSeconds : Nat) : (story timeoutSeconds).take timeoutSeconds ++ [.clear] =
    story timeoutSeconds := by
  rw [story, List.take_left' (by simp)]

def Worker.counts : Worker φ δ → Bool
  | .sleeping _ => true
  | .counting _ _ _ => true
  | _ => false

def Worker.Told (timeoutSeconds count : Nat) (said : List Sign) (disturbed : Prop) : Worker φ δ → Prop
  | .sleeping remaining => 0 < remaining ∧ remaining ≤ timeoutSeconds ∧ count = 2 * (timeoutSeconds - remaining) ∧
      said = (story timeoutSeconds).take (timeoutSeconds - remaining)
  | .counting remaining _ _ => 0 < remaining ∧ remaining < timeoutSeconds ∧ count + 1 = 2 * (timeoutSeconds - remaining) ∧
      said = (story timeoutSeconds).take (timeoutSeconds - (remaining + 1))
  | .finishing _ _ _ =>
    0 < timeoutSeconds ∧ count + 1 = 2 * timeoutSeconds ∧ said = (story timeoutSeconds).take (timeoutSeconds - 1)
  | .clearing _ _ => count = 2 * timeoutSeconds ∧ said = (story timeoutSeconds).take timeoutSeconds
  | .ended => (2 * timeoutSeconds < count ∧ said = story timeoutSeconds) ∨ (disturbed ∧ said <+: story timeoutSeconds)

section
variable {state : State φ δ} {worker : Worker φ δ} {timeoutSeconds count : Nat} {said : List Sign} {disturbed : Prop}

theorem Worker.Told.step (told : worker.Told timeoutSeconds count said disturbed)
    (flagged : worker.counts = true → state.cancelRequested = true → disturbed) :
    (worker.step state).2.1.Told timeoutSeconds (count + 1) (said ++ (worker.step state).1.sign.toList) disturbed := by
  cases worker with
  | sleeping remaining =>
    obtain ⟨positive, fits, taken, rfl⟩ := told
    obtain ⟨remaining, rfl⟩ : ∃ less, remaining = less + 1 := ⟨remaining - 1, by omega⟩
    rw [Worker.step_sleeping]
    by_cases cancelled : state.cancelRequested = true
    · rw [if_pos cancelled]
      exact .inr ⟨flagged rfl cancelled, by simpa [Outcome.sign] using List.take_prefix _ _⟩
    rw [if_neg cancelled]
    by_cases last : remaining = 0
    · subst last
      rw [if_pos rfl]
      exact ⟨by omega, by omega, by simp [Outcome.sign]⟩
    · rw [if_neg last]
      exact ⟨by omega, by omega, by omega, by simp [Outcome.sign]⟩
  | counting remaining countdownCb userdata =>
    obtain ⟨positive, fits, taken, rfl⟩ := told
    exact ⟨positive, by omega, by omega, story_second fits⟩
  | finishing countdownCb clearCb userdata =>
    obtain ⟨positive, taken, rfl⟩ := told
    exact ⟨taken, story_second positive⟩
  | clearing clearCb userdata =>
    obtain ⟨taken, rfl⟩ := told
    exact .inl ⟨by omega, story_clear timeoutSeconds⟩
  | ended =>
    obtain ⟨taken, rfl⟩ | ⟨disturbed, part⟩ := told
    · exact .inl ⟨by omega, by simp [Worker.step, Outcome.sign]⟩
    · exact .inr ⟨disturbed, by simpa [Worker.step, Outcome.sign] using part⟩

theorem Worker.Told.disturb {more : Prop} (told : worker.Told timeoutSeconds count said disturbed) (less : disturbed → more) :
    worker.Told timeoutSeconds count said more := by
  cases worker with
  | ended => exact told.imp id (And.imp_left less)
  | sleeping => exact told
  | counting => exact told
  | finishing => exact told
  | clearing => exact told

/-- In every case a beginning of the story, and exactly so much of it as there was time for where
nothing came in between. -/
theorem Worker.Told.beginning (told : worker.Told timeoutSeconds count said disturbed) : said <+: story timeoutSeconds ∧
    (¬ disturbed → said = (story timeoutSeconds).take (if count ≤ 2 * timeoutSeconds then count / 2
    else timeoutSeconds + 1)) := by
  have whole : (story timeoutSeconds).take (timeoutSeconds + 1) = story timeoutSeconds := by
    rw [← length_story timeoutSeconds, List.take_length]
  have halves {place : Nat} (few : count ≤ 2 * timeoutSeconds) (half : count / 2 = place)
    (same : said = (story timeoutSeconds).take place) :
      said <+: story timeoutSeconds ∧
        (¬ disturbed → said = (story timeoutSeconds).take (if count ≤ 2 * timeoutSeconds then count / 2
          else timeoutSeconds + 1)) := by
    rw [if_pos few, half]
    exact ⟨same ▸ List.take_prefix _ _, fun _ => same⟩
  cases worker with
  | sleeping remaining =>
    obtain ⟨positive, fits, taken, same⟩ := told
    exact halves (by omega) (by omega) same
  | counting remaining =>
    obtain ⟨positive, fits, taken, same⟩ := told
    exact halves (by omega) (by omega) same
  | finishing =>
    obtain ⟨positive, taken, same⟩ := told
    exact halves (by omega) (by omega) same
  | clearing =>
    obtain ⟨taken, same⟩ := told
    exact halves (by omega) (by omega) same
  | ended =>
    obtain ⟨taken, rfl⟩ | ⟨disturbed, part⟩ := told
    · rw [if_neg (Nat.not_le.mpr taken), whole]
      exact ⟨List.prefix_rfl, fun _ => rfl⟩
    · exact ⟨part, fun not => absurd disturbed not⟩

end

/-- A call has begun and not yet looked at the worker it found for the last time. -/
def Caller.isInside : Caller φ δ → Bool
  | .joining _ _ => true
  | .locking _ => true
  | .unhooking => true
  | _ => false

def Caller.isJoining : Caller φ δ → Bool
  | .joining _ _ => true
  | _ => false

/-- Somebody is still to wait for the last worker. -/
def World.pending (world : World φ δ) : Bool := world.state.workerJoinPending || world.caller.isJoining

/-- No worker runs but the last one, and there is always somebody to wait for it. -/
structure Sound (world : World φ δ) : Prop where
  alive : ∀ {thread : Nat} {worker : Worker φ δ}, world.workers[thread]? = some worker → worker.isEnded = false →
    thread = world.state.worker ∧ world.pending = true
  target : ∀ {target : Nat} {task : Task}, world.caller = .joining target task → target = world.state.worker
  inside : world.caller.isInside = true → world.state.workerJoinPending = false
  present : world.pending = true → world.state.worker < world.workers.length
  running : world.state.workerRunning = true ↔ ∃ worker, world.workers[world.state.worker]? = some worker ∧
    worker.counts = true

theorem initial_sound : Sound (initial : World φ δ) where
  alive here := by simp [initial] at here
  target here := by cases here
  inside here := by cases here
  present pending := by cases pending
  running := by simp [initial]

section
variable {world : World φ δ} {thread target : Nat} {worker : Worker φ δ} {task : Task}

theorem Worker.alive_of_counts (active : worker.counts = true) : worker.isEnded = false := by
  cases worker with
  | ended => cases active
  | _ => rfl

/-- Nobody is left where nobody is waited for. -/
theorem Sound.none_left (sound : Sound world) (settled : world.pending = false)
    (here : world.workers[thread]? = some worker) :
    worker.isEnded = true := by
  by_contra alive
  have pending := (sound.alive here (eq_false_of_ne_true alive)).2
  rw [settled] at pending
  cases pending

theorem Sound.settled (sound : Sound world) (inside : world.caller.isInside = true)
    (here : world.caller.isJoining = false) : world.pending = false := by
  rw [World.pending, sound.inside inside, here]
  rfl

theorem Sound.not_running (sound : Sound world) (settled : world.pending = false) : world.state.workerRunning = false := by
  by_contra running
  obtain ⟨worker, here, counts⟩ := sound.running.mp (eq_true_of_ne_false running)
  have ended := sound.none_left settled here
  rw [Worker.alive_of_counts counts] at ended
  cases ended

/-- Where all workers have ended, a call may set the flags as it likes. -/
theorem Sound.reset (sound : Sound world) (settled : world.pending = false) {state : State φ δ} {caller : Caller φ δ}
    (stopped : state.workerRunning = false) (joined : state.workerJoinPending = false)
    (outside : caller.isJoining = false) : Sound { world with state, caller } where
  alive here alive := by
    rw [sound.none_left settled here] at alive
    cases alive
  target here := by
    have here : caller = .joining _ _ := here
    rw [here] at outside
    cases outside
  inside _ := joined
  present pending := by
    rw [World.pending, joined, outside] at pending
    cases pending
  running := by
    rw [stopped]
    refine iff_of_false nofun ?_
    rintro ⟨worker, here, counts⟩
    have ended := sound.none_left settled here
    rw [Worker.alive_of_counts counts] at ended
    cases ended

theorem begin_sound (sound : Sound world) (task : Task) : Sound (begin task world).2 := by
  unfold begin
  split
  next idle =>
    split
    next waits =>
      have pending : world.pending = true := by rw [World.pending, waits, Bool.true_or]
      refine ⟨fun here alive => ⟨(sound.alive here alive).1, rfl⟩, fun same => ?_, fun _ => rfl,
        fun _ => sound.present pending, sound.running⟩
      injection same with same
      exact same.symm
    next settled =>
      have settled : world.pending = false := by simp [World.pending, settled, idle, Caller.isJoining]
      exact sound.reset settled (sound.not_running settled) (eq_false_of_ne_true ‹_›) rfl
  next => exact sound

theorem restart_sound (sound : Sound world) (settled : world.pending = false) (timeoutSeconds : Nat) (created : Bool) :
    Sound (restart timeoutSeconds created world).2 := by
  have joined : world.state.workerJoinPending = false := (Bool.or_eq_false_iff.mp settled).1
  unfold restart
  dsimp only
  split
  · have last : (world.workers ++ [Worker.sleeping timeoutSeconds])[world.workers.length]? =
      some (.sleeping timeoutSeconds : Worker φ δ) := by simp
    refine ⟨fun {thread worker} here alive => ⟨?_, rfl⟩, nofun, nofun, fun _ => by simp, iff_of_true rfl ⟨_, last, rfl⟩⟩
    by_contra other
    have older : thread < world.workers.length := by
      have bound := (List.getElem?_eq_some_iff.mp here).1
      rw [List.length_append, List.length_singleton] at bound
      exact Nat.lt_of_le_of_ne (Nat.le_of_lt_succ bound) other
    rw [List.getElem?_append_left older] at here
    rw [sound.none_left settled here] at alive
    cases alive
  · exact sound.reset settled rfl joined rfl

theorem goOn_sound (sound : Sound world) (created : Bool) : Sound (goOn created world).2 := by
  unfold goOn
  split
  next => exact sound
  next target task joining =>
    split
    next ended =>
      obtain ⟨worker, here, ended⟩ : ∃ worker, world.workers[target]? = some worker ∧ worker.isEnded = true := by
        cases here : world.workers[target]? with
        | none =>
          rw [here] at ended
          cases ended
        | some worker =>
          rw [here] at ended
          exact ⟨worker, rfl, ended⟩
      have joined := sound.inside (joining ▸ rfl)
      refine ⟨fun {thread other} there alive => ?_, nofun, fun _ => joined, fun pending => ?_, sound.running⟩
      · have same := (sound.alive there alive).1
        rw [same, ← sound.target joining, here] at there
        cases there
        rw [ended] at alive
        cases alive
      · rw [World.pending, joined] at pending
        cases pending
    next => exact sound
  next timeoutSeconds locking =>
    exact restart_sound sound (sound.settled (locking ▸ rfl) (locking ▸ rfl)) timeoutSeconds created
  next locking => exact sound.reset (sound.settled (locking ▸ rfl) (locking ▸ rfl)) rfl (sound.inside (locking ▸ rfl)) rfl
  next locking => exact sound.reset (sound.settled (locking ▸ rfl) (locking ▸ rfl)) rfl (sound.inside (locking ▸ rfl)) rfl
  next announcing =>
    have same : world.pending = (world.state.workerJoinPending || false) := by
      rw [World.pending, announcing]
      rfl
    refine ⟨fun here alive => ?_, nofun, nofun, fun pending => sound.present (same.trans pending), sound.running⟩
    obtain ⟨last, pending⟩ := sound.alive here alive
    exact ⟨last, same.symm.trans pending⟩
  next unhooking =>
    have settled := sound.settled (unhooking ▸ rfl) (unhooking ▸ rfl)
    exact sound.reset settled (sound.not_running settled) (sound.inside (unhooking ▸ rfl)) rfl

/-- A turn of a worker leaves everything else but the flag that it runs. -/
theorem moveWorker_eq (here : world.workers[thread]? = some worker) : moveWorker thread world =
    ((worker.step world.state).1, { world with state := (worker.step world.state).2.2, workers := world.workers.set thread (worker.step world.state).2.1 }) := by
  rw [moveWorker, here]

theorem Worker.step_keeps (worker : Worker φ δ) (state : State φ δ) : (worker.step state).2.2.worker = state.worker ∧
    (worker.step state).2.2.workerJoinPending = state.workerJoinPending ∧
    (worker.step state).2.2.cancelRequested = state.cancelRequested := by
  cases worker with
  | sleeping remaining =>
    cases remaining with
    | zero => exact ⟨rfl, rfl, rfl⟩
    | succ remaining =>
      rw [step_sleeping]
      split
      · exact ⟨rfl, rfl, rfl⟩
      · split <;> exact ⟨rfl, rfl, rfl⟩
  | counting => exact ⟨rfl, rfl, rfl⟩
  | finishing => exact ⟨rfl, rfl, rfl⟩
  | clearing => exact ⟨rfl, rfl, rfl⟩
  | ended => exact ⟨rfl, rfl, rfl⟩

theorem Worker.step_running {state : State φ δ} (running : state.workerRunning = true ↔ worker.counts = true) :
    (worker.step state).2.2.workerRunning = true ↔ (worker.step state).2.1.counts = true := by
  cases worker with
  | sleeping remaining =>
    cases remaining with
    | zero => simp [step, counts]
    | succ remaining =>
      rw [step_sleeping]
      split
      · simp [counts]
      · split
        · simp [counts]
        · simpa [counts] using running
  | counting => simpa [step, counts] using running
  | finishing => simpa [step, counts] using running
  | clearing => simpa [step, counts] using running
  | ended => simpa [step, counts] using running

theorem Worker.step_ended {state : State φ δ} (ended : worker.isEnded = true) :
    worker.step state = (.waits, worker, state) := by
  cases worker <;> simp_all [isEnded, step]

theorem moveWorker_sound (sound : Sound world) (thread : Nat) : Sound (moveWorker thread world).2 := by
  cases here : world.workers[thread]? with
  | none =>
    rw [moveWorker, here]
    exact sound
  | some worker =>
    have inside := (List.getElem?_eq_some_iff.mp here).1
    obtain ⟨last, joined, -⟩ := worker.step_keeps world.state
    rw [moveWorker_eq here]
    cases ended : worker.isEnded with
    | true =>
      have same : world.workers.set thread worker = world.workers := by
        obtain ⟨bound, rfl⟩ := List.getElem?_eq_some_iff.mp here
        exact List.set_getElem_self bound
      rw [Worker.step_ended ended, same]
      exact sound
    | false =>
      obtain ⟨rfl, pending⟩ := sound.alive here ended
      have mine : (world.workers.set world.state.worker (worker.step world.state).2.1)[world.state.worker]? =
        some (worker.step world.state).2.1 :=
        List.getElem?_set_self inside
      refine ⟨fun {thread other} there alive => ?_, fun joining => last ▸ sound.target joining,
        fun inside => joined.trans (sound.inside inside), fun _ => ?_, ?_⟩
      · have same : thread = world.state.worker := by
          by_contra different
          have there : (world.workers.set world.state.worker (worker.step world.state).2.1)[thread]? = some other := there
          rw [List.getElem?_set_ne (Ne.symm different)] at there
          exact different (sound.alive there alive).1
        refine ⟨same.trans last.symm, ?_⟩
        rw [World.pending] at pending ⊢
        exact joined.symm ▸ pending
      · rw [last, List.length_set]
        exact inside
      · have running : world.state.workerRunning = true ↔ worker.counts = true := by
          rw [sound.running, here]
          simp
        rw [last, mine, Worker.step_running running]
        simp

theorem step_sound (sound : Sound world) (action : Action φ δ) : Sound (step action world).2 := by
  cases action with
  | init => exact ⟨sound.alive, sound.target, sound.inside, sound.present, sound.running⟩
  | scheduleClear => exact begin_sound sound _
  | cancelClear => exact begin_sound sound _
  | shutdown => exact begin_sound sound _
  | isArmed => exact sound
  | timeoutSeconds => exact sound
  | goOn created => exact goOn_sound sound created
  | worker thread => exact moveWorker_sound sound thread

theorem step_turn (here : world.workers[thread]? = some worker) {action : Action φ δ} (turn : action.isTurn thread = true) :
    (step action world).2.workers[thread]? = some (worker.step world.state).2.1 ∧
    (step action world).1 = (worker.step world.state).1 ∧
      (step action world).2.state.cancelRequested = world.state.cancelRequested := by
  cases action with
  | worker other =>
    obtain rfl : other = thread := of_decide_eq_true turn
    have inside := (List.getElem?_eq_some_iff.mp here).1
    rw [step, moveWorker_eq here]
    exact ⟨List.getElem?_set_self inside, rfl, (worker.step_keeps world.state).2.2⟩
  | _ => cases turn

theorem restart_keeps (here : world.workers[thread]? = some worker) (timeoutSeconds : Nat) (created : Bool) :
    (restart timeoutSeconds created world).2.workers[thread]? = some worker := by
  unfold restart
  dsimp only
  split
  · exact (List.getElem?_append_left (List.getElem?_eq_some_iff.mp here).1).trans here
  · exact here

theorem step_other (here : world.workers[thread]? = some worker) {action : Action φ δ}
    (other : action.isTurn thread = false) :
    (step action world).2.workers[thread]? = some worker := by
  have begun (task : Task) : (begin task world).2.workers[thread]? = some worker := by
    unfold begin
    split
    · split <;> exact here
    · exact here
  cases action with
  | init => exact here
  | scheduleClear => exact begun _
  | cancelClear => exact begun _
  | shutdown => exact begun _
  | isArmed => exact here
  | timeoutSeconds => exact here
  | goOn created =>
    rw [step]
    unfold goOn
    split
    next => exact here
    next => split <;> exact here
    next => exact restart_keeps here _ _
    next => exact here
    next => exact here
    next => exact here
    next => exact here
  | worker moved =>
    have different : moved ≠ thread := of_decide_eq_false other
    rw [step]
    cases there : world.workers[moved]? with
    | none =>
      rw [moveWorker, there]
      exact here
    | some worker =>
      rw [moveWorker_eq there]
      exact (List.getElem?_set_ne different).trans here

/-- While a worker counts, the flag says whether a call has begun. -/
theorem step_flag (sound : Sound world) (here : world.workers[thread]? = some worker) (counts : worker.counts = true)
    (action : Action φ δ) :
    (step action world).2.state.cancelRequested = true ↔
      world.state.cancelRequested = true ∨ Begins (clipboard.event world action) := by
  obtain ⟨last, pending⟩ := sound.alive here (Worker.alive_of_counts counts)
  have running := sound.running.mpr ⟨worker, last ▸ here, counts⟩
  have quiet {action : Action φ δ} (silent : action.isCall = false) : ¬ Begins (clipboard.event world action) := by
    rintro ⟨call, -⟩
    rw [show (clipboard.event world action).input = action from rfl, silent] at call
    cases call
  have begun (task : Task) {action : Action φ δ} (call : action.isCall = true) (same : step action world = begin task world) :
      (step action world).2.state.cancelRequested = true ↔ world.state.cancelRequested = true ∨
        Begins (clipboard.event world action) := by
    have outcome : (clipboard.event world action).outcome = (step action world).1 := rfl
    rw [Begins, outcome, same]
    unfold begin
    split
    next idle =>
      have joined : world.state.workerJoinPending = true := by simpa [World.pending, idle, Caller.isJoining] using pending
      rw [if_pos joined, running, Bool.or_true]
      exact iff_of_true rfl (.inr ⟨call, rfl⟩)
    next =>
      refine (or_iff_left ?_).symm
      rintro ⟨-, moved⟩
      cases moved
  cases action with
  | init => exact (or_iff_left (quiet rfl)).symm
  | scheduleClear => exact begun _ rfl rfl
  | cancelClear => exact begun _ rfl rfl
  | shutdown => exact begun _ rfl rfl
  | isArmed => exact (or_iff_left (quiet rfl)).symm
  | timeoutSeconds => exact (or_iff_left (quiet rfl)).symm
  | goOn created =>
    rw [or_iff_left (quiet rfl), step]
    have unsettled (inside : world.caller.isInside = true) (outside : world.caller.isJoining = false) : False := by
      rw [sound.settled inside outside] at pending
      cases pending
    unfold goOn
    split
    next => rfl
    next => split <;> rfl
    next locking => exact (unsettled (locking ▸ rfl) (locking ▸ rfl)).elim
    next locking => exact (unsettled (locking ▸ rfl) (locking ▸ rfl)).elim
    next locking => exact (unsettled (locking ▸ rfl) (locking ▸ rfl)).elim
    next => rfl
    next => rfl
  | worker moved =>
    rw [or_iff_left (quiet rfl), step]
    cases there : world.workers[moved]? with
    | none => rw [moveWorker, there]
    | some other => rw [moveWorker_eq there, (other.step_keeps world.state).2.2]

/-- A worker is created behind all others, which have ended. -/
theorem created_cases {action : Action φ δ} {timeoutSeconds : Nat}
    (created : (step action world).1 = .created thread timeoutSeconds) :
    world.caller = .locking (.schedule timeoutSeconds) ∧ thread = world.workers.length ∧
      (step action world).2.workers = world.workers ++ [.sleeping timeoutSeconds] ∧
      (step action world).2.state.cancelRequested = false := by
  have begun (task : Task) (same : (begin task world).1 = .created thread timeoutSeconds) : False := by
    unfold begin at same
    split at same
    · split at same <;> cases same
    · cases same
  cases action with
  | goOn flag =>
    rw [step] at created ⊢
    unfold goOn at created ⊢
    split at created
    next => cases created
    next => split at created <;> cases created
    next seconds locking =>
      unfold restart at created
      dsimp only at created
      split at created
      next succeeds =>
        injection created with first second
        subst first second succeeds
        simp [locking, restart]
      next => cases created
    next => cases created
    next => cases created
    next => cases created
    next => cases created
  | worker moved =>
    rw [step] at created
    cases there : world.workers[moved]? with
    | none =>
      rw [moveWorker, there] at created
      cases created
    | some other =>
      rw [moveWorker_eq there] at created
      cases other with
      | sleeping remaining =>
        cases remaining with
        | zero => cases created
        | succ remaining =>
          rw [Worker.step_sleeping] at created
          split at created
          · cases created
          · split at created <;> cases created
      | _ => cases created
  | scheduleClear => exact (begun _ created).elim
  | cancelClear => exact (begun _ created).elim
  | shutdown => exact (begun _ created).elim
  | _ => cases created

theorem step_length (action : Action φ δ) (world : World φ δ) :
    (∃ timeoutSeconds, (step action world).1 = .created world.workers.length timeoutSeconds ∧
      (step action world).2.workers = world.workers ++ [.sleeping timeoutSeconds]) ∨
    (step action world).2.workers.length = world.workers.length := by
  have begun (task : Task) : (begin task world).2.workers = world.workers := by
    unfold begin
    split
    · split <;> rfl
    · rfl
  cases action with
  | goOn flag =>
    rw [step]
    unfold goOn
    split
    next => exact .inr rfl
    next => split <;> exact .inr rfl
    next seconds _ =>
      unfold restart
      dsimp only
      split
      · exact .inl ⟨seconds, rfl, rfl⟩
      · exact .inr rfl
    next => exact .inr rfl
    next => exact .inr rfl
    next => exact .inr rfl
    next => exact .inr rfl
  | worker moved =>
    right
    rw [step]
    cases there : world.workers[moved]? with
    | none => rw [moveWorker, there]
    | some other => rw [moveWorker_eq there, List.length_set]
  | scheduleClear => exact .inr (congrArg List.length (begun _))
  | cancelClear => exact .inr (congrArg List.length (begun _))
  | shutdown => exact .inr (congrArg List.length (begun _))
  | init => exact .inr rfl
  | isArmed => exact .inr rfl
  | timeoutSeconds => exact .inr rfl

/-- When a call returns without a worker, all of them have ended. -/
theorem returned_settled (sound : Sound world) {flag : Bool} {result : Except PmError Unit}
    (returned : (step (.goOn flag) world).1 = .returned result) :
    world.pending = false := by
  rw [step] at returned
  unfold goOn at returned
  split at returned
  next => cases returned
  next => split at returned <;> cases returned
  next locking => exact sound.settled (locking ▸ rfl) (locking ▸ rfl)
  next locking => exact sound.settled (locking ▸ rfl) (locking ▸ rfl)
  next => cases returned
  next => cases returned
  next unhooking => exact sound.settled (unhooking ▸ rfl) (unhooking ▸ rfl)

def Caller.scheduled : Caller φ δ → Option Nat
  | .joining _ (.schedule timeoutSeconds) => some timeoutSeconds
  | .locking (.schedule timeoutSeconds) => some timeoutSeconds
  | _ => none

def Clamped (timeoutSeconds : Nat) : Prop := 10 ≤ timeoutSeconds ∧ timeoutSeconds ≤ 120

theorem clamped_timeout (timeoutSeconds : Int) : Clamped (clampTimeout timeoutSeconds) := by
  unfold clampTimeout Clamped
  split
  · decide
  · split
    · decide
    · split
      · decide
      · omega

theorem step_scheduled (fits : ∀ timeoutSeconds, world.caller.scheduled = some timeoutSeconds → Clamped timeoutSeconds)
    (action : Action φ δ) :
    ∀ timeoutSeconds, (step action world).2.caller.scheduled = some timeoutSeconds → Clamped timeoutSeconds := by
  have begun (task : Task) (known : ∀ timeoutSeconds, task = .schedule timeoutSeconds → Clamped timeoutSeconds) :
      ∀ timeoutSeconds, (begin task world).2.caller.scheduled = some timeoutSeconds → Clamped timeoutSeconds := by
    intro timeoutSeconds scheduled
    unfold begin at scheduled
    have given (same : (Caller.locking task : Caller φ δ).scheduled = some timeoutSeconds) : Clamped timeoutSeconds := by
      cases task with
      | schedule seconds => exact known timeoutSeconds (congrArg Task.schedule (Option.some.inj same))
      | cancel => cases same
      | shutdown => cases same
    split at scheduled
    · split at scheduled
      · refine given (Eq.trans ?_ scheduled)
        cases task <;> rfl
      · exact given scheduled
    · exact fits timeoutSeconds scheduled
  cases action with
  | scheduleClear seconds => exact begun _ fun _ same => Task.schedule.inj same ▸ clamped_timeout seconds
  | cancelClear => exact begun _ nofun
  | shutdown => exact begun _ nofun
  | goOn created =>
    intro timeoutSeconds scheduled
    rw [step] at scheduled
    unfold goOn at scheduled
    split at scheduled
    next => exact fits timeoutSeconds scheduled
    next target task joining =>
      refine fits timeoutSeconds (Eq.trans ?_ scheduled)
      split
      · rw [joining]
        cases task <;> rfl
      · rfl
    next =>
      unfold restart at scheduled
      dsimp only at scheduled
      split at scheduled <;> cases scheduled
    next => cases scheduled
    next => cases scheduled
    next => cases scheduled
    next => cases scheduled
  | worker thread =>
    intro timeoutSeconds scheduled
    refine fits timeoutSeconds (Eq.trans ?_ scheduled)
    rw [step]
    cases here : world.workers[thread]? with
    | none => rw [moveWorker, here]
    | some worker => rw [moveWorker_eq here]
  | init => exact fits
  | isArmed => exact fits
  | timeoutSeconds => exact fits

/-- A join goes on, or a call has begun that found a worker. -/
theorem joining_cases {action : Action φ δ} (joining : (step action world).2.caller = .joining target task) :
    (world.caller = .joining target task ∧ (step action world).2.state.cancelRequested = world.state.cancelRequested) ∨
    (Begins (clipboard.event world action) ∧ action.isTurn target = false ∧ world.state.workerJoinPending = true ∧
    target = world.state.worker ∧
      (step action world).2.state.cancelRequested = (world.state.cancelRequested || world.state.workerRunning)) := by
  have begun (asked : Task) {action : Action φ δ} (call : action.isCall = true) (silent : action.isTurn target = false)
      (same : step action world = begin asked world) (joining : (begin asked world).2.caller = .joining target task) :
      (world.caller = .joining target task ∧ (step action world).2.state.cancelRequested = world.state.cancelRequested) ∨
      (Begins (clipboard.event world action) ∧ action.isTurn target = false ∧ world.state.workerJoinPending = true ∧
        target = world.state.worker ∧
        (step action world).2.state.cancelRequested = (world.state.cancelRequested || world.state.workerRunning)) := by
    have outcome : (clipboard.event world action).outcome = (step action world).1 := rfl
    rw [Begins, outcome, same]
    unfold begin at joining ⊢
    split at joining
    next idle =>
      split at joining
      next pending =>
        injection joining with first second
        rw [if_pos pending]
        exact .inr ⟨⟨call, rfl⟩, silent, pending, first.symm, rfl⟩
      next => cases joining
    next => exact .inl ⟨joining, rfl⟩
  cases action with
  | scheduleClear => exact begun _ rfl rfl rfl joining
  | cancelClear => exact begun _ rfl rfl rfl joining
  | shutdown => exact begun _ rfl rfl rfl joining
  | goOn created =>
    left
    rw [step] at joining ⊢
    unfold goOn at joining ⊢
    split at joining
    next idle => exact ⟨joining, rfl⟩
    next other asked here =>
      split at joining
      · cases joining
      next waits =>
        rw [if_neg waits]
        exact ⟨joining, rfl⟩
    next =>
      unfold restart at joining
      dsimp only at joining
      split at joining <;> cases joining
    next => cases joining
    next => cases joining
    next => cases joining
    next => cases joining
  | worker thread =>
    left
    rw [step] at joining ⊢
    cases here : world.workers[thread]? with
    | none =>
      rw [moveWorker, here] at joining ⊢
      exact ⟨joining, rfl⟩
    | some worker =>
      rw [moveWorker_eq here] at joining ⊢
      exact ⟨joining, (worker.step_keeps world.state).2.2⟩
  | init => exact .inl ⟨joining, rfl⟩
  | isArmed => exact .inl ⟨joining, rfl⟩
  | timeoutSeconds => exact .inl ⟨joining, rfl⟩

def Worker.left : Worker φ δ → Nat
  | .sleeping _ => 1
  | .counting _ _ _ => 2
  | .finishing _ _ _ => 2
  | .clearing _ _ => 1
  | .ended => 0

theorem Worker.step_left {state : State φ δ} (alive : worker.isEnded = false) (told : worker.counts = true →
    state.cancelRequested = true) :
    (worker.step state).2.1.left + 1 ≤ worker.left := by
  cases worker with
  | sleeping remaining =>
    cases remaining with
    | zero => exact Nat.le_refl 1
    | succ remaining =>
      rw [step_sleeping, if_pos (told rfl)]
      exact Nat.le_refl 1
  | counting => exact Nat.le_refl 2
  | finishing => exact Nat.le_refl 2
  | clearing => exact Nat.le_refl 1
  | ended => cases alive

theorem Worker.counts_of_step {state : State φ δ} (counts : (worker.step state).2.1.counts = true) :
    worker.counts = true := by
  cases worker with
  | sleeping => rfl
  | counting => rfl
  | finishing => cases counts
  | clearing => cases counts
  | ended => cases counts

end

theorem some_snoc {events : List (Step φ δ)} {event : Step φ δ} {holds : Step φ δ → Prop} :
    (∃ later ∈ events ++ [event], holds later) ↔ (∃ later ∈ events, holds later) ∨ holds event := by
  simp [or_and_right, exists_or]

structure Account (past : List (Step φ δ)) (world : World φ δ) : Prop where
  sound : Sound world
  fits : ∀ timeoutSeconds, world.caller.scheduled = some timeoutSeconds → Clamped timeoutSeconds
  told : ∀ {front made back thread timeoutSeconds}, past = front ++ made :: back →
    made.outcome = .created thread timeoutSeconds →
    Clamped timeoutSeconds ∧ ∃ worker, world.workers[thread]? = some worker ∧
      worker.Told timeoutSeconds (turns thread back) (signs thread back) (∃ later ∈ back, Begins later) ∧
      (worker.counts = true → (world.state.cancelRequested = true ↔ ∃ later ∈ back, Begins later))
  since : ∀ {thread worker}, world.workers[thread]? = some worker → worker.isEnded = false →
    Since (Creates thread) (Stops thread) past
  joins : ∀ {target task}, world.caller = .joining target task →
    ∃ front begun back worker, past = front ++ begun :: back ∧ Begins begun ∧
    world.workers[target]? = some worker ∧ (worker.counts = true → world.state.cancelRequested = true) ∧
    (worker.isEnded = true ∨ worker.left + turns target back ≤ 2)

theorem Account.initial : Account [] (initial : World φ δ) where
  sound := initial_sound
  fits _ scheduled := by cases scheduled
  told shape := by simp at shape
  since here := by simp [Clipboard.initial] at here
  joins joining := by cases joining

section
variable {past : List (Step φ δ)} {world : World φ δ}

theorem Account.told_step (account : Account past world) (action : Action φ δ) {front made back thread timeoutSeconds}
    (shape : past ++ [clipboard.event world action] = front ++ made :: back)
    (created : made.outcome = .created thread timeoutSeconds) :
    Clamped timeoutSeconds ∧ ∃ worker, (step action world).2.workers[thread]? = some worker ∧
      worker.Told timeoutSeconds (turns thread back) (signs thread back) (∃ later ∈ back, Begins later) ∧
      (worker.counts = true → ((step action world).2.state.cancelRequested = true ↔ ∃ later ∈ back, Begins later)) := by
  obtain ⟨-, rfl, rfl⟩ | ⟨rest, old, rfl⟩ := split_snoc shape
  · obtain ⟨locking, rfl, workers, clear⟩ := created_cases created
    have fits := account.fits timeoutSeconds (by rw [locking]; rfl)
    refine ⟨fits, .sleeping timeoutSeconds, by rw [workers]; simp, ⟨?_, ?_, ?_, ?_⟩, fun _ => ?_⟩
    · exact Nat.lt_of_lt_of_le (by decide) fits.1
    · exact Nat.le_refl _
    · simp
    · simp
    · rw [clear]
      simp
  · obtain ⟨fits, worker, here, told, flag⟩ := account.told old created
    refine ⟨fits, ?_⟩
    rw [turns_snoc, signs_snoc, some_snoc]
    cases turn : action.isTurn thread with
    | true =>
      obtain ⟨moved, outcome, same⟩ := step_turn here turn
      have silent : ¬ Begins (clipboard.event world action) := by
        rintro ⟨call, -⟩
        have call : action.isCall = true := call
        cases action <;> first | cases turn | cases call
      have input : (clipboard.event world action).input.isTurn thread = true := turn
      have said : (clipboard.event world action).outcome = (worker.step world.state).1 := outcome
      rw [input, if_pos rfl, if_pos rfl, said, same, or_iff_left silent]
      exact ⟨_, moved, told.step fun counts cancelled => (flag counts).mp cancelled,
        fun counts => flag (Worker.counts_of_step counts)⟩
    | false =>
      have input : (clipboard.event world action).input.isTurn thread = false := turn
      rw [input, if_neg (by decide), if_neg (by decide), Nat.add_zero, List.append_nil]
      refine ⟨worker, step_other here turn, told.disturb .inl, fun counts => ?_⟩
      rw [step_flag account.sound here counts action, flag counts]

theorem Account.since_step (account : Account past world) (action : Action φ δ) {thread worker}
    (here : (step action world).2.workers[thread]? = some worker) (alive : worker.isEnded = false) :
    Since (Creates thread) (Stops thread) (past ++ [clipboard.event world action]) := by
  rw [since_snoc]
  cases before : world.workers[thread]? with
  | none =>
    left
    have fresh : world.workers.length ≤ thread := List.getElem?_eq_none_iff.mp before
    have inside := (List.getElem?_eq_some_iff.mp here).1
    obtain ⟨timeoutSeconds, created, workers⟩ | same := step_length action world
    · rw [workers, List.length_append, List.length_singleton] at inside
      obtain rfl : thread = world.workers.length := by omega
      exact ⟨timeoutSeconds, created⟩
    · omega
  | some old =>
    right
    have lived : old.isEnded = false := by
      by_contra ended
      have ended := eq_true_of_ne_false ended
      have same : (step action world).2.workers[thread]? = some old := by
        cases turn : action.isTurn thread with
        | true => rw [(step_turn before turn).1, Worker.step_ended ended]
        | false => exact step_other before turn
      rw [here] at same
      cases same
      rw [alive] at ended
      cases ended
    have busy (settled : world.pending = false) : False := by
      have ended := account.sound.none_left settled before
      rw [lived] at ended
      cases ended
    refine ⟨account.since before lived, ?_⟩
    rintro (⟨flag, result, input, outcome⟩ | ⟨other, -, seconds, outcome⟩)
    · obtain rfl : action = .goOn flag := input
      exact busy (returned_settled account.sound outcome)
    · obtain ⟨locking, -⟩ := created_cases outcome
      exact busy (account.sound.settled (locking ▸ rfl) (locking ▸ rfl))

theorem Account.joins_step (account : Account past world) (action : Action φ δ) {target task}
    (joining : (step action world).2.caller = .joining target task) :
    ∃ front begun back worker, past ++ [clipboard.event world action] = front ++ begun :: back ∧ Begins begun ∧
      (step action world).2.workers[target]? = some worker ∧
      (worker.counts = true → (step action world).2.state.cancelRequested = true) ∧
      (worker.isEnded = true ∨ worker.left + turns target back ≤ 2) := by
  obtain ⟨before, same⟩ | ⟨begins, silent, joined, rfl, flag⟩ := joining_cases joining
  · obtain ⟨front, begun, back, worker, rfl, begins, here, told, left⟩ := account.joins before
    refine ⟨front, begun, back ++ [clipboard.event world action], ?_⟩
    rw [turns_snoc, same]
    cases turn : action.isTurn target with
    | true =>
      have input : (clipboard.event world action).input.isTurn target = true := turn
      refine ⟨(worker.step world.state).2.1,
        by simp, begins, (step_turn here turn).1, fun counts => told (Worker.counts_of_step counts), ?_⟩
      rw [input, if_pos rfl]
      cases ended : worker.isEnded with
      | true =>
        rw [Worker.step_ended ended]
        exact .inl ended
      | false =>
        have less := Worker.step_left ended told
        have left := left.resolve_left (by rw [ended]; decide)
        exact .inr (by omega)
    | false =>
      have input : (clipboard.event world action).input.isTurn target = false := turn
      rw [input]
      exact ⟨worker, by simp, begins, step_other here turn, told, left⟩
  · have inside := account.sound.present (by rw [World.pending, joined, Bool.true_or])
    have here := List.getElem?_eq_getElem inside
    refine ⟨past, _, [], _, rfl, begins, step_other here silent, fun counts => ?_, .inr ?_⟩
    · rw [flag, account.sound.running.mpr ⟨_, here, counts⟩, Bool.or_true]
    · cases world.workers[world.state.worker] with
      | _ => simp [Worker.left]

theorem Account.step (account : Account past world) (action : Action φ δ) :
    Account (past ++ [clipboard.event world action]) (step action world).2 where
  sound := step_sound account.sound action
  fits := step_scheduled account.fits action
  told := account.told_step action
  since := account.since_step action
  joins := account.joins_step action

theorem run_accounted (actions : List (Action φ δ)) : Throughout (clipboard.run initial actions) fun past event =>
    Account past event.before ∧ Account (past ++ [event]) event.after ∧ event = clipboard.event event.before event.input :=
  Machine.run_every (fun past world => Account past world) (fun _ _ action account => account.step action)
    (fun _ _ action account => ⟨account, account.step action, rfl⟩) .initial actions

end

/-- A worker calls back only from when it was created until the call that ends it returns, or
another one is created. It tells a beginning of its story: every second from the one before its
timeout to zero, and then to clear. As long as no call begins that stops it, it has told so much
of it as it had turns for, and the whole of it in the end. -/
theorem clears_once_in_time (actions : List (Action φ δ)) : Throughout (clipboard.run initial actions) fun past event =>
    (∀ thread callback sign userdata, event.input = .worker thread → event.outcome = .called callback sign userdata →
      Since (Creates thread) (Stops thread) past) ∧
    ∀ front made back thread timeoutSeconds, past ++ [event] = front ++ made :: back →
    made.outcome = .created thread timeoutSeconds →
      10 ≤ timeoutSeconds ∧ timeoutSeconds ≤ 120 ∧ signs thread back <+: story timeoutSeconds ∧
      ((∀ later ∈ back, ¬ Begins later) → signs thread back =
        (story timeoutSeconds).take (if turns thread back ≤ 2 * timeoutSeconds then turns thread back / 2
        else timeoutSeconds + 1)) := by
  intro front event back shape
  obtain ⟨account, later, is⟩ := run_accounted actions front event back shape
  constructor
  · intro thread callback sign userdata turn called
    have step : event.outcome = (moveWorker thread event.before).1 := by
      conv_lhs => rw [is]
      rw [turn]
      rfl
    rw [called] at step
    cases here : event.before.workers[thread]? with
    | none =>
      rw [moveWorker, here] at step
      cases step
    | some worker =>
      refine account.since here ?_
      by_contra ended
      rw [moveWorker_eq here, Worker.step_ended (eq_true_of_ne_false ended)] at step
      cases step
  · intro before made rest thread timeoutSeconds split created
    obtain ⟨⟨long, short⟩, worker, -, told, -⟩ := later.told split created
    obtain ⟨part, whole⟩ := told.beginning
    exact ⟨long, short, part, fun quiet => whole fun ⟨event, inside, begins⟩ => quiet event inside begins⟩

/-- Armed is what has a worker whose seconds are not over and that no call has begun to stop. And
a call waits for two turns of a worker at the most. -/
theorem armed_until_over (actions : List (Action φ δ)) : Throughout (clipboard.run initial actions) fun past event =>
    (∀ answer, event.input = .isArmed → event.outcome = .armed answer →
      (answer = true ↔ ∃ front made back thread timeoutSeconds, past = front ++ made :: back ∧
      made.outcome = .created thread timeoutSeconds ∧
        (∀ later ∈ back, ¬ Begins later) ∧ turns thread back + 1 < 2 * timeoutSeconds)) ∧
    ∀ created target task, event.input = .goOn created → event.before.caller = .joining target task → event.outcome = .waits →
      ∃ front begun back, past = front ++ begun :: back ∧ Begins begun ∧ turns target back < 2 := by
  intro front event back shape
  obtain ⟨account, -, is⟩ := run_accounted actions front event back shape
  constructor
  · intro answer asked armed
    have step : event.outcome = .armed (isArmed event.before.state) := by
      conv_lhs => rw [is]
      rw [asked]
      rfl
    rw [step] at armed
    injection armed with armed
    rw [← armed, isArmed, Bool.and_eq_true, Bool.not_eq_true', account.sound.running]
    constructor
    · rintro ⟨⟨worker, here, counts⟩, quiet⟩
      obtain ⟨before, made, rest, rfl, ⟨timeoutSeconds, created⟩, -⟩ := account.since here (Worker.alive_of_counts counts)
      obtain ⟨-, same, there, told, flag⟩ := account.told rfl created
      rw [here] at there
      cases there
      refine ⟨before, made, rest, _, timeoutSeconds, rfl, created, fun later inside begins => ?_, ?_⟩
      · rw [(flag counts).mpr ⟨later, inside, begins⟩] at quiet
        cases quiet
      · cases worker with
        | sleeping remaining =>
          obtain ⟨positive, fits, taken, -⟩ := told
          omega
        | counting remaining =>
          obtain ⟨positive, fits, taken, -⟩ := told
          omega
        | finishing => cases counts
        | clearing => cases counts
        | ended => cases counts
    · rintro ⟨before, made, rest, thread, timeoutSeconds, shape, created, quiet, early⟩
      obtain ⟨-, worker, here, told, flag⟩ := account.told shape created
      have undisturbed : ¬ ∃ later ∈ rest, Begins later := fun ⟨later, inside, begins⟩ => quiet later inside begins
      have counts : worker.counts = true := by
        cases worker with
        | sleeping => rfl
        | counting => rfl
        | finishing =>
          obtain ⟨positive, taken, -⟩ := told
          omega
        | clearing =>
          obtain ⟨taken, -⟩ := told
          omega
        | ended =>
          obtain ⟨taken, -⟩ | ⟨disturbed, -⟩ := told
          · omega
          · exact absurd disturbed undisturbed
      have last := (account.sound.alive here (Worker.alive_of_counts counts)).1
      exact ⟨⟨worker, last ▸ here, counts⟩, eq_false_of_ne_true fun cancelled => undisturbed ((flag counts).mp cancelled)⟩
  · intro created target task asked joining waits
    obtain ⟨before, begun, rest, worker, shape, begins, here, -, left⟩ := account.joins joining
    refine ⟨before, begun, rest, shape, begins, ?_⟩
    have step : event.outcome = (goOn created event.before).1 := by
      conv_lhs => rw [is]
      rw [asked]
      rfl
    rw [waits] at step
    have alive : worker.isEnded = false := by
      by_contra ended
      rw [goOn, joining] at step
      dsimp only at step
      rw [here, Option.any_some, eq_true_of_ne_false ended, if_pos rfl] at step
      cases step
    have bound := left.resolve_left (by rw [alive]; decide)
    have positive : 0 < worker.left := by
      cases worker with
      | ended => cases alive
      | _ => simp [Worker.left]
    omega

end Hiya.Pm.Clipboard
