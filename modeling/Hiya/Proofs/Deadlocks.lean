import Hiya.Proofs.LockOrder

/-! Where the two locks of the daemon lead into a deadlock. The calls keep an order, but
the main thread breaks it: a call that its main loop begins comes on top of one that
holds `fp_lock`. The daemon deadlocks exactly when such a call asks for `fp_lock` again,
or for `data_lock` while a task that holds it waits to seal its template. -/

namespace Hiya.Daemon.Locks
open Library Routine

structure Disciplined (threads : Threads) : Prop where
  main : ∀ frame ∈ threads.main, Ordered frame.held frame.todo []
  workers : ∀ frame ∈ threads.workers, Ordered frame.held frame.todo []
  /-- A call that another one came in on is in its main loop. -/
  below : ∀ frame ∈ threads.main.tail, frame.todo.idles = true

theorem ordered_advance {frame : Frame} (ordered : Ordered frame.held frame.todo []) (taken : Lock → Bool)
    (dispatching answer : Bool) :
    Ordered (frame.advance taken dispatching answer).held (frame.advance taken dispatching answer).todo [] := by
  obtain ⟨held, todo, asleep⟩ := frame
  cases todo with
  | done value => exact ordered
  | lock key rest =>
    simp only [Frame.advance]
    split
    · exact ordered
    · exact ordered.2
  | unlock key rest => exact ordered.2
  | loop rest =>
    simp only [Frame.advance]
    split
    · exact ordered.2
    · exact ordered
  | choose rest => exact ordered answer

theorem idles_of_dispatching {threads : Threads} (dispatching : threads.dispatching = true)
    (below : ∀ frame ∈ threads.main.tail, frame.todo.idles = true) : ∀ frame ∈ threads.main, frame.todo.idles = true := by
  intro frame inside
  unfold Threads.dispatching at dispatching
  cases stack : threads.main with
  | nil => simp [stack] at inside
  | cons top rest =>
    rw [stack] at dispatching below inside
    rcases List.mem_cons.mp inside with rfl | inside
    · simpa using dispatching
    · exact below frame inside

/-- The call on top has returned, or it goes on. -/
theorem advanceMain_cases (taken : Lock → Bool) (answer : Bool) (main : List Frame) :
    (advanceMain taken answer main = main.tail ∧ ∀ frame ∈ main.head?, frame.todo.asks = none) ∨
      ∃ frame below, main = frame :: below ∧ advanceMain taken answer main = frame.advance taken true answer :: below := by
  cases main with
  | nil => exact .inl ⟨rfl, by simp⟩
  | cons frame below =>
    simp only [advanceMain]
    split
    next ended =>
      refine .inl ⟨rfl, ?_⟩
      intro top here
      cases here
      rw [ended]
      rfl
    next => exact .inr ⟨frame, below, rfl, rfl⟩

theorem disciplined_start : Disciplined .start := by
  refine ⟨?_, ?_, ?_⟩
  all_goals
    intro frame inside
    cases inside

theorem Disciplined.move {threads : Threads} (disciplined : Disciplined threads) (setup : Setup) (next : Move) :
    Disciplined (move setup threads next) := by
  cases next with
  | dispatch handler =>
    simp only [Locks.move]
    split
    next dispatching =>
      refine ⟨?_, ?_, idles_of_dispatching dispatching disciplined.below⟩
      · intro frame inside
        rcases List.mem_cons.mp inside with rfl | inside
        · exact ordered_act setup handler
        · exact disciplined.main frame inside
      · intro frame inside
        rcases List.mem_append.mp inside with inside | inside
        · exact disciplined.workers frame inside
        · simp only [Option.mem_toList, Option.map_eq_some_iff] at inside
          obtain ⟨act, started, rfl⟩ := inside
          exact ordered_task setup started
    next => exact disciplined
  | advance thread answer =>
    cases thread with
    | main =>
      obtain ⟨ended, -⟩ | ⟨frame, below, stack, goes⟩ := advanceMain_cases threads.taken answer threads.main
      · refine ⟨?_, disciplined.workers, ?_⟩
        · intro frame inside
          exact disciplined.main frame (List.mem_of_mem_tail (ended ▸ inside))
        · intro frame inside
          refine disciplined.below frame (List.mem_of_mem_tail ?_)
          exact ended ▸ inside
      · have now : (Locks.move setup threads (.advance .main answer)).main =
          frame.advance threads.taken true answer :: below := goes
        refine ⟨?_, disciplined.workers, ?_⟩
        · intro other inside
          rw [now] at inside
          rcases List.mem_cons.mp inside with rfl | inside
          · exact ordered_advance (disciplined.main frame (by simp [stack])) _ _ _
          · exact disciplined.main other (by simp [stack, inside])
        · intro other inside
          rw [now] at inside
          refine disciplined.below other ?_
          rwa [stack]
    | worker index =>
      refine ⟨disciplined.main, ?_, disciplined.below⟩
      intro frame inside
      obtain ⟨place, there⟩ := List.getElem?_of_mem inside
      simp only [Locks.move, List.getElem?_modify, Option.map_eq_map, Option.map_eq_some_iff] at there
      obtain ⟨before, old, rfl⟩ := there
      have ordered := disciplined.workers before (List.mem_of_getElem? old)
      split
      · exact ordered_advance ordered _ _ _
      · exact ordered

/-- What a call holds lies below the lock it asks for. -/
theorem ordered_of_asks {frame : Frame} {key : Lock} (ordered : Ordered frame.held frame.todo [])
    (asked : frame.todo.asks = some key) :
    ∀ other ∈ frame.held, rank other < rank key := by
  obtain ⟨held, todo, asleep⟩ := frame
  cases todo with
  | lock wanted rest =>
    cases asked
    exact ordered.1
  | done value | unlock wanted rest | loop rest | choose rest => cases asked

theorem idle_held {frame : Frame} (ordered : Ordered frame.held frame.todo []) (idle : frame.todo.idles = true) :
    ∀ key ∈ frame.held, key = .fp := by
  obtain ⟨held, todo, asleep⟩ := frame
  cases todo with
  | loop rest => exact ordered.1
  | done value | lock key rest | unlock key rest | choose rest => cases idle

namespace Disciplined
variable {threads : Threads} (disciplined : Disciplined threads)

include disciplined in
theorem worker_order {index : Nat} {held wanted : Lock} (asked : threads.asks (.worker index) = some wanted)
    (holding : threads.holds (.worker index) held = true) : rank held < rank wanted := by
  simp only [Threads.asks, Threads.holds, Threads.frames] at asked holding
  cases there : threads.workers[index]? with
  | none => simp [there] at asked
  | some frame =>
    rw [there] at asked holding
    refine ordered_of_asks (disciplined.workers frame (List.mem_of_getElem? there)) ?_ held ?_
    · simpa using asked
    · simpa using holding

include disciplined in
/-- A lock of the main thread lies below the one it asks for, or a call below holds it. -/
theorem main_holds {held wanted : Lock} (asked : threads.asks .main = some wanted)
    (holding : threads.holds .main held = true) :
    rank held < rank wanted ∨ ∃ frame ∈ threads.main.tail, held ∈ frame.held := by
  simp only [Threads.asks, Threads.holds, Threads.frames] at asked holding
  cases stack : threads.main with
  | nil => simp [stack] at asked
  | cons top below =>
    rw [stack] at asked holding
    simp only [List.any_cons, Bool.or_eq_true, List.any_eq_true, List.contains_iff_mem] at holding
    rcases holding with holding | ⟨frame, inside, holding⟩
    · exact .inl (ordered_of_asks (disciplined.main top (by simp [stack])) (by simpa using asked) held holding)
    · exact .inr ⟨frame, inside, holding⟩

include disciplined in
theorem main_order {held wanted : Lock} (asked : threads.asks .main = some wanted)
    (holding : threads.holds .main held = true) :
    rank held < rank wanted ∨ held = .fp := by
  rcases disciplined.main_holds asked holding with below | ⟨frame, inside, kept⟩
  · exact .inl below
  · have ordered := disciplined.main frame (List.mem_of_mem_tail inside)
    exact .inr (idle_held ordered (disciplined.below frame inside) held kept)

end Disciplined

theorem asks_of_wants {threads : Threads} {thread : Thread} {key : Lock} (waiting : threads.wants thread = some key) :
    threads.asks thread = some key := by
  simp only [Threads.wants, Threads.asks, Option.bind_eq_some_iff] at waiting ⊢
  obtain ⟨frame, top, waiting⟩ := waiting
  refine ⟨frame, top, ?_⟩
  unfold Frame.wants at waiting
  split at waiting
  · exact waiting
  · cases waiting

theorem taken_of_holds {threads : Threads} {thread : Thread} {key : Lock} (holding : threads.holds thread key = true) :
    threads.taken key = true := by
  simp only [Threads.holds, Threads.taken, List.any_eq_true] at holding ⊢
  obtain ⟨frame, inside, holding⟩ := holding
  refine ⟨frame, List.mem_append.mpr ?_, holding⟩
  cases thread with
  | main => exact .inl inside
  | worker index => exact .inr (List.mem_of_getElem? (Option.mem_toList.mp inside))

def Reentered (threads : Threads) : Prop := threads.wants .main = some .fp ∧ threads.holds .main .fp = true

/-- A call asks for `data_lock` on top of one that holds `fp_lock`, and a worker holds
`data_lock` and waits for `fp_lock`. -/
def Crossed (threads : Threads) : Prop :=
  threads.wants .main = some .data ∧ threads.holds .main .fp = true ∧
    ∃ index, threads.wants (.worker index) = some .fp ∧ threads.holds (.worker index) .data = true

theorem Reentered.selfWait {threads : Threads} (reentered : Reentered threads) : threads.standing.SelfWait :=
  ⟨.main, .fp, reentered.1, reentered.2⟩

theorem Crossed.circular {threads : Threads} (crossed : Crossed threads) : threads.standing.Circular := by
  obtain ⟨waiting, holding, index, asleep, keeping⟩ := crossed
  have forth : threads.standing.Blocked .main (.worker index) := ⟨.data, waiting, keeping⟩
  have back : threads.standing.Blocked (.worker index) .main := ⟨.fp, asleep, holding⟩
  exact Standing.circular_of_pair forth back

/-- The order in which the main thread takes the locks when it breaks the usual one. -/
def turned : Lock → Nat
  | .data => 1
  | .fp => 0

theorem deadlocked_iff {threads : Threads} (disciplined : Disciplined threads) :
    threads.standing.Deadlocked ↔ Reentered threads ∨ Crossed threads := by
  constructor
  · intro deadlocked
    by_contra neither
    obtain ⟨apart, straight⟩ := not_or.mp neither
    by_cases broken : threads.wants .main = some .data ∧ threads.holds .main .fp = true
    · -- no worker seals a template now, so all wait in the turned order
      refine Standing.not_deadlocked_of_rank turned ?_ deadlocked
      intro thread held wanted holding waiting
      cases thread with
      | main =>
        cases broken.1.symm.trans waiting
        rcases disciplined.main_order (asks_of_wants waiting) holding with below | rfl
        · exact absurd below (Nat.not_lt_zero _)
        · exact Nat.zero_lt_one
      | worker index =>
        have below := disciplined.worker_order (asks_of_wants waiting) holding
        cases wanted with
        | data => exact absurd below (Nat.not_lt_zero _)
        | fp =>
          cases held with
          | data => exact absurd ⟨broken.1, broken.2, index, waiting, holding⟩ straight
          | fp => exact absurd below (Nat.lt_irrefl _)
    · refine Standing.not_deadlocked_of_rank rank ?_ deadlocked
      intro thread held wanted holding waiting
      cases thread with
      | main =>
        rcases disciplined.main_order (asks_of_wants waiting) holding with below | rfl
        · exact below
        · cases wanted with
          | data => exact absurd ⟨waiting, holding⟩ broken
          | fp => exact absurd ⟨waiting, holding⟩ apart
      | worker index => exact disciplined.worker_order (asks_of_wants waiting) holding
  · rintro (reentered | crossed)
    · exact .inl reentered.selfWait
    · exact .inr crossed.circular

/-- A step of the main thread on top of a call that holds `fp_lock` asks for that lock
again, or for `data_lock` while a worker holds it and waits for `fp_lock`. A step of a
worker that holds `data_lock` asks for `fp_lock` while the main thread holds it and waits
for `data_lock`. -/
def Strays (threads : Threads) : Move → Prop
  | .dispatch _ => False
  | .advance .main _ =>
    threads.holds .main .fp = true ∧
      (threads.asks .main = some .fp ∨
        threads.asks .main = some .data ∧
          ∃ index, threads.wants (.worker index) = some .fp ∧ threads.holds (.worker index) .data = true)
  | .advance (.worker index) _ =>
    threads.asks (.worker index) = some .fp ∧ threads.holds (.worker index) .data = true ∧
      threads.wants .main = some .data ∧ threads.holds .main .fp = true

/-- A frame sleeps after a step exactly for a lock that it asked for and that was taken. -/
theorem wants_advance_frame (frame : Frame) (taken : Lock → Bool) (dispatching answer : Bool) (key : Lock) :
    (frame.advance taken dispatching answer).wants = some key ↔ frame.todo.asks = some key ∧ taken key = true := by
  obtain ⟨held, todo, asleep⟩ := frame
  cases todo with
  | lock wanted rest =>
    simp only [Frame.advance, Routine.asks]
    split
    next busy =>
      simp only [Frame.wants, Routine.asks, if_true, Option.some.injEq, iff_self_and]
      rintro rfl
      exact busy
    next free =>
      simp only [Frame.wants, Bool.false_eq_true, if_false, reduceCtorEq, Option.some.injEq, false_iff, not_and]
      rintro rfl
      exact free
  | done value => cases asleep <;> simp [Frame.advance, Frame.wants, Routine.asks]
  | loop rest => cases dispatching <;> simp [Frame.advance, Frame.wants, Routine.asks]
  | unlock wanted rest | choose rest => simp [Frame.advance, Frame.wants, Routine.asks]

/-- A frame that goes to sleep keeps the locks it holds. -/
theorem held_advance_frame {frame : Frame} {taken : Lock → Bool} {key : Lock} (dispatching answer : Bool)
    (asked : frame.todo.asks = some key) (busy : taken key = true) : (frame.advance taken dispatching answer).held =
    frame.held := by
  obtain ⟨held, todo, asleep⟩ := frame
  cases todo with
  | lock wanted rest =>
    cases asked
    simp only [Frame.advance, busy, if_true]
  | done value | unlock wanted rest | loop rest | choose rest => cases asked

section
variable {threads : Threads} (setup : Setup) (answer : Bool) {key : Lock}

theorem idle_wants {frame : Frame} (idle : frame.todo.idles = true) : frame.wants = none := by
  obtain ⟨held, todo, asleep⟩ := frame
  cases todo with
  | loop rest => simp [Frame.wants, Routine.asks]
  | done value | lock wanted rest | unlock wanted rest | choose rest => cases idle

/-- Where the running call sleeps after a step, the main thread holds what it held. -/
theorem main_sleeps_iff (disciplined : Disciplined threads) (holding : Lock) :
    ((move setup threads (.advance .main answer)).wants .main = some key ∧
        (move setup threads (.advance .main answer)).holds .main holding = true) ↔
      (threads.asks .main = some key ∧ threads.taken key = true) ∧ threads.holds .main holding = true := by
  simp only [Threads.wants, Threads.asks, Threads.holds, Threads.frames, move]
  obtain ⟨ended, silent⟩ | ⟨frame, below, stack, goes⟩ := advanceMain_cases threads.taken answer threads.main
  · -- the call below the one that has returned is in its main loop
    have quiet : threads.main.tail.head?.bind Frame.wants = none := by
      cases rest : threads.main.tail with
      | nil => rfl
      | cons top below => exact idle_wants (disciplined.below top (by simp [rest]))
    have still : threads.main.head?.bind (fun frame => frame.todo.asks) = none := by
      cases top : threads.main.head? with
      | none => rfl
      | some frame => exact silent frame top
    rw [ended, quiet, still]
    simp
  · rw [goes, stack]
    simp only [List.head?_cons, Option.bind_some, List.any_cons, wants_advance_frame]
    refine and_congr_right ?_
    rintro ⟨asked, busy⟩
    rw [held_advance_frame true answer asked busy]

theorem worker_sleeps_iff (index : Nat) (holding : Lock) :
    ((move setup threads (.advance (.worker index) answer)).wants (.worker index) = some key ∧
        (move setup threads (.advance (.worker index) answer)).holds (.worker index) holding = true) ↔
      (threads.asks (.worker index) = some key ∧ threads.taken key = true) ∧
      threads.holds (.worker index) holding = true := by
  simp only [Threads.wants, Threads.asks, Threads.holds, Threads.frames, move, List.getElem?_modify]
  cases threads.workers[index]? with
  | none => simp
  | some frame =>
    simp only [Option.map_eq_map, Option.map_some, if_true, Option.toList_some, List.head?_cons, Option.bind_some,
      wants_advance_frame, List.any_cons, List.any_nil, Bool.or_false]
    refine and_congr_right ?_
    rintro ⟨asked, busy⟩
    rw [held_advance_frame threads.dispatching answer asked busy]

/-- A step of one thread leaves the others as they are. -/
theorem frames_of_ne {thread other : Thread} (different : other ≠ thread) :
    (move setup threads (.advance thread answer)).frames other = threads.frames other := by
  cases thread with
  | main =>
    cases other with
    | main => exact absurd rfl different
    | worker index => rfl
  | worker index =>
    cases other with
    | main => rfl
    | worker place =>
      have apart : index ≠ place := fun same => different (by rw [same])
      simp only [Threads.frames, move, List.getElem?_modify, apart, if_false]
      cases threads.workers[place]? <;> rfl

theorem wants_of_ne {thread other : Thread} (different : other ≠ thread) :
    (move setup threads (.advance thread answer)).wants other = threads.wants other := by
  unfold Threads.wants
  rw [frames_of_ne setup answer different]

theorem holds_of_ne {thread other : Thread} (different : other ≠ thread) (key : Lock) :
    (move setup threads (.advance thread answer)).holds other key = threads.holds other key := by
  unfold Threads.holds
  rw [frames_of_ne setup answer different]

/-- From a state without a deadlock exactly the steps that stray lead into one. -/
theorem deadlocks_iff_strays (disciplined : Disciplined threads) (free : ¬ (Reentered threads ∨ Crossed threads))
    (next : Move) :
    (Reentered (move setup threads next) ∨ Crossed (move setup threads next)) ↔ Strays threads next := by
  cases next with
  | dispatch handler =>
    simp only [Strays, iff_false, move]
    split
    next =>
      rintro (⟨waiting, -⟩ | ⟨waiting, -, -⟩)
      · cases waiting
      · cases waiting
    next => exact free
  | advance thread answer =>
    cases thread with
    | main =>
      have others (index : Nat) : Thread.worker index ≠ .main := by simp
      constructor
      · rintro (⟨waiting, holding⟩ | ⟨waiting, holding, index, asleep, keeping⟩)
        · obtain ⟨⟨asked, -⟩, held⟩ := (main_sleeps_iff setup answer disciplined .fp).mp ⟨waiting, holding⟩
          exact ⟨held, .inl asked⟩
        · obtain ⟨⟨asked, -⟩, held⟩ := (main_sleeps_iff setup answer disciplined .fp).mp ⟨waiting, holding⟩
          rw [wants_of_ne setup answer (others index)] at asleep
          rw [holds_of_ne setup answer (others index)] at keeping
          exact ⟨held, .inr ⟨asked, index, asleep, keeping⟩⟩
      · rintro ⟨held, asked | ⟨asked, index, asleep, keeping⟩⟩
        · exact .inl ((main_sleeps_iff setup answer disciplined .fp).mpr ⟨⟨asked, taken_of_holds held⟩, held⟩)
        · obtain ⟨waiting, holding⟩ :=
            (main_sleeps_iff setup answer disciplined .fp).mpr ⟨⟨asked, taken_of_holds keeping⟩, held⟩
          refine .inr ⟨waiting, holding, index, ?_, ?_⟩
          · rwa [wants_of_ne setup answer (others index)]
          · rwa [holds_of_ne setup answer (others index)]
    | worker index =>
      have main : Thread.main ≠ .worker index := by simp
      constructor
      · rintro (⟨waiting, holding⟩ | ⟨waiting, holding, place, asleep, keeping⟩)
        · rw [wants_of_ne setup answer main] at waiting
          rw [holds_of_ne setup answer main] at holding
          exact absurd (.inl ⟨waiting, holding⟩) free
        · rw [wants_of_ne setup answer main] at waiting
          rw [holds_of_ne setup answer main] at holding
          by_cases here : place = index
          · subst here
            obtain ⟨⟨asked, -⟩, held⟩ := (worker_sleeps_iff setup answer place .data).mp ⟨asleep, keeping⟩
            exact ⟨asked, held, waiting, holding⟩
          · have other : Thread.worker place ≠ .worker index := by simpa using here
            rw [wants_of_ne setup answer other] at asleep
            rw [holds_of_ne setup answer other] at keeping
            exact absurd (.inr ⟨waiting, holding, place, asleep, keeping⟩) free
      · rintro ⟨asked, held, waiting, holding⟩
        obtain ⟨asleep, keeping⟩ := (worker_sleeps_iff setup answer index .data).mpr ⟨⟨asked, taken_of_holds holding⟩, held⟩
        refine .inr ⟨?_, ?_, index, asleep, keeping⟩
        · rwa [wants_of_ne setup answer main]
        · rwa [holds_of_ne setup answer main]

end

section
variable (setup : Setup) (moves : List Move)

theorem disciplined_run : ∀ event ∈ (scheduler setup).run .start moves, Disciplined event.after := by
  have always : (∀ event ∈ (scheduler setup).run .start moves, Disciplined event.after) ↔
      ∀ event ∈ (scheduler setup).run .start moves, True := by
    refine Machine.run_forall_iff Disciplined ?_ disciplined_start fun _ _ => trivial
    intro threads next disciplined _
    exact iff_true_intro (disciplined.move setup next)
  exact always.mpr fun _ _ => trivial

/-- A run of calls, timers and fprintd tasks never has a thread wait for its own lock, nor
threads wait in a circle, exactly when none of its steps strays. -/
theorem deadlock_free_iff_never_strays :
    (∀ event ∈ (scheduler setup).run .start moves, ¬ event.after.standing.Deadlocked) ↔
      ∀ event ∈ (scheduler setup).run .start moves, ¬ Strays event.before event.input := by
  have single : (∀ event ∈ (scheduler setup).run .start moves, Disciplined event.after ∧ ¬ event.after.standing.Deadlocked) ↔
      ∀ event ∈ (scheduler setup).run .start moves, ¬ Strays event.before event.input := by
    refine Machine.run_forall_iff (fun threads => Disciplined threads ∧
      ¬ threads.standing.Deadlocked) ?_ ?_ fun _ _ => trivial
    · rintro threads next ⟨disciplined, free⟩ -
      have after : Disciplined (move setup threads next) := disciplined.move setup next
      rw [deadlocked_iff disciplined] at free
      change (Disciplined (move setup threads next) ∧ ¬ (move setup threads next).standing.Deadlocked) ↔ ¬ Strays threads next
      rw [deadlocked_iff after, deadlocks_iff_strays setup disciplined free next]
      exact and_iff_right after
    · refine ⟨disciplined_start, ?_⟩
      rw [deadlocked_iff disciplined_start]
      rintro (⟨waiting, -⟩ | ⟨waiting, -, -⟩)
      · cases waiting
      · cases waiting
  refine Iff.trans ?_ single
  constructor
  · intro all event inside
    exact ⟨disciplined_run setup moves event inside, all event inside⟩
  · intro all event inside
    exact (all event inside).2

end

/-- One thread goes on for some steps, by the branches that the code takes when all is well. -/
def steps (thread : Thread) (count : Nat) : List Move := List.replicate count (.advance thread false)

/-- Verify comes in while Enroll waits for the finger. -/
def verifyDuringEnroll : List Move :=
  .dispatch .enroll :: steps .main 7 ++ .dispatch .verify :: steps .main 6

/-- A fprintd task has its print and is about to seal it under `data_lock`; Enroll waits
for the finger, and GetEnrolledFingers comes in. -/
def sealDuringEnroll : List Move :=
  .dispatch .enrollStart :: steps .main 1 ++ steps (.worker 0) 9 ++ .advance (.worker 0) true :: steps (.worker 0) 1 ++
    .dispatch .enroll :: steps .main 7 ++ steps (.worker 0) 3 ++
    .dispatch .getEnrolledFingers :: steps .main 2 ++ steps (.worker 0) 1

theorem enroll_deadlocks :
    (∃ event ∈ (scheduler ⟨true, false, false⟩).run .start verifyDuringEnroll, event.after.standing.SelfWait) ∧
      ∃ event ∈ (scheduler ⟨true, false, true⟩).run .start sealDuringEnroll, event.after.standing.Circular := by
  constructor
  · have seen : (((scheduler ⟨true, false, false⟩).run .start verifyDuringEnroll).any fun event =>
        event.after.wants .main = some .fp ∧ event.after.holds .main .fp = true) = true := by decide +kernel
    obtain ⟨event, inside, shown⟩ := List.any_eq_true.mp seen
    obtain ⟨waiting, holding⟩ := of_decide_eq_true shown
    exact ⟨event, inside, Reentered.selfWait ⟨waiting, holding⟩⟩
  · have seen : (((scheduler ⟨true, false, true⟩).run .start sealDuringEnroll).any fun event =>
        (event.after.wants .main = some .data ∧ event.after.holds .main .fp = true) ∧
          event.after.wants (.worker 0) = some .fp ∧ event.after.holds (.worker 0) .data = true) = true := by decide +kernel
    obtain ⟨event, inside, shown⟩ := List.any_eq_true.mp seen
    obtain ⟨⟨waiting, holding⟩, asleep, keeping⟩ := of_decide_eq_true shown
    exact ⟨event, inside, Crossed.circular ⟨waiting, holding, 0, asleep, keeping⟩⟩

end Hiya.Daemon.Locks
